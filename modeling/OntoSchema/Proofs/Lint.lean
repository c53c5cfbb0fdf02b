import OntoSchema.Lint
import OntoSchema.Proofs.Entries
import OntoSchema.Proofs.Policies

/-!
# The linter and the compiler on policies

The linter looks for operations that a policy allows and denies, and the compiler for texts that it
lists in both places. A conflict that the linter finds stops the compiler. The converse fails for
texts that denote no operation, and `lint_agrees_iff` says that nothing else sets the two apart.
-/

namespace OntoSchema

namespace Finding

variable {finding : Finding}

theorem code_eq_iff :
    finding.code = "E001" ↔ ∃ subject operations, finding = .conflict subject operations := by
  cases finding <;> simp [code]

theorem severity_eq_error_iff :
    finding.severity = .error ↔ ∃ subject operations, finding = .conflict subject operations := by
  cases finding <;> simp [severity]

theorem errorCount_eq_zero_iff {findings : List Finding} :
    errorCount findings = 0 ↔ ∀ subject operations, .conflict subject operations ∉ findings := by
  unfold errorCount
  rw [List.length_eq_zero_iff, List.filter_eq_nil_iff]
  constructor
  · intro h subject operations hmem
    exact h _ hmem (beq_self_eq_true _)
  · intro h finding hmem herror
    obtain ⟨subject, operations, rfl⟩ := severity_eq_error_iff.1 (beq_iff_eq.1 herror)
    exact h subject operations hmem

end Finding

section Codes

variable {finding : Finding}

theorem code_of_mem_lintLabels {subject list : String} {labels : List String}
    (h : finding ∈ lintLabels subject list labels) : finding.code = "W001" := by
  obtain ⟨entry, _, h⟩ := List.mem_filterMap.1 h
  dsimp only at h
  split at h
  · exact Option.some.inj h ▸ rfl
  · cases h

theorem code_of_mem_lintPolicy {subject : String} {policy : ClassPolicy}
    (h : finding ∈ lintPolicy subject policy) :
    finding.code = "W001" ∨ finding.code = "E001" := by
  rcases List.mem_append.1 h with h | h
  · rcases List.mem_append.1 h with h | h
    · exact .inl (code_of_mem_lintLabels h)
    · exact .inl (code_of_mem_lintLabels h)
  · split at h
    · cases h
    · exact .inr (List.mem_singleton.1 h ▸ rfl)

theorem code_of_mem_lintClasses {configuration : Configuration} {ontology : Ontology}
    (h : finding ∈ lintClasses configuration ontology) :
    finding.code = "W002" ∨ finding.code = "W003" := by
  rcases List.mem_append.1 h with h | h
  · obtain ⟨name, _, rfl⟩ := List.mem_map.1 h
    exact .inl rfl
  · obtain ⟨entry, _, h⟩ := List.mem_filterMap.1 h
    dsimp only at h
    split at h
    · cases h
    · exact .inr (Option.some.inj h ▸ rfl)

theorem code_of_mem_lintSections {roles : Option AnnotationRoles}
    (h : finding ∈ lintSections roles) : finding.code = "W004" := by
  unfold lintSections at h
  split at h
  · cases h
  · obtain ⟨entry, _, h⟩ := List.mem_filterMap.1 h
    dsimp only at h
    split at h
    · exact Option.some.inj h ▸ rfl
    · cases h

end Codes

section Conflicts

variable {configuration : Configuration} {subject other : String} {policy : ClassPolicy}
  {operations : List Operation}

/-- The linter finds a conflict in a policy that allows and denies the same operation. -/
theorem conflict_mem_lintPolicy_iff :
    (∃ operations, .conflict other operations ∈ lintPolicy subject policy) ↔
      other = subject ∧ policy.SharesOperation := by
  have hshares : policy.allowed.filter policy.denied.contains = [] ↔
      ¬ policy.SharesOperation := by
    simp [List.filter_eq_nil_iff, ClassPolicy.SharesOperation]
  constructor
  · rintro ⟨operations, hmem⟩
    rcases List.mem_append.1 hmem with hmem | hmem
    · rcases List.mem_append.1 hmem with hmem | hmem
      · exact absurd (code_of_mem_lintLabels hmem) (by simp [Finding.code])
      · exact absurd (code_of_mem_lintLabels hmem) (by simp [Finding.code])
    · split at hmem
      · cases hmem
      · rename_i hsome
        obtain ⟨rfl, _⟩ := Finding.conflict.inj (List.mem_singleton.1 hmem)
        exact ⟨rfl, not_not.1 fun h => hsome (List.isEmpty_iff.2 (hshares.2 h))⟩
  · rintro ⟨rfl, hoperation⟩
    refine ⟨policy.allowed.filter policy.denied.contains, List.mem_append_right _ ?_⟩
    rw [if_neg fun h => hshares.1 (List.isEmpty_iff.1 h) hoperation]
    exact List.mem_singleton_self _

theorem conflict_mem_lint_iff (ontology : Option Ontology) :
    (∃ operations, .conflict subject operations ∈ configuration.lint ontology) ↔
      ∃ policy, (subject, policy) ∈ configuration.policies.entries ∧ policy.SharesOperation := by
  constructor
  · rintro ⟨operations, hmem⟩
    rcases List.mem_append.1 hmem with hmem | hmem
    · rcases List.mem_append.1 hmem with hmem | hmem
      · obtain ⟨⟨name, policy⟩, hentry, hpolicy⟩ := List.mem_flatMap.1 hmem
        obtain ⟨rfl, hoperation⟩ := conflict_mem_lintPolicy_iff.1 ⟨operations, hpolicy⟩
        exact ⟨policy, hentry, hoperation⟩
      · cases ontology with
        | none => cases hmem
        | some ontology => exact absurd (code_of_mem_lintClasses hmem) (by simp [Finding.code])
    · exact absurd (code_of_mem_lintSections hmem) (by simp [Finding.code])
  · rintro ⟨policy, hentry, hoperation⟩
    obtain ⟨operations, hpolicy⟩ := conflict_mem_lintPolicy_iff.2 ⟨rfl, hoperation⟩
    exact ⟨operations, List.mem_append_left _ (List.mem_append_left _
      (List.mem_flatMap.2 ⟨_, hentry, hpolicy⟩))⟩

end Conflicts

namespace Configuration

variable (configuration : Configuration) (ontology : Option Ontology)

/-- The linter reports a conflict of a class. -/
def Reports (subject : String) : Prop :=
  ∃ finding ∈ configuration.lint ontology,
    finding.code = "E001" ∧ finding.path = "/paths_for_class/" ++ subject

/-- The compiler rejects the policy of a class. -/
def Rejects (subject : String) : Prop :=
  ∃ policy, (subject, policy) ∈ configuration.policies.entries ∧ policy.validate subject ≠ .ok ()

/-- The linter and the compiler object to the same classes, and to the same configurations. -/
def LintAgrees : Prop :=
  (∀ subject, configuration.Reports ontology subject ↔ configuration.Rejects subject) ∧
    (Finding.errorCount (configuration.lint ontology) = 0 ↔ configuration.validate = .ok ())

variable {configuration ontology}

theorem reports_iff {subject : String} : configuration.Reports ontology subject ↔
    ∃ policy, (subject, policy) ∈ configuration.policies.entries ∧ policy.SharesOperation := by
  rw [← conflict_mem_lint_iff ontology]
  constructor
  · rintro ⟨finding, hmem, hcode, hpath⟩
    obtain ⟨other, operations, rfl⟩ := Finding.code_eq_iff.1 hcode
    obtain rfl : other = subject := String.append_right_inj _ |>.1 hpath
    exact ⟨operations, hmem⟩
  · rintro ⟨operations, hmem⟩
    exact ⟨_, hmem, rfl, rfl⟩

theorem rejects_iff {subject : String} : configuration.Rejects subject ↔
    ∃ policy, (subject, policy) ∈ configuration.policies.entries ∧
      (policy.SharesOperation ∨ policy.SharesUnknown) := by
  unfold Rejects
  simp only [ne_eq, ClassPolicy.validate_eq_ok_iff, ← ClassPolicy.overlap_ne_nil_iff]

/-- What the linter reports stops the compiler. The two agree just when every policy that lists an
unknown text as allowed and as denied shares an operation as well. -/
theorem lint_agrees_iff (configuration : Configuration) (ontology : Option Ontology) :
    (∀ subject, configuration.Reports ontology subject → configuration.Rejects subject) ∧
      (configuration.LintAgrees ontology ↔
        ∀ entry ∈ configuration.policies.entries,
          entry.2.SharesUnknown → entry.2.SharesOperation) := by
  refine ⟨fun subject h => ?_, ?_, ?_⟩
  · obtain ⟨policy, hentry, hoperation⟩ := reports_iff.1 h
    exact rejects_iff.2 ⟨policy, hentry, .inl hoperation⟩
  · rintro ⟨hclasses, _⟩ ⟨subject, policy⟩ hentry hunknown
    obtain ⟨other, hother, hoperation⟩ :=
      reports_iff.1 ((hclasses subject).2 (rejects_iff.2 ⟨policy, hentry, .inr hunknown⟩))
    rwa [Entries.value_unique configuration.policies.ordered hentry hother]
  · intro hknown
    have hshares : ∀ entry ∈ configuration.policies.entries,
        (entry.2.SharesOperation ∨ entry.2.SharesUnknown ↔ entry.2.SharesOperation) :=
      fun entry hentry => or_iff_left_of_imp (hknown entry hentry)
    refine ⟨fun subject => ?_, ?_⟩
    · rw [reports_iff, rejects_iff]
      exact exists_congr fun policy => and_congr_right fun hentry => (hshares _ hentry).symm
    · rw [Finding.errorCount_eq_zero_iff, validate_eq_ok_iff]
      constructor
      · intro h entry hentry
        by_contra hne
        have hoperation := (hshares entry hentry).1 (ClassPolicy.overlap_ne_nil_iff.1 hne)
        obtain ⟨operations, hmem⟩ := (conflict_mem_lint_iff ontology).2 ⟨_, hentry, hoperation⟩
        exact h _ operations hmem
      · intro h subject operations hmem
        obtain ⟨policy, hentry, hoperation⟩ := (conflict_mem_lint_iff ontology).1 ⟨_, hmem⟩
        exact ClassPolicy.overlap_ne_nil_iff.2 (.inl hoperation) (h _ hentry)

/-- People are allowed and denied something that is no operation. -/
def flying : Configuration where
  policies := .ofList [("Person", { allowOperations := ["fly"], denyOperations := ["fly"] })]

/-- The linter is content with what stops the compiler. -/
theorem lint_passes_flying :
    Finding.errorCount (flying.lint none) = 0 ∧
      flying.validate = .error (.conflictingOperations "Person" ["fly"]) ∧
      ¬ flying.LintAgrees none := by
  have hcount : Finding.errorCount (flying.lint none) = 0 := by decide +kernel
  have hrejected : flying.validate = .error (.conflictingOperations "Person" ["fly"]) := rfl
  refine ⟨hcount, hrejected, fun hagrees => ?_⟩
  have hvalid := hagrees.2.1 hcount
  rw [hrejected] at hvalid
  cases hvalid

end Configuration

end OntoSchema
