import OntoSchema.Operation.Policy
import OntoSchema.Proofs.Entries

/-!
# Conflicts of policies

No text denotes two operations. So a policy can be in conflict in two ways: it allows and denies the
same operation, or it lists the same text in both places although the text denotes no operation
(`overlap_ne_nil_iff`). Of several policies in conflict the one under the first key is reported
(`validate_eq_conflict_iff`).
-/

namespace OntoSchema

namespace Operation

variable {text first second : String} {operation other : Operation}

/-- The labels and the keys of different operations differ. -/
theorem eq_of_common_text (h : text = operation.label ∨ text = operation.key)
    (hother : text = other.label ∨ text = other.key) : operation = other := by
  have hapart : ∀ one ∈ all, ∀ two ∈ all,
      one.label = two.label ∨ one.label = two.key ∨ one.key = two.label ∨ one.key = two.key →
        one = two := by decide
  refine hapart operation (mem_all operation) other (mem_all other) ?_
  rcases h with rfl | rfl
  · exact hother.elim .inl fun hkey => .inr (.inl hkey)
  · exact .inr (.inr hother)

theorem ofLabel?_eq_some_iff : ofLabel? text = some operation ↔
    normalize text = operation.label ∨ normalize text = operation.key := by
  have hsound : ∀ {found : Operation}, ofLabel? text = some found →
      normalize text = found.label ∨ normalize text = found.key := by
    intro found hfound
    simpa using List.find?_some hfound
  refine ⟨hsound, fun h => ?_⟩
  have hsome : (ofLabel? text).isSome :=
    List.find?_isSome.2 ⟨operation, mem_all operation, by simpa using h⟩
  obtain ⟨found, hfound⟩ := Option.isSome_iff_exists.1 hsome
  rw [hfound, eq_of_common_text (hsound hfound) h]

theorem canonical_of_ofLabel? (h : ofLabel? text = some operation) :
    canonical text = operation.label := by
  unfold canonical
  rw [h]

theorem canonical_of_unknown (h : ofLabel? text = none) : canonical text = normalize text := by
  unfold canonical
  rw [h]

/-- A text that is compared by the label of an operation denotes it. -/
theorem ofLabel?_of_canonical (h : canonical text = operation.label) :
    ofLabel? text = some operation := by
  cases htext : ofLabel? text with
  | none =>
    rw [canonical_of_unknown htext] at h
    rw [← htext, ofLabel?_eq_some_iff.2 (.inl h)]
  | some found =>
    rw [canonical_of_ofLabel? htext] at h
    rw [eq_of_common_text (.inl rfl) (.inl h)]

/-- Two texts compare as equal if they denote one operation, or none and have one normal form. -/
theorem canonical_eq_iff : canonical first = canonical second ↔
    (∃ operation, ofLabel? first = some operation ∧ ofLabel? second = some operation) ∨
      (ofLabel? first = none ∧ ofLabel? second = none ∧ normalize first = normalize second) := by
  constructor
  · intro h
    cases hfirst : ofLabel? first with
    | some operation =>
      rw [canonical_of_ofLabel? hfirst] at h
      exact .inl ⟨operation, rfl, ofLabel?_of_canonical h.symm⟩
    | none =>
      cases hsecond : ofLabel? second with
      | some operation =>
        rw [canonical_of_ofLabel? hsecond] at h
        rw [ofLabel?_of_canonical h] at hfirst
        cases hfirst
      | none =>
        rw [canonical_of_unknown hfirst, canonical_of_unknown hsecond] at h
        exact .inr ⟨rfl, rfl, h⟩
  · rintro (⟨operation, hfirst, hsecond⟩ | ⟨hfirst, hsecond, h⟩)
    · rw [canonical_of_ofLabel? hfirst, canonical_of_ofLabel? hsecond]
    · rw [canonical_of_unknown hfirst, canonical_of_unknown hsecond, h]

end Operation

namespace ClassPolicy

variable {policy : ClassPolicy}

/-- A policy allows an operation that it denies. -/
def SharesOperation (policy : ClassPolicy) : Prop :=
  ∃ operation ∈ policy.allowed, operation ∈ policy.denied

/-- A policy lists a text that denotes no operation as allowed and as denied, in one normal form. -/
def SharesUnknown (policy : ClassPolicy) : Prop :=
  ∃ allowed ∈ policy.allowOperations, ∃ denied ∈ policy.denyOperations,
    Operation.ofLabel? allowed = none ∧ Operation.ofLabel? denied = none ∧
      Operation.normalize allowed = Operation.normalize denied

theorem sharesOperation_iff : policy.SharesOperation ↔
    ∃ allowed ∈ policy.allowOperations, ∃ denied ∈ policy.denyOperations, ∃ operation,
      Operation.ofLabel? allowed = some operation ∧ Operation.ofLabel? denied = some operation := by
  constructor
  · rintro ⟨operation, hallowed, hdenied⟩
    obtain ⟨allowed, ha, hlabel⟩ := Operation.mem_denoted.1 hallowed
    obtain ⟨denied, hd, hother⟩ := Operation.mem_denoted.1 hdenied
    exact ⟨allowed, ha, denied, hd, operation, hlabel, hother⟩
  · rintro ⟨allowed, ha, denied, hd, operation, hlabel, hother⟩
    exact ⟨operation, Operation.mem_denoted.2 ⟨allowed, ha, hlabel⟩,
      Operation.mem_denoted.2 ⟨denied, hd, hother⟩⟩

/-- Some text that a policy allows compares as equal to one that it denies. -/
def Overlaps (policy : ClassPolicy) : Prop :=
  ∃ allowed ∈ policy.allowOperations, ∃ denied ∈ policy.denyOperations,
    Operation.canonical allowed = Operation.canonical denied

theorem overlaps_iff : policy.Overlaps ↔ policy.overlap ≠ [] := by
  constructor
  · rintro ⟨allowed, ha, denied, hd, hsame⟩
    have hdeny : Operation.canonical allowed ∈ policy.denyOperations.map Operation.canonical :=
      List.mem_map.2 ⟨denied, hd, hsame.symm⟩
    exact List.ne_nil_of_mem (mem_overlap.2 ⟨List.mem_map_of_mem ha, hdeny⟩)
  · intro hne
    obtain ⟨label, hlabel⟩ := List.exists_mem_of_ne_nil _ hne
    obtain ⟨hallow, hdeny⟩ := mem_overlap.1 hlabel
    obtain ⟨allowed, ha, rfl⟩ := List.mem_map.1 hallow
    obtain ⟨denied, hd, hsame⟩ := List.mem_map.1 hdeny
    exact ⟨allowed, ha, denied, hd, hsame.symm⟩

theorem pairwise_overlap (policy : ClassPolicy) : policy.overlap.Pairwise (· < ·) :=
  NameSet.ordered _

theorem overlap_ne_nil_iff :
    policy.overlap ≠ [] ↔ policy.SharesOperation ∨ policy.SharesUnknown := by
  rw [← overlaps_iff, sharesOperation_iff]
  unfold Overlaps
  simp only [Operation.canonical_eq_iff]
  constructor
  · rintro ⟨allowed, ha, denied, hd, hsame | hunknown⟩
    · exact .inl ⟨allowed, ha, denied, hd, hsame⟩
    · exact .inr ⟨allowed, ha, denied, hd, hunknown⟩
  · rintro (⟨allowed, ha, denied, hd, hsame⟩ | ⟨allowed, ha, denied, hd, hunknown⟩)
    · exact ⟨allowed, ha, denied, hd, .inl hsame⟩
    · exact ⟨allowed, ha, denied, hd, .inr hunknown⟩

theorem validate_of_overlap {subject : String} (h : policy.overlap ≠ []) :
    policy.validate subject = .error (.conflictingOperations subject policy.overlap) := by
  unfold validate
  rw [if_neg (by rwa [List.isEmpty_iff])]

end ClassPolicy

namespace Configuration

variable {configuration : Configuration}

theorem forM_validate_cons (entry : String × ClassPolicy) (rest : List (String × ClassPolicy)) :
    ((entry :: rest).forM fun entry => entry.2.validate entry.1) =
      entry.2.validate entry.1 >>= fun _ => rest.forM fun entry => entry.2.validate entry.1 := rfl

/-- The policies of a configuration are valid just when none of them is in conflict. -/
theorem validate_eq_ok_iff :
    configuration.validate = .ok () ↔
      ∀ entry ∈ configuration.policies.entries, entry.2.overlap = [] := by
  unfold validate
  generalize configuration.policies.entries = entries
  induction entries with
  | nil => exact iff_of_true rfl nofun
  | cons entry rest ih =>
    rw [forM_validate_cons, List.forall_mem_cons, ← ClassPolicy.validate_eq_ok_iff, ← ih]
    cases hfirst : entry.2.validate entry.1 with
    | error error => exact iff_of_false nofun fun h => nomatch h.1
    | ok => exact (and_iff_right rfl).symm

/-- A check that fails reports a policy in conflict, the one under the smallest key. -/
theorem exists_of_validate_eq_error {error : BuildError}
    (h : configuration.validate = .error error) :
    ∃ entry ∈ configuration.policies.entries, entry.2.overlap ≠ [] ∧
      (∀ other ∈ configuration.policies.entries, other.2.overlap ≠ [] → entry.1 ≤ other.1) ∧
      error = .conflictingOperations entry.1 entry.2.overlap := by
  have hordered := configuration.policies.ordered
  unfold validate at h
  generalize configuration.policies.entries = entries at h hordered ⊢
  induction entries with
  | nil => cases h
  | cons entry rest ih =>
    obtain ⟨hsmallest, hrest⟩ := List.pairwise_cons.1 hordered
    rw [forM_validate_cons] at h
    by_cases hentry : entry.2.overlap = []
    · rw [ClassPolicy.validate_eq_ok_iff.2 hentry] at h
      obtain ⟨found, hm, hfound, hleast, herror⟩ := ih h hrest
      refine ⟨found, List.mem_cons_of_mem _ hm, hfound, ?_, herror⟩
      exact List.forall_mem_cons.2 ⟨fun hne => absurd hentry hne, hleast⟩
    · rw [ClassPolicy.validate_of_overlap hentry] at h
      refine ⟨entry, List.mem_cons_self, hentry, ?_, (Except.error.inj h).symm⟩
      exact List.forall_mem_cons.2 ⟨fun _ => String.le_refl _, fun other hm _ =>
        String.not_lt.1 (String.lt_asymm (hsmallest other hm))⟩

/-- The policy of a subject is in conflict over some labels, in ascending order, and no policy under
a smaller key is in conflict. -/
def FirstConflict (configuration : Configuration) (subject : String) (labels : List String) :
    Prop :=
  ∃ policy, configuration.policies.get? subject = some policy ∧ policy.Overlaps ∧
    (∀ other otherPolicy, configuration.policies.get? other = some otherPolicy →
      otherPolicy.Overlaps → subject ≤ other) ∧
    labels.Pairwise (· < ·) ∧
    ∀ label, label ∈ labels ↔ label ∈ policy.allowOperations.map Operation.canonical ∧
      label ∈ policy.denyOperations.map Operation.canonical

theorem validate_eq_conflict_iff {subject : String} {labels : List String} :
    configuration.validate = .error (.conflictingOperations subject labels) ↔
      configuration.FirstConflict subject labels := by
  have hordered := configuration.policies.ordered
  constructor
  · intro h
    obtain ⟨entry, hmem, hentry, hleast, herror⟩ := exists_of_validate_eq_error h
    obtain ⟨rfl, rfl⟩ := BuildError.conflictingOperations.inj herror
    refine ⟨entry.2, (Entries.get?_eq_some_iff hordered).2 hmem, ClassPolicy.overlaps_iff.2 hentry,
      fun other policy hget hoverlaps => ?_, ClassPolicy.pairwise_overlap _,
      fun _ => ClassPolicy.mem_overlap⟩
    exact hleast (other, policy) ((Entries.get?_eq_some_iff hordered).1 hget)
      (ClassPolicy.overlaps_iff.1 hoverlaps)
  · rintro ⟨policy, hget, hoverlaps, hleast, hascending, hlabels⟩
    have hmem := (Entries.get?_eq_some_iff hordered).1 hget
    have hoverlap := ClassPolicy.overlaps_iff.1 hoverlaps
    cases hvalid : configuration.validate with
    | ok => exact absurd (validate_eq_ok_iff.1 hvalid _ hmem) hoverlap
    | error error =>
      obtain ⟨⟨found, foundPolicy⟩, hfound, hconflict, hsmallest, rfl⟩ :=
        exists_of_validate_eq_error hvalid
      have hle : subject ≤ found := hleast found foundPolicy
        ((Entries.get?_eq_some_iff hordered).2 hfound) (ClassPolicy.overlaps_iff.2 hconflict)
      obtain rfl : subject = found :=
        String.le_antisymm hle (hsmallest (subject, policy) hmem hoverlap)
      obtain rfl : policy = foundPolicy := Entries.value_unique hordered hmem hfound
      have hall : policy.overlap = labels :=
        NameSet.eq_of_mem_iff (ClassPolicy.pairwise_overlap policy) hascending fun label =>
          ClassPolicy.mem_overlap.trans (hlabels label).symm
      rw [hall]

end Configuration

end OntoSchema
