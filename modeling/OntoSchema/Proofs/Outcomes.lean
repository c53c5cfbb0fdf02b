import OntoSchema.Proofs.Selection

/-!
# How a compilation ends

A compilation has three ends. A policy in conflict is found before any class is looked at. After
that only a missing name can stop it, and the first class that is compiled already needs one, so no
range, filler or superclass is ever the one to blame. In all other cases there is a result, with one
schema and one list of operations for every name of a selected class (`compile_outcome`).
-/

namespace OntoSchema

theorem NameMap.nodup_names {α : Type} (map : NameMap α) : map.names.Nodup :=
  Entries.nodup_names map.ordered

theorem NameMap.mem_names_iff {α : Type} {map : NameMap α} {name : String} :
    name ∈ map.names ↔ map.contains name = true :=
  Entries.mem_names_iff name map.entries

/-- No policy of a configuration is in conflict. -/
def Configuration.FreeOfConflicts (configuration : Configuration) : Prop :=
  ∀ subject policy, configuration.policies.get? subject = some policy → ¬ policy.Overlaps

theorem Configuration.freeOfConflicts_iff {configuration : Configuration} :
    configuration.FreeOfConflicts ↔ configuration.validate = .ok () := by
  have hget : ∀ subject policy, configuration.policies.get? subject = some policy ↔
      (subject, policy) ∈ configuration.policies.entries := fun _ _ =>
    Entries.get?_eq_some_iff configuration.policies.ordered
  unfold FreeOfConflicts
  rw [validate_eq_ok_iff]
  simp only [hget, ClassPolicy.overlaps_iff, not_not, Prod.forall]

namespace Ontology

variable {ontology : Ontology} {configuration : Configuration} {inflector : Inflector}

/-- The table of namespaces is missing or empty. -/
def LacksNamespaces (ontology : Ontology) : Prop :=
  ontology.prefixes = none ∨ ontology.prefixes = some ∅

theorem lacksNamespaces_iff : ontology.LacksNamespaces ↔ ontology.prefixes? = none := by
  unfold LacksNamespaces prefixes?
  cases ontology.prefixes with
  | none => exact iff_of_true (.inl rfl) rfl
  | some prefixes =>
    have hempty : prefixes = ∅ ↔ prefixes.isEmpty = true :=
      ⟨fun h => h ▸ rfl, fun h => NameMap.ext (List.isEmpty_iff.1 h)⟩
    simp [hempty]

/-- Without namespaces the first class has no name, and nothing is compiled. -/
theorem compile_of_lacksNamespaces (hvalid : configuration.validate = .ok ())
    (hlacks : ontology.prefixes? = none) {iri : String} {rest : List String}
    (hselected : ontology.selectedClasses configuration = iri :: rest) :
    ontology.compile configuration inflector = .error (.missingPrefixes ontology.iri iri) := by
  have hname : ontology.schemaName iri = .error (.missingPrefixes ontology.iri iri) := by
    unfold schemaName
    rw [hlacks]
  have hcompiled : ontology.compileClass configuration inflector iri =
      .error (.missingPrefixes ontology.iri iri) := by
    unfold compileClass baseSchema
    rw [hname]
    rfl
  have hnext : ∀ compilation, ontology.compileNext configuration inflector compilation iri =
      .error (.missingPrefixes ontology.iri iri) := by
    intro compilation
    unfold compileNext
    rw [hcompiled]
    rfl
  unfold compile
  rw [hvalid, hselected]
  simp only [bind, Except.bind, List.foldlM_cons, hnext]

theorem compile_of_conflict {error : BuildError} (h : configuration.validate = .error error) :
    ontology.compile configuration inflector = .error error := by
  unfold compile
  rw [h]
  rfl

/-- With namespaces, or with nothing to compile, there is a result. -/
theorem exists_compile_of_named (hvalid : configuration.validate = .ok ())
    (hnamed : ontology.prefixes? ≠ none ∨ ontology.selectedClasses configuration = [])
    (inflector : Inflector) :
    ∃ compilation, ontology.compile configuration inflector = .ok compilation := by
  rcases hnamed with hprefixes | hnone
  · obtain ⟨prefixes, hprefixes⟩ := Option.ne_none_iff_exists'.1 hprefixes
    exact exists_compile hprefixes hvalid inflector
  · exact ⟨_, compile_eq_ok_iff.2 ⟨hvalid, by rw [hnone]; rfl⟩⟩

/-- A compilation lists every name of a class once, with a schema and with operations. -/
def ListsOnce (ontology : Ontology) (iris : List String) (compilation : Compilation) : Prop :=
  (compilation.schemas.names.Nodup ∧
      ∀ name, name ∈ compilation.schemas.names ↔ ontology.NamedIn iris name) ∧
    compilation.operations.names.Nodup ∧
      ∀ name, name ∈ compilation.operations.names ↔ ontology.NamedIn iris name

theorem listsOnce_of_compile {compilation : Compilation}
    (h : ontology.compile configuration inflector = .ok compilation) :
    ontology.ListsOnce (ontology.selectedClasses configuration) compilation := by
  obtain ⟨_, hrun⟩ := compile_eq_ok_iff.1 h
  refine ⟨⟨NameMap.nodup_names _, fun name => ?_⟩, NameMap.nodup_names _, fun name => ?_⟩
  · exact NameMap.mem_names_iff.trans (contains_iff_namedIn hrun).1
  · exact NameMap.mem_names_iff.trans (contains_iff_namedIn hrun).2

/-- A compilation fails with a conflict just when a policy is in conflict, and reports the first
one. Otherwise it fails just when a class is selected on an ontology without namespaces, and reports
the first class. Otherwise it has a result. -/
theorem compile_outcome (ontology : Ontology) (configuration : Configuration)
    (inflector : Inflector) :
    ∃ selected, (∀ iris, ontology.Selects configuration iris ↔ iris = selected) ∧
    ((∃ subject labels, ontology.compile configuration inflector =
        .error (.conflictingOperations subject labels)) ↔
      ∃ subject policy, configuration.policies.get? subject = some policy ∧ policy.Overlaps) ∧
    (∀ subject labels, ontology.compile configuration inflector =
        .error (.conflictingOperations subject labels) ↔
      configuration.FirstConflict subject labels) ∧
    (∀ name subject, ontology.compile configuration inflector =
        .error (.missingPrefixes name subject) ↔
      configuration.FreeOfConflicts ∧ ontology.LacksNamespaces ∧ name = ontology.iri ∧
        selected.head? = some subject) ∧
    ((∃ compilation, ontology.compile configuration inflector = .ok compilation ∧
        ontology.ListsOnce selected compilation) ↔
      configuration.FreeOfConflicts ∧ (¬ ontology.LacksNamespaces ∨ selected = [])) := by
  refine ⟨ontology.selectedClasses configuration, fun _ => selects_iff, ?_⟩
  have hconflict : (∃ subject policy, configuration.policies.get? subject = some policy ∧
      policy.Overlaps) ↔ ¬ configuration.FreeOfConflicts := by
    unfold Configuration.FreeOfConflicts
    push Not
    rfl
  rw [hconflict, Configuration.freeOfConflicts_iff, lacksNamespaces_iff]
  simp only [← Configuration.validate_eq_conflict_iff]
  cases hvalid : configuration.validate with
  | error error =>
    obtain ⟨entry, _, _, _, rfl⟩ := Configuration.exists_of_validate_eq_error hvalid
    rw [compile_of_conflict hvalid]
    simp
  | ok =>
    -- The policies are fine, so it depends on the names.
    by_cases hnamed : ontology.prefixes? ≠ none ∨ ontology.selectedClasses configuration = []
    · obtain ⟨compilation, hcompile⟩ := exists_compile_of_named hvalid hnamed inflector
      have hlists := listsOnce_of_compile hcompile
      rw [hcompile]
      rcases hnamed with hprefixes | hnone
      · simp [hprefixes, hlists]
      · rw [hnone] at hlists ⊢
        simp [hlists]
    · push Not at hnamed
      obtain ⟨iri, rest, hselected⟩ := List.exists_cons_of_ne_nil hnamed.2
      rw [compile_of_lacksNamespaces hvalid hnamed.1 hselected, hselected]
      simp [hnamed.1, eq_comm]

/-- A market, with or without namespaces. -/
def market (prefixes : Option (NameMap String)) : Ontology where
  iri := "e"
  prefixes
  classes := [{ iri := "a#Stall" }, { iri := "a#Stand" }, { iri := "b#Stall" }]

/-- The first name stands for no class. -/
def stands : Configuration where
  classes := some ["Shop", "Stand", "Stall"]

/-- Stands are allowed and denied one operation. -/
def disputed : Configuration where
  policies := .ofList [("Stand", { allowOperations := ["post"], denyOperations := ["post"] })]

theorem compile_outcome_market :
    (market none).compile disputed .english = .error (.conflictingOperations "Stand" ["post"]) ∧
      (market none).compile stands .english = .error (.missingPrefixes "e" "a#Stand") ∧
      ∃ compilation, (market (some (.ofList [("", "a#")]))).compile stands .english =
          .ok compilation ∧
        (market (some (.ofList [("", "a#")]))).ListsOnce ["a#Stand", "a#Stall"] compilation ∧
        "Stand" ∈ compilation.schemas.names ∧ "Stall" ∈ compilation.operations.names := by
  have hfree : stands.FreeOfConflicts := Configuration.freeOfConflicts_iff.2 rfl
  refine ⟨?_, ?_, ?_⟩
  · obtain ⟨_, _, _, hconflict, _⟩ := compile_outcome (market none) disputed .english
    exact (hconflict _ _).2 (Configuration.validate_eq_conflict_iff.1 (by decide +kernel))
  · have hlacks : (market none).LacksNamespaces := .inl rfl
    obtain ⟨selected, hselected, _, _, hmissing, _⟩ := compile_outcome (market none) stands .english
    have hselects : ["a#Stand", "a#Stall"] = selected :=
      (hselected _).1 (selects_iff.2 (by decide +kernel))
    exact (hmissing _ _).2 ⟨hfree, hlacks, rfl, by rw [← hselects]; rfl⟩
  · have hnamed : ¬ (market (some (.ofList [("", "a#")]))).LacksNamespaces := fun h =>
      nomatch lacksNamespaces_iff.1 h
    obtain ⟨selected, hselected, _, _, _, hresult⟩ :=
      compile_outcome (market (some (.ofList [("", "a#")]))) stands .english
    have hselects : ["a#Stand", "a#Stall"] = selected :=
      (hselected _).1 (selects_iff.2 (by decide +kernel))
    obtain ⟨compilation, hcompile, hlists⟩ := hresult.2 ⟨hfree, .inl hnamed⟩
    rw [← hselects] at hlists
    refine ⟨compilation, hcompile, hlists, ?_, ?_⟩
    · exact (hlists.1.2 "Stand").2 ⟨"a#Stand", by decide +kernel, by decide +kernel⟩
    · exact (hlists.2.2 "Stall").2 ⟨"a#Stall", by decide +kernel, by decide +kernel⟩

end Ontology

end OntoSchema
