import Mathlib.Logic.Relation
import OntoSchema.Proofs.Policies
import OntoSchema.Proofs.Spelling

/-!
# The operations that a policy leaves

A policy either is in conflict, or it leaves the operations that it allows, or those that are
enabled for all classes if it allows none, without the ones that it denies. Labels count by what
they denote, and unknown ones by their text: `effectiveOperations_iff` says this for all lists of
texts, and that neither the order of labels nor their spelling matters.
-/

namespace OntoSchema

namespace Operation

/-- A text denotes an operation if it is the label or the key of it, but for blanks around the text
and the case of its letters. -/
def Denotes (text : String) (operation : Operation) : Prop :=
  Text.lowercase (Text.trim text) = operation.label ∨
    Text.lowercase (Text.trim text) = operation.key

/-- One text is another one with blanks around it or with ASCII letters in another case, or the two
are the key and the label of one operation. -/
inductive Respells : String → String → Prop
  | padded {before after : String} (text : String)
      (hbefore : ∀ c ∈ before.toList, Text.isBlank c = true)
      (hafter : ∀ c ∈ after.toList, Text.isBlank c = true) :
      Respells text (before ++ text ++ after)
  | recased {first second : String}
      (h : first.toList.map Char.toLower = second.toList.map Char.toLower) :
      Respells first second
  | swapped (operation : Operation) : Respells operation.key operation.label

/-- Respelling leads from one text to the other. -/
abbrev SameSpelling : String → String → Prop := Relation.EqvGen Respells

/-- Two lists have the same labels, in any order and any number, up to their spelling. -/
def SameLabels (first second : List String) : Prop :=
  (∀ label ∈ first, ∃ other ∈ second, SameSpelling label other) ∧
    ∀ other ∈ second, ∃ label ∈ first, SameSpelling label other

variable {text first second : String} {operation : Operation} {labels others : List String}

theorem ofLabel?_eq_some_iff_denotes :
    ofLabel? text = some operation ↔ Denotes text operation := ofLabel?_eq_some_iff

theorem ofLabel?_eq_none_iff : ofLabel? text = none ↔ ∀ operation, ¬ Denotes text operation := by
  simp only [← ofLabel?_eq_some_iff_denotes, Option.eq_none_iff_forall_ne_some, ne_eq]

theorem mem_denoted_iff :
    operation ∈ denoted labels ↔ ∃ label ∈ labels, Denotes label operation := by
  simp only [mem_denoted, ofLabel?_eq_some_iff_denotes]

theorem canonical_congr (h : normalize first = normalize second) :
    canonical first = canonical second := by
  have hsame : ofLabel? first = ofLabel? second := by
    unfold ofLabel?
    rw [h]
  unfold canonical
  rw [hsame, h]

theorem Respells.canonical_eq (h : Respells first second) : canonical first = canonical second := by
  cases h with
  | padded text hbefore hafter =>
    refine canonical_congr ?_
    unfold normalize
    rw [Text.trim_padded hbefore hafter]
  | recased h => exact canonical_congr (Text.lowercase_trim_of_recased h)
  | swapped operation => cases operation <;> decide +kernel

/-- Spellings of one label compare as equal. -/
theorem SameSpelling.canonical_eq (h : SameSpelling first second) :
    canonical first = canonical second := by
  induction h with
  | rel _ _ h => exact h.canonical_eq
  | refl _ => rfl
  | symm _ _ _ ih => exact ih.symm
  | trans _ _ _ _ _ ih₁ ih₂ => exact ih₁.trans ih₂

theorem ofLabel?_congr (h : canonical first = canonical second) :
    ofLabel? first = ofLabel? second := by
  rcases canonical_eq_iff.1 h with ⟨operation, hfirst, hsecond⟩ | ⟨hfirst, hsecond, _⟩
  · rw [hfirst, hsecond]
  · rw [hfirst, hsecond]

namespace SameLabels

theorem nil_iff (h : SameLabels labels others) : labels = [] ↔ others = [] := by
  constructor
  · rintro rfl
    refine List.eq_nil_iff_forall_not_mem.2 fun other hm => ?_
    obtain ⟨label, hlabel, _⟩ := h.2 other hm
    exact List.not_mem_nil hlabel
  · rintro rfl
    refine List.eq_nil_iff_forall_not_mem.2 fun label hm => ?_
    obtain ⟨other, hother, _⟩ := h.1 label hm
    exact List.not_mem_nil hother

theorem mem_map_canonical_iff (h : SameLabels labels others) (label : String) :
    label ∈ labels.map canonical ↔ label ∈ others.map canonical := by
  constructor
  · intro hm
    obtain ⟨one, hone, rfl⟩ := List.mem_map.1 hm
    obtain ⟨other, hother, hsame⟩ := h.1 one hone
    rw [hsame.canonical_eq]
    exact List.mem_map_of_mem hother
  · intro hm
    obtain ⟨other, hother, rfl⟩ := List.mem_map.1 hm
    obtain ⟨one, hone, hsame⟩ := h.2 other hother
    rw [← hsame.canonical_eq]
    exact List.mem_map_of_mem hone

theorem denoted_eq (h : SameLabels labels others) : denoted labels = denoted others := by
  refine List.filter_congr fun operation _ => ?_
  rw [Bool.eq_iff_iff, List.any_eq_true, List.any_eq_true]
  constructor
  · rintro ⟨label, hm, hlabel⟩
    obtain ⟨other, hother, hsame⟩ := h.1 label hm
    rw [ofLabel?_congr hsame.canonical_eq] at hlabel
    exact ⟨other, hother, hlabel⟩
  · rintro ⟨other, hm, hother⟩
    obtain ⟨label, hlabel, hsame⟩ := h.2 other hm
    rw [← ofLabel?_congr hsame.canonical_eq] at hother
    exact ⟨label, hlabel, hother⟩

end SameLabels

end Operation

namespace ClassPolicy

variable {policy other : ClassPolicy}

/-- Some allowed and some denied label denote one operation, or none and have the same text, but for
blanks around it and the case of its letters. -/
def Conflicts (policy : ClassPolicy) : Prop :=
  ∃ allowed ∈ policy.allowOperations, ∃ denied ∈ policy.denyOperations,
    (∃ operation, Operation.Denotes allowed operation ∧ Operation.Denotes denied operation) ∨
      ((∀ operation, ¬ Operation.Denotes allowed operation) ∧
        (∀ operation, ¬ Operation.Denotes denied operation) ∧
        Text.lowercase (Text.trim allowed) = Text.lowercase (Text.trim denied))

theorem overlap_ne_nil_iff_conflicts : policy.overlap ≠ [] ↔ policy.Conflicts := by
  rw [← overlaps_iff]
  unfold Overlaps Conflicts
  simp only [Operation.canonical_eq_iff, Operation.ofLabel?_eq_some_iff_denotes,
    Operation.ofLabel?_eq_none_iff]
  exact Iff.rfl

theorem overlap_eq_of_sameLabels
    (hallow : Operation.SameLabels policy.allowOperations other.allowOperations)
    (hdeny : Operation.SameLabels policy.denyOperations other.denyOperations) :
    policy.overlap = other.overlap := by
  refine NameSet.eq_of_mem_iff (pairwise_overlap policy) (pairwise_overlap other) fun label => ?_
  rw [mem_overlap, mem_overlap, hallow.mem_map_canonical_iff, hdeny.mem_map_canonical_iff]

end ClassPolicy

section

variable (subject : String) (paths : PathSettings) {policy other : ClassPolicy}
  {operation : Operation}

/-- The operations that a policy starts from. -/
def ClassPolicy.offered (policy : ClassPolicy) : List Operation :=
  if policy.allowOperations.isEmpty then paths.enabledOperations else policy.allowed

theorem ClassPolicy.mem_offered_iff : operation ∈ policy.offered paths ↔
    (policy.allowOperations = [] ∧ (paths.settings operation).enabled = true) ∨
      ∃ label ∈ policy.allowOperations, Operation.Denotes label operation := by
  unfold ClassPolicy.offered
  split
  · rename_i hempty
    rw [List.isEmpty_iff] at hempty
    rw [hempty, PathSettings.enabledOperations, List.mem_filter]
    simp [Operation.mem_all]
  · rename_i hsome
    rw [List.isEmpty_iff] at hsome
    rw [ClassPolicy.allowed, Operation.mem_denoted_iff]
    exact (or_iff_right fun h => hsome h.1).symm

theorem effectiveOperations_of_overlap (h : policy.overlap ≠ []) :
    effectiveOperations subject paths (some policy) =
      .error (.conflictingOperations subject policy.overlap) := by
  simp only [effectiveOperations]
  rw [ClassPolicy.validate_of_overlap h]
  rfl

theorem effectiveOperations_of_no_overlap (h : policy.overlap = []) :
    effectiveOperations subject paths (some policy) =
      .ok ((policy.offered paths).filter fun operation => !policy.denied.contains operation) := by
  simp only [effectiveOperations]
  rw [ClassPolicy.validate_eq_ok_iff.2 h]
  rfl

theorem effectiveOperations_of_sameLabels
    (hallow : Operation.SameLabels policy.allowOperations other.allowOperations)
    (hdeny : Operation.SameLabels policy.denyOperations other.denyOperations) :
    effectiveOperations subject paths (some policy) =
      effectiveOperations subject paths (some other) := by
  have hoverlap := ClassPolicy.overlap_eq_of_sameLabels hallow hdeny
  have hdenied : policy.denied = other.denied := hdeny.denoted_eq
  have hoffered : policy.offered paths = other.offered paths := by
    have hempty : policy.allowOperations.isEmpty = other.allowOperations.isEmpty := by
      rw [Bool.eq_iff_iff, List.isEmpty_iff, List.isEmpty_iff, hallow.nil_iff]
    have hallowed : policy.allowed = other.allowed := hallow.denoted_eq
    rw [ClassPolicy.offered, ClassPolicy.offered, hempty, hallowed]
  by_cases hconflict : policy.overlap = []
  · rw [effectiveOperations_of_no_overlap subject paths hconflict,
      effectiveOperations_of_no_overlap subject paths (hoverlap ▸ hconflict), hdenied, hoffered]
  · rw [effectiveOperations_of_overlap subject paths hconflict,
      effectiveOperations_of_overlap subject paths (hoverlap ▸ hconflict), hoverlap]

/-- A policy fails just when it is in conflict. Otherwise it leaves the operations that no denied
label denotes and that an allowed label denotes or, if there are no allowed labels, that are enabled
for all classes. Other spellings of the labels, in any order and number, come to the same. -/
theorem effectiveOperations_iff (policy : ClassPolicy) :
    ((∃ error, effectiveOperations subject paths (some policy) = .error error) ↔
      policy.Conflicts) ∧
    (¬ policy.Conflicts → ∃ operations,
      effectiveOperations subject paths (some policy) = .ok operations ∧
      operations.Sublist Operation.all ∧
      ∀ operation, operation ∈ operations ↔
        (∀ label ∈ policy.denyOperations, ¬ Operation.Denotes label operation) ∧
          ((policy.allowOperations = [] ∧ (paths.settings operation).enabled = true) ∨
            ∃ label ∈ policy.allowOperations, Operation.Denotes label operation)) ∧
    ∀ other : ClassPolicy,
      Operation.SameLabels policy.allowOperations other.allowOperations →
      Operation.SameLabels policy.denyOperations other.denyOperations →
        effectiveOperations subject paths (some policy) =
          effectiveOperations subject paths (some other) := by
  refine ⟨?_, fun hpeace => ?_, fun other => effectiveOperations_of_sameLabels subject paths⟩
  · rw [← ClassPolicy.overlap_ne_nil_iff_conflicts]
    constructor
    · rintro ⟨error, herror⟩ hnone
      rw [effectiveOperations_of_no_overlap subject paths hnone] at herror
      cases herror
    · exact fun hconflict => ⟨_, effectiveOperations_of_overlap subject paths hconflict⟩
  · rw [← ClassPolicy.overlap_ne_nil_iff_conflicts, ne_eq, not_not] at hpeace
    have hoffered : (policy.offered paths).Sublist Operation.all := by
      unfold ClassPolicy.offered
      split <;> exact List.filter_sublist
    refine ⟨_, effectiveOperations_of_no_overlap subject paths hpeace,
      List.filter_sublist.trans hoffered, fun operation => ?_⟩
    have hdenied : (!policy.denied.contains operation) = true ↔
        ∀ label ∈ policy.denyOperations, ¬ Operation.Denotes label operation := by
      rw [Bool.not_eq_true', Bool.eq_false_iff, ne_eq, List.contains_iff_mem, ClassPolicy.denied,
        Operation.mem_denoted_iff]
      push Not
      exact Iff.rfl
    rw [List.mem_filter, hdenied, ClassPolicy.mem_offered_iff, and_comm]

end

/-- Lists and searches only; one of the denied labels denotes nothing. -/
def ClassPolicy.catalogue : ClassPolicy where
  allowOperations := ["get_all", " SEARCH_BY_POST\t"]
  denyOperations := ["Delete_By_Key", "fly"]

/-- The same labels in another order and spelling, one of them twice. -/
def ClassPolicy.respelledCatalogue : ClassPolicy where
  allowOperations := ["post_search", "GET_ALL", "get_all"]
  denyOperations := ["fly", "delete_by_key"]

namespace Operation

theorem sameLabels_catalogue_allow :
    SameLabels ClassPolicy.catalogue.allowOperations
      ClassPolicy.respelledCatalogue.allowOperations := by
  have hall : SameSpelling "get_all" "GET_ALL" := .rel _ _ (.recased (by decide +kernel))
  have hpadded : SameSpelling "SEARCH_BY_POST" " SEARCH_BY_POST\t" := by
    have hblanks : " SEARCH_BY_POST\t" = " " ++ "SEARCH_BY_POST" ++ "\t" := by decide +kernel
    rw [hblanks]
    exact .rel _ _ (.padded _ (List.all_eq_true.1 (by decide)) (List.all_eq_true.1 (by decide)))
  have hrecased : SameSpelling "SEARCH_BY_POST" "search_by_post" :=
    .rel _ _ (.recased (by decide +kernel))
  have hsearch : SameSpelling " SEARCH_BY_POST\t" "post_search" :=
    (hpadded.symm.trans _ _ _ hrecased).trans _ _ _ (.rel _ _ (.swapped .searchByPost))
  unfold SameLabels ClassPolicy.catalogue ClassPolicy.respelledCatalogue
  simp only [List.forall_mem_cons, List.not_mem_nil, false_implies, implies_true, and_true,
    List.exists_mem_cons_iff]
  exact ⟨⟨.inr (.inl hall), .inl hsearch⟩, .inr (.inl hsearch), .inl hall, .inl (.refl _)⟩

theorem sameLabels_catalogue_deny :
    SameLabels ClassPolicy.catalogue.denyOperations
      ClassPolicy.respelledCatalogue.denyOperations := by
  have hdelete : SameSpelling "Delete_By_Key" "delete_by_key" :=
    .rel _ _ (.recased (by decide +kernel))
  unfold SameLabels ClassPolicy.catalogue ClassPolicy.respelledCatalogue
  simp only [List.forall_mem_cons, List.not_mem_nil, false_implies, implies_true, and_true,
    List.exists_mem_cons_iff]
  exact ⟨⟨.inr (.inl hdelete), .inl (.refl _)⟩, .inr (.inl (.refl _)), .inl hdelete⟩

end Operation

theorem not_conflicts_catalogue : ¬ ClassPolicy.catalogue.Conflicts := by
  rw [← ClassPolicy.overlap_ne_nil_iff_conflicts]
  decide +kernel

/-- The catalogue lists and searches, although searching is not enabled for all classes, and so does
its other spelling. -/
theorem effectiveOperations_catalogue :
    (∃ operations, effectiveOperations "e#Book" {} (some .catalogue) = .ok operations ∧
      operations.Sublist Operation.all ∧
      ∀ operation, operation ∈ operations ↔
        (∀ label ∈ ClassPolicy.catalogue.denyOperations, ¬ Operation.Denotes label operation) ∧
          ((ClassPolicy.catalogue.allowOperations = [] ∧
            (({} : PathSettings).settings operation).enabled = true) ∨
            ∃ label ∈ ClassPolicy.catalogue.allowOperations, Operation.Denotes label operation)) ∧
      effectiveOperations "e#Book" {} (some .catalogue) = .ok [.getAll, .searchByPost] ∧
      effectiveOperations "e#Book" {} (some .catalogue) =
        effectiveOperations "e#Book" {} (some .respelledCatalogue) :=
  have ⟨_, hpeace, hsame⟩ := effectiveOperations_iff "e#Book" {} .catalogue
  ⟨hpeace not_conflicts_catalogue, by decide +kernel,
    hsame .respelledCatalogue Operation.sameLabels_catalogue_allow
      Operation.sameLabels_catalogue_deny⟩

end OntoSchema
