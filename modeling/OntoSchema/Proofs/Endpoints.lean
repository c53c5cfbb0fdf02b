import Mathlib.Data.Sym.Sym2
import OntoSchema.Operation.Path
import OntoSchema.Proofs.EffectiveOperations

/-!
# Endpoints of a class

An operation stands at the path of its collection or one segment below it, so two operations with
one verb meet just when they have the same segment or both have none. `endpoints_collide_iff` says
when that happens: a bulk suffix may be the suffix of the search, or the text that stands for the
key. No other two operations of a class meet, whatever the settings say.
-/

namespace OntoSchema

namespace PathSettings

variable (paths : PathSettings) (policy : Option ClassPolicy) (operation : Operation)

/-- The setting of a class, else that of an operation, else the common one. -/
def firstGiven (ofClass ofOperation : Option String) (common : String) : String :=
  (ofClass.or ofOperation).getD common

theorem keyFor_eq : paths.keyFor policy operation =
    firstGiven (policy.bind ClassPolicy.keyName) (paths.settings operation).keyName
      paths.keyName := by
  unfold keyFor firstGiven
  cases policy.bind ClassPolicy.keyName <;> cases (paths.settings operation).keyName <;> rfl

theorem bulkSuffixFor_eq : paths.bulkSuffixFor policy operation =
    firstGiven (policy.bind ClassPolicy.pathSuffix) (paths.settings operation).pathSuffix
      paths.bulkPathSuffix := by
  unfold bulkSuffixFor firstGiven
  cases policy.bind ClassPolicy.pathSuffix <;> cases (paths.settings operation).pathSuffix <;> rfl

/-- The bulk creation of a class has the suffix of its search, up to slashes at the ends. -/
def BulkMeetsSearch : Prop :=
  trimSlashes (firstGiven (policy.bind ClassPolicy.pathSuffix) paths.postBulk.pathSuffix
      paths.bulkPathSuffix) =
    trimSlashes (paths.searchByPost.pathSuffix.getD paths.searchPathSuffix)

/-- The bulk replacement of a class has the segment of its key as suffix, up to slashes at the ends
of the suffix. -/
def BulkMeetsKey : Prop :=
  trimSlashes (firstGiven (policy.bind ClassPolicy.pathSuffix) paths.putBulk.pathSuffix
      paths.bulkPathSuffix) =
    "\x7b" ++ firstGiven (policy.bind ClassPolicy.keyName) paths.putByKey.keyName paths.keyName ++
      "\x7d"

/-- The segment of an operation below its collection. -/
def segment? : Option String :=
  match operation with
  | .getAll | .postSingle => none
  | .deleteByKey | .getByKey | .putByKey => some (keySegment (paths.keyFor policy operation))
  | .postBulk | .putBulk => some (trimSlashes (paths.bulkSuffixFor policy operation))
  | .searchByPost => some (trimSlashes (paths.searchSuffixFor operation))

/-- A path below another one, if there is a segment. -/
def below (base : String) : Option String → String
  | none => base
  | some segment => base ++ "/" ++ segment

theorem path_entryFor (base : String) :
    (paths.entryFor policy operation base).path = below base (paths.segment? policy operation) := by
  cases operation <;> rfl

theorem operation_entryFor (base : String) :
    (paths.entryFor policy operation base).operation = operation := by
  cases operation <;> rfl

theorem below_some_ne (base segment : String) : below base (some segment) ≠ base := by
  intro h
  have hlength := congrArg String.length h
  rw [below, String.length_append, String.length_append] at hlength
  have hslash : "/".length = 1 := rfl
  omega

theorem below_inj {base : String} {first second : Option String} :
    below base first = below base second ↔ first = second := by
  refine ⟨fun h => ?_, fun h => congrArg (below base) h⟩
  cases first with
  | none =>
    cases second with
    | none => rfl
    | some segment => exact absurd h.symm (below_some_ne base segment)
  | some one =>
    cases second with
    | none => exact absurd h (below_some_ne base one)
    | some other => exact congrArg some ((String.append_right_inj _).1 h)

/-- Operations with one verb, in either order. -/
theorem pair_cases {first second : Operation} (hne : first ≠ second)
    (hverb : first.verb = second.verb) :
    s(first, second) ∈ [s(.getAll, .getByKey), s(.postBulk, .postSingle),
      s(.postSingle, .searchByPost), s(.postBulk, .searchByPost), s(.putBulk, .putByKey)] := by
  have hall : ∀ one ∈ Operation.all, ∀ other ∈ Operation.all, one ≠ other →
      one.verb = other.verb →
      s(one, other) ∈ [s(.getAll, .getByKey), s(.postBulk, .postSingle),
        s(.postSingle, .searchByPost), s(.postBulk, .searchByPost), s(.putBulk, .putByKey)] := by
    decide
  exact hall first first.mem_all second second.mem_all hne hverb

variable {paths policy} in
/-- Two operations have one verb and one segment just where a bulk suffix is what stands for the
search or for the key. -/
theorem meet_iff {first second : Operation} (hne : first ≠ second) :
    first.verb = second.verb ∧
        paths.segment? policy first = paths.segment? policy second ↔
      (s(first, second) = s(.postBulk, .searchByPost) ∧ paths.BulkMeetsSearch policy) ∨
        (s(first, second) = s(.putBulk, .putByKey) ∧ paths.BulkMeetsKey policy) := by
  -- What two operations share is said of the unordered pair, so that no case comes twice.
  have hshare : ∀ {α : Type} (f : Operation → α),
      f first = f second ↔ (s(first, second).map f).IsDiag := fun f => by
    rw [Sym2.map_mk, Sym2.mk_isDiag_iff]
  have hsearch : paths.segment? policy .postBulk = paths.segment? policy .searchByPost ↔
      paths.BulkMeetsSearch policy := by
    unfold segment? BulkMeetsSearch
    rw [Option.some_inj, bulkSuffixFor_eq]
    exact Iff.rfl
  have hkey : paths.segment? policy .putBulk = paths.segment? policy .putByKey ↔
      paths.BulkMeetsKey policy := by
    unfold segment? BulkMeetsKey
    rw [Option.some_inj, bulkSuffixFor_eq, keyFor_eq]
    exact Iff.rfl
  constructor
  · rintro ⟨hverb, hsegment⟩
    have hpair := pair_cases hne hverb
    rw [hshare] at hsegment
    simp only [List.mem_cons, List.not_mem_nil, or_false] at hpair
    rcases hpair with hpair | hpair | hpair | hpair | hpair <;>
      rw [hpair, Sym2.map_mk, Sym2.mk_isDiag_iff] at hsegment
    · cases hsegment
    · cases hsegment
    · cases hsegment
    · exact .inl ⟨hpair, hsearch.1 hsegment⟩
    · exact .inr ⟨hpair, hkey.1 hsegment⟩
  · rw [hshare, hshare]
    rintro (⟨hpair, hmeets⟩ | ⟨hpair, hmeets⟩) <;>
      rw [hpair, Sym2.map_mk, Sym2.map_mk, Sym2.mk_isDiag_iff, Sym2.mk_isDiag_iff]
    · exact ⟨rfl, hsearch.2 hmeets⟩
    · exact ⟨rfl, hkey.2 hmeets⟩

end PathSettings

theorem sublist_all_of_effectiveOperations {subject : String} {paths : PathSettings}
    {policy : Option ClassPolicy} {operations : List Operation}
    (h : effectiveOperations subject paths policy = .ok operations) :
    operations.Sublist Operation.all := by
  cases policy with
  | none =>
    obtain rfl := Except.ok.inj h
    exact List.filter_sublist
  | some policy =>
    by_cases hconflict : policy.overlap = []
    · rw [effectiveOperations_of_no_overlap subject paths hconflict] at h
      obtain rfl := Except.ok.inj h
      refine List.filter_sublist.trans ?_
      unfold ClassPolicy.offered
      split <;> exact List.filter_sublist
    · rw [effectiveOperations_of_overlap subject paths hconflict] at h
      cases h

namespace Configuration

variable {configuration : Configuration} {inflector : Inflector} {iri : String}
  {resolved : ClassOperations}

/-- The paths of a class are the entries of its operations below one base. -/
theorem exists_base_of_operationsOf (h : configuration.operationsOf inflector iri = .ok resolved) :
    effectiveOperations iri configuration.paths (configuration.policyFor? iri) =
        .ok resolved.operations ∧
      ∃ base, resolved.paths = resolved.operations.map fun operation =>
        configuration.paths.entryFor (configuration.policyFor? iri) operation base := by
  unfold operationsOf at h
  obtain ⟨operations, heffective, h⟩ := bind_eq_ok_iff.1 h
  obtain rfl := Except.ok.inj h
  exact ⟨heffective, _, rfl⟩

/-- A class has one path for each of its operations. Two operations answer to one verb at one path
only if the class creates in bulk where it searches, or replaces in bulk under what stands for its
key. -/
theorem endpoints_collide_iff (h : configuration.operationsOf inflector iri = .ok resolved) :
    effectiveOperations iri configuration.paths (configuration.policyFor? iri) =
        .ok resolved.operations ∧
      resolved.operations.Nodup ∧
      resolved.paths.map PathEntry.operation = resolved.operations ∧
      ∀ first ∈ resolved.paths, ∀ second ∈ resolved.paths, first.operation ≠ second.operation →
        (first.method = second.method ∧ first.path = second.path ↔
          (s(first.operation, second.operation) = s(.postBulk, .searchByPost) ∧
            configuration.paths.BulkMeetsSearch (configuration.policyFor? iri)) ∨
          (s(first.operation, second.operation) = s(.putBulk, .putByKey) ∧
            configuration.paths.BulkMeetsKey (configuration.policyFor? iri))) := by
  obtain ⟨heffective, base, hpaths⟩ := exists_base_of_operationsOf h
  have hall : Operation.all.Nodup := by decide
  refine ⟨heffective, (sublist_all_of_effectiveOperations heffective).nodup hall, ?_, ?_⟩
  · rw [hpaths, List.map_map]
    exact (List.map_congr_left fun operation _ =>
      PathSettings.operation_entryFor _ _ operation base).trans (List.map_id' _)
  · rw [hpaths]
    simp only [List.forall_mem_map, PathSettings.operation_entryFor, PathSettings.path_entryFor,
      PathEntry.method, PathSettings.below_inj]
    exact fun first _ second _ hne => PathSettings.meet_iff hne

/-- Books are searched, and created and replaced in bulk, where a single one has its key. -/
def crowded : Configuration where
  paths := { searchByPost := { pathSuffix := some "{id}/" } }
  policies := .ofList [("Book", {
    allowOperations := ["post_bulk", "put_bulk", "put_by_key", "post_search", "get_all"]
    pathSuffix := some "/{id}" })]

/-- Both meetings happen in one class. -/
theorem endpoints_collide_crowded :
    ∃ resolved, crowded.operationsOf .english "e#Book" = .ok resolved ∧
      resolved.paths.map PathEntry.operation =
        [.getAll, .postBulk, .putBulk, .putByKey, .searchByPost] ∧
      ∀ first ∈ resolved.paths, ∀ second ∈ resolved.paths, first.operation ≠ second.operation →
        (first.method = second.method ∧ first.path = second.path ↔
          s(first.operation, second.operation) = s(.postBulk, .searchByPost) ∨
            s(first.operation, second.operation) = s(.putBulk, .putByKey)) := by
  have hresolved : (crowded.operationsOf .english "e#Book").map ClassOperations.operations =
      .ok [.getAll, .postBulk, .putBulk, .putByKey, .searchByPost] := by decide +kernel
  have hsearch : crowded.paths.BulkMeetsSearch (crowded.policyFor? "e#Book") := by
    unfold PathSettings.BulkMeetsSearch
    decide +kernel
  have hkey : crowded.paths.BulkMeetsKey (crowded.policyFor? "e#Book") := by
    unfold PathSettings.BulkMeetsKey
    decide +kernel
  cases hoperations : crowded.operationsOf .english "e#Book" with
  | error error => rw [hoperations] at hresolved; cases hresolved
  | ok resolved =>
    rw [hoperations] at hresolved
    obtain ⟨_, _, hpaths, hcollide⟩ := endpoints_collide_iff hoperations
    refine ⟨resolved, rfl, hpaths.trans (Except.ok.inj hresolved), ?_⟩
    intro first hfirst second hsecond hne
    rw [hcollide first hfirst second hsecond hne, and_iff_left hsearch, and_iff_left hkey]

end Configuration

end OntoSchema
