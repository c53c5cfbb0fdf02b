import Mathlib.Data.List.Perm.Subperm
import Mathlib.Data.List.TakeWhile
import Mathlib.Logic.Relation
import OntoSchema.Ontology.Hierarchy

/-!
# The superclasses of a class are its proper ancestors

A search takes classes that wait, in any order, and lets the direct superclasses of those it finds
wait in turn. `Covers` is what every step of it keeps: a class that was found, and the start, has
all its direct superclasses among the classes that were found or still wait. `reach` is a search:
every class found is a class that some axiom implies, so its fuel lasts until nothing waits, and
what it ends with is closed. `mem_superclasses_iff` says what that is: the classes that a chain of
direct superclasses leads to, other than the start.
-/

namespace OntoSchema

theorem NameSet.length_place {name : String} {names : List String} (h : name ∉ names) :
    (NameSet.place name names).length = names.length + 1 := by
  induction names with
  | nil => rfl
  | cons other rest ih =>
    have hne : name ≠ other := fun he => h (he ▸ List.mem_cons_self)
    have hrest : name ∉ rest := fun hm => h (List.mem_cons_of_mem _ hm)
    unfold NameSet.place
    split
    · rfl
    · simp only [List.length_cons, ih hrest]

theorem NameSet.length_insert {set : NameSet} {name : String} (h : name ∉ set) :
    (set.insert name).toList.length = set.toList.length + 1 :=
  NameSet.length_place h

namespace Ontology

variable (ontology : Ontology)

/-- A class has another one as a direct superclass. -/
def IsBelow (iri other : String) : Prop := other ∈ ontology.directSuperclasses iri

/-- All classes that axioms imply, as often as they do. -/
def impliedByAny : List String :=
  ontology.subclassAxioms.flatMap (·.sup.conjunctClasses) ++
    ontology.equivalences.flatMap (equivalenceClasses ·.expression)

theorem length_impliedByAny : ontology.impliedByAny.length = ontology.hierarchySize :=
  List.length_append

/-- The classes that wait, and those found so far. -/
structure Search where
  waiting : List String
  found : NameSet

/-- A search from a class begins with its direct superclasses. -/
def searchFrom (start : String) : Search := ⟨(ontology.directSuperclasses start).toList, ∅⟩

/-- A search takes one of the classes that wait. It passes over the start and over what it has
found; any other class it finds, and lets the direct superclasses of that class wait. -/
inductive SearchStep (start : String) : Search → Search → Prop
  | pass {before after : List String} {iri : String} {found : NameSet} :
      iri = start ∨ iri ∈ found →
        SearchStep start ⟨before ++ iri :: after, found⟩ ⟨before ++ after, found⟩
  | find {before after : List String} {iri : String} {found : NameSet} :
      iri ≠ start → iri ∉ found →
        SearchStep start ⟨before ++ iri :: after, found⟩
          ⟨before ++ after ++ (ontology.directSuperclasses iri).toList, found.insert iri⟩

variable {ontology}

theorem mem_impliedByAny {iri other : String} (h : ontology.IsBelow iri other) :
    other ∈ ontology.impliedByAny := by
  have himplied := (mem_directSuperclasses.1 h).1
  rcases List.mem_append.1 himplied with hsub | hequiv
  · obtain ⟨statement, hs, hmem⟩ := List.mem_flatMap.1 hsub
    have hs' := (List.mem_filter.1 hs).1
    exact List.mem_append.2 (.inl (List.mem_flatMap.2 ⟨statement, hs', hmem⟩))
  · obtain ⟨statement, hs, hmem⟩ := List.mem_flatMap.1 hequiv
    have hs' := (List.mem_filter.1 hs).1
    exact List.mem_append.2 (.inr (List.mem_flatMap.2 ⟨statement, hs', hmem⟩))

/-- What the search from a class keeps: its findings lie above the start, and nothing directly above
them is forgotten. -/
structure Covers (ontology : Ontology) (start : String) (queue : List String) (found : NameSet) :
    Prop where
  found_above : ∀ iri ∈ found, iri ≠ start ∧ Relation.TransGen ontology.IsBelow start iri
  queue_above : ∀ iri ∈ queue, Relation.TransGen ontology.IsBelow start iri
  covered : ∀ iri other, iri = start ∨ iri ∈ found → ontology.IsBelow iri other →
    other = start ∨ other ∈ found ∨ other ∈ queue

theorem covers_start (start : String) :
    Covers ontology start (ontology.directSuperclasses start).toList ∅ where
  found_above iri h := absurd h (NameSet.not_mem_empty iri)
  queue_above _ h := Relation.TransGen.single h
  covered iri other h hbelow := by
    rcases h with rfl | h
    · exact .inr (.inr hbelow)
    · exact absurd h (NameSet.not_mem_empty iri)

/-- Wherever a class waits, taking it keeps what the search covers. -/
theorem Covers.searchStep {start : String} {search next : Search}
    (h : Covers ontology start search.waiting search.found)
    (hstep : ontology.SearchStep start search next) :
    Covers ontology start next.waiting next.found := by
  cases hstep with
  | @pass before after iri found hknown =>
    refine ⟨h.found_above, fun other hm => h.queue_above other ?_, fun sub other hs hbelow => ?_⟩
    · exact List.mem_append.2 ((List.mem_append.1 hm).imp id (List.mem_cons_of_mem _))
    · rcases h.covered sub other hs hbelow with he | hf | hq
      · exact .inl he
      · exact .inr (.inl hf)
      · rcases List.mem_append.1 hq with hq | hq
        · exact .inr (.inr (List.mem_append.2 (.inl hq)))
        · rcases List.mem_cons.1 hq with rfl | hq
          · exact hknown.imp id .inl
          · exact .inr (.inr (List.mem_append.2 (.inr hq)))
  | @find before after iri found hstart hnew =>
    have habove : Relation.TransGen ontology.IsBelow start iri :=
      h.queue_above iri (List.mem_append.2 (.inr List.mem_cons_self))
    refine ⟨fun other hm => ?_, fun other hm => ?_, fun sub other hs hbelow => ?_⟩
    · rcases NameSet.mem_insert.1 hm with rfl | hm
      · exact ⟨hstart, habove⟩
      · exact h.found_above other hm
    · rcases List.mem_append.1 hm with hm | hm
      · refine h.queue_above other (List.mem_append.2 ?_)
        exact (List.mem_append.1 hm).imp id (List.mem_cons_of_mem _)
      · exact habove.tail hm
    · by_cases hsi : sub = iri
      · subst hsi
        exact .inr (.inr (List.mem_append.2 (.inr hbelow)))
      · have hold : sub = start ∨ sub ∈ found :=
          hs.imp id fun hm => (NameSet.mem_insert.1 hm).resolve_left hsi
        rcases h.covered sub other hold hbelow with he | hf | hq
        · exact .inl he
        · exact .inr (.inl (NameSet.mem_insert.2 (.inr hf)))
        · rcases List.mem_append.1 hq with hq | hq
          · exact .inr (.inr (List.mem_append.2 (.inl (List.mem_append.2 (.inl hq)))))
          · rcases List.mem_cons.1 hq with rfl | hq
            · exact .inr (.inl (NameSet.mem_insert.2 (.inl rfl)))
            · exact .inr (.inr (List.mem_append.2 (.inl (List.mem_append.2 (.inr hq)))))

/-- Whatever a search does keeps what it covers. -/
theorem Covers.searchRun {start : String} {search next : Search}
    (h : Covers ontology start search.waiting search.found)
    (hrun : Relation.ReflTransGen (ontology.SearchStep start) search next) :
    Covers ontology start next.waiting next.found := by
  induction hrun with
  | refl => exact h
  | tail _ hstep ih => exact ih.searchStep hstep

/-- A search that has found as many classes as axioms imply has found all of them. -/
theorem mem_of_length_le {start : String} {found : NameSet}
    (habove : ∀ iri ∈ found, iri ≠ start ∧ Relation.TransGen ontology.IsBelow start iri)
    (hlen : ontology.impliedByAny.length ≤ found.toList.length) {iri other : String}
    (h : ontology.IsBelow iri other) : other ∈ found := by
  have hsub : found.toList ⊆ ontology.impliedByAny := by
    intro member hm
    obtain ⟨_, hpath⟩ := habove member hm
    obtain ⟨below, _, hb⟩ := Relation.TransGen.tail'_iff.1 hpath
    exact mem_impliedByAny hb
  have hperm := ((NameSet.nodup found).subperm hsub).perm_of_length_le hlen
  exact hperm.mem_iff.2 (mem_impliedByAny h)

variable (ontology) in
/-- A search passes over classes that it knows, one after the other. -/
theorem search_pass {start : String} {found : NameSet} {known : List String}
    (h : ∀ iri ∈ known, iri = start ∨ iri ∈ found) (rest : List String) :
    Relation.ReflTransGen (ontology.SearchStep start) ⟨known ++ rest, found⟩ ⟨rest, found⟩ := by
  induction known with
  | nil => exact .refl
  | cons iri more ih =>
    have hstep : ontology.SearchStep start ⟨iri :: (more ++ rest), found⟩ ⟨more ++ rest, found⟩ :=
      @SearchStep.pass ontology start [] (more ++ rest) iri found (h iri List.mem_cons_self)
    exact .head hstep (ih fun other hm => h other (List.mem_cons_of_mem _ hm))

/-- `reach` takes the steps of a search until nothing waits, if it has the fuel to find every class
that an axiom implies. -/
theorem search_reach {start : String} {fuel : Nat} {queue : List String} {found : NameSet}
    (h : Covers ontology start queue found)
    (hfuel : ontology.impliedByAny.length ≤ found.toList.length + fuel) :
    Relation.ReflTransGen (ontology.SearchStep start) ⟨queue, found⟩
      ⟨[], ontology.reach start fuel queue found⟩ := by
  induction fuel generalizing queue found with
  | zero =>
    -- Everything that waits lies above the start, and all of that is found.
    have hknown : ∀ iri ∈ queue, iri = start ∨ iri ∈ found := by
      intro iri hm
      obtain ⟨_, _, hbelow⟩ := Relation.TransGen.tail'_iff.1 (h.queue_above iri hm)
      exact .inr (mem_of_length_le h.found_above hfuel hbelow)
    have hpass := search_pass ontology hknown []
    rwa [List.append_nil] at hpass
  | succ fuel ih =>
    have hknown : ∀ iri ∈ queue.takeWhile fun iri => iri == start || found.contains iri,
        iri = start ∨ iri ∈ found := by
      intro iri hm
      have hiri := List.mem_takeWhile_imp hm
      rwa [Bool.or_eq_true, beq_iff_eq, NameSet.contains_iff] at hiri
    have hpass := search_pass ontology hknown
      (queue.dropWhile fun iri => iri == start || found.contains iri)
    rw [List.takeWhile_append_dropWhile] at hpass
    unfold reach
    split
    · rename_i hdrop
      rwa [hdrop] at hpass
    · rename_i iri rest hdrop
      have hunknown := List.head?_dropWhile_not
        (fun iri => iri == start || found.contains iri) queue
      rw [hdrop] at hpass hunknown
      have hiri : (iri == start || found.contains iri) = false := by simpa using hunknown
      rw [Bool.or_eq_false_iff, beq_eq_false_iff_ne, NameSet.contains,
        decide_eq_false_iff_not] at hiri
      have hstep : ontology.SearchStep start ⟨iri :: rest, found⟩
          ⟨rest ++ (ontology.directSuperclasses iri).toList, found.insert iri⟩ :=
        @SearchStep.find ontology start [] rest iri found hiri.1 hiri.2
      have hnext := (h.searchRun hpass).searchStep hstep
      refine hpass.trans (.head hstep (ih hnext ?_))
      rw [NameSet.length_insert hiri.2]
      omega

variable (ontology) in
/-- The superclasses are what a search from the class ends with. -/
theorem search_superclasses (start : String) :
    Relation.ReflTransGen (ontology.SearchStep start) (ontology.searchFrom start)
      ⟨[], ontology.superclasses start⟩ := by
  apply search_reach (covers_start start)
  rw [length_impliedByAny]
  exact Nat.le_add_left _ _

theorem covers_superclasses (iri : String) :
    Covers ontology iri [] (ontology.superclasses iri) :=
  (covers_start iri).searchRun (search_superclasses ontology iri)

/-- A search that has ended has found what chains of direct superclasses lead to, without the
start. -/
theorem Covers.mem_iff {start other : String} {found : NameSet}
    (h : Covers ontology start [] found) :
    other ∈ found ↔ other ≠ start ∧ Relation.TransGen ontology.IsBelow start other := by
  constructor
  · exact h.found_above other
  · rintro ⟨hne, hpath⟩
    have hreached : other = start ∨ other ∈ found := by
      clear hne
      induction hpath with
      | single hbelow =>
        exact (h.covered start _ (.inl rfl) hbelow).imp id fun h => by simpa using h
      | tail _ hbelow ih =>
        exact (h.covered _ _ ih hbelow).imp id fun h => by simpa using h
    exact hreached.resolve_left hne

/-- The superclasses of a class are the classes that chains of direct superclasses lead to, without
the class itself. -/
theorem mem_superclasses_iff {iri other : String} :
    other ∈ ontology.superclasses iri ↔
      other ≠ iri ∧ Relation.TransGen ontology.IsBelow iri other :=
  (covers_superclasses iri).mem_iff

/-- A superclass is a class that some axiom implies, and is not the class of everything. -/
theorem exists_isBelow_of_mem_superclasses {iri other : String}
    (h : other ∈ ontology.superclasses iri) : ∃ below, ontology.IsBelow below other := by
  obtain ⟨_, hpath⟩ := mem_superclasses_iff.1 h
  obtain ⟨below, _, hbelow⟩ := Relation.TransGen.tail'_iff.1 hpath
  exact ⟨below, hbelow⟩

theorem mem_superclasses_trans {iri other third : String}
    (h₁ : other ∈ ontology.superclasses iri) (h₂ : third ∈ ontology.superclasses other) :
    third = iri ∨ third ∈ ontology.superclasses iri := by
  by_cases he : third = iri
  · exact .inl he
  · exact .inr (mem_superclasses_iff.2
      ⟨he, (mem_superclasses_iff.1 h₁).2.trans (mem_superclasses_iff.1 h₂).2⟩)

end Ontology

end OntoSchema
