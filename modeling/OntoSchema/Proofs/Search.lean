import Mathlib.Data.List.Chain
import OntoSchema.Proofs.Expression
import OntoSchema.Proofs.Hierarchy

/-!
# Every search for superclasses ends

`SearchStep` lets a search take any of the classes that wait, as queues and stacks do. A class waits
once for each implication that led to it, and the implications of a class are followed once, so no
search takes more steps than axioms have implications. Every search ends with the same set, and
`superclasses_reachable` says which one in terms of the axioms.
-/

namespace OntoSchema

namespace Ontology

open ClassExpression (Within OpensIntersections)

variable (ontology : Ontology)

/-- The axioms about a class imply another one: nested intersections lead to it from a superclass
expression, or from an operand of an intersection that equals the class. -/
def Implies (iri other : String) : Prop :=
  (∃ statement ∈ ontology.subclassAxioms, statement.sub = iri ∧
      Within OpensIntersections (.named other) statement.sup) ∨
    ∃ statement ∈ ontology.equivalences, statement.subject = iri ∧
      ∃ operands, statement.expression = .combination .object .intersection operands ∧
        ∃ operand ∈ operands, Within OpensIntersections (.named other) operand

variable {ontology}

theorem mem_equivalenceClasses_iff {expression : ClassExpression} {other : String} :
    other ∈ equivalenceClasses expression ↔
      ∃ operands, expression = .combination .object .intersection operands ∧
        ∃ operand ∈ operands, Within OpensIntersections (.named other) operand := by
  unfold equivalenceClasses
  split
  · rename_i operands
    simp only [ClassExpression.conjunctClassesOfAll_eq_flatMap, List.mem_flatMap,
      ClassExpression.mem_conjunctClasses_iff, ClassExpression.combination.injEq, true_and,
      exists_eq_left']
  · rename_i hother
    refine ⟨fun h => absurd h List.not_mem_nil, ?_⟩
    rintro ⟨operands, rfl, _⟩
    exact absurd rfl (hother operands)

theorem mem_impliedClasses_iff {iri other : String} :
    other ∈ ontology.impliedClasses iri ↔ ontology.Implies iri other := by
  unfold impliedClasses Implies
  simp only [List.mem_append, List.mem_flatMap, subclassAxiomsOf, equivalencesOf, List.mem_filter,
    beq_iff_eq, ClassExpression.mem_conjunctClasses_iff, mem_equivalenceClasses_iff, and_assoc]

variable (ontology) in
theorem exists_searchStep (start : String) {search : Search} (h : search.waiting ≠ []) :
    ∃ next, ontology.SearchStep start search next := by
  obtain ⟨waiting, found⟩ := search
  cases waiting with
  | nil => exact absurd rfl h
  | cons iri rest =>
    by_cases hknown : iri = start ∨ iri ∈ found
    · exact ⟨_, @SearchStep.pass ontology start [] rest iri found hknown⟩
    · exact ⟨_, @SearchStep.find ontology start [] rest iri found (fun he => hknown (.inl he))
        fun hm => hknown (.inr hm)⟩

/-- A search that cannot go on has found all superclasses. -/
theorem found_of_stuck {start : String} {search : Search}
    (h : Relation.ReflTransGen (ontology.SearchStep start) (ontology.searchFrom start) search)
    (hstuck : ∀ next, ¬ ontology.SearchStep start search next) :
    search.found = ontology.superclasses start := by
  have hcovers : Covers ontology start search.waiting search.found :=
    (covers_start start).searchRun h
  have hnone : search.waiting = [] := by
    by_contra hwaiting
    obtain ⟨next, hstep⟩ := exists_searchStep ontology start hwaiting
    exact hstuck next hstep
  rw [hnone] at hcovers
  exact NameSet.ext_mem fun iri => hcovers.mem_iff.trans mem_superclasses_iff.symm

variable (ontology) in
/-- The implications of all axioms, each with the class that its axiom is about. -/
def implications : List (String × String) :=
  (ontology.subclassAxioms.flatMap fun statement =>
      statement.sup.conjunctClasses.map fun other => (statement.sub, other)) ++
    ontology.equivalences.flatMap fun statement =>
      (equivalenceClasses statement.expression).map fun other => (statement.subject, other)

theorem length_implications : ontology.implications.length = ontology.hierarchySize := by
  simp [implications, hierarchySize, List.length_flatMap]

theorem countP_implications_of {α : Type} (subject : α → String) (classes : α → List String)
    (iri : String) (items : List α) :
    (items.flatMap fun item => (classes item).map fun other => (subject item, other)).countP
        (·.1 == iri) =
      ((items.filter (subject · == iri)).flatMap classes).length := by
  induction items with
  | nil => rfl
  | cons item rest ih =>
    rw [List.flatMap_cons, List.countP_append, ih, List.countP_map]
    by_cases hsubject : subject item = iri
    · simp [hsubject, Function.comp_def]
    · simp [hsubject, Function.comp_def]

theorem countP_implications (iri : String) :
    ontology.implications.countP (·.1 == iri) = (ontology.impliedClasses iri).length := by
  rw [implications, List.countP_append, countP_implications_of, countP_implications_of,
    impliedClasses, List.length_append]
  rfl

variable (ontology) in
/-- A class has no more direct superclasses than implications. -/
theorem length_directSuperclasses_le (iri : String) :
    (ontology.directSuperclasses iri).toList.length ≤
      ontology.implications.countP (·.1 == iri) := by
  rw [countP_implications]
  have hsub : (ontology.directSuperclasses iri).toList ⊆ ontology.impliedClasses iri :=
    fun _ hm => (mem_directSuperclasses.1 hm).1
  exact ((NameSet.nodup _).subperm hsub).length_le

variable (ontology) in
/-- Counts the implications that a search has not followed yet. -/
def unfollowed (start : String) (found : NameSet) : Nat :=
  ontology.implications.countP fun implication =>
    decide (implication.1 ≠ start ∧ implication.1 ∉ found)

variable (ontology) in
/-- Finding a class follows its implications. -/
theorem unfollowed_insert {start iri : String} {found : NameSet} (hstart : iri ≠ start)
    (hnew : iri ∉ found) :
    ontology.unfollowed start (found.insert iri) + ontology.implications.countP (·.1 == iri) =
      ontology.unfollowed start found := by
  unfold unfollowed
  induction ontology.implications with
  | nil => rfl
  | cons implication rest ih =>
    simp only [List.countP_cons, decide_eq_true_eq, beq_iff_eq]
    by_cases hsubject : implication.1 = iri
    · have hmember : iri ∈ found.insert iri := NameSet.mem_insert.2 (.inl rfl)
      rw [hsubject, if_neg fun h => h.2 hmember, if_pos rfl, if_pos ⟨hstart, hnew⟩]
      omega
    · have hmember : implication.1 ∈ found.insert iri ↔ implication.1 ∈ found :=
        NameSet.mem_insert.trans (or_iff_right hsubject)
      simp only [hmember, if_neg hsubject]
      omega

variable (ontology) in
/-- Bounds the steps that a search can still take. -/
def stepsLeft (start : String) (search : Search) : Nat :=
  search.waiting.length + ontology.unfollowed start search.found

theorem stepsLeft_lt {start : String} {search next : Search}
    (h : ontology.SearchStep start search next) :
    ontology.stepsLeft start next < ontology.stepsLeft start search := by
  unfold stepsLeft
  cases h with
  | pass =>
    simp only [List.length_append, List.length_cons]
    omega
  | @find before after iri found hstart hnew =>
    have hfollowed := unfollowed_insert ontology hstart hnew
    have hdirect := length_directSuperclasses_le ontology iri
    simp only [List.length_append, List.length_cons]
    omega

theorem stepsLeft_searchFrom_le (start : String) :
    ontology.stepsLeft start (ontology.searchFrom start) ≤ ontology.hierarchySize := by
  have hdirect := length_directSuperclasses_le ontology start
  have hrest : ontology.unfollowed start ∅ =
      ontology.implications.countP fun implication => ¬ (implication.1 == start) = true := by
    refine List.countP_congr fun implication _ => ?_
    simp
  have hsplit : ontology.hierarchySize =
      ontology.implications.countP (·.1 == start) + ontology.unfollowed start ∅ := by
    rw [hrest, ← length_implications]
    exact List.length_eq_countP_add_countP fun implication : String × String =>
      implication.1 == start
  unfold stepsLeft searchFrom
  dsimp only
  omega

/-- A search takes no more steps than it has left. -/
theorem length_le_stepsLeft {start : String} {search : Search} {steps : List Search}
    (h : (search :: steps).IsChain (ontology.SearchStep start)) :
    steps.length ≤ ontology.stepsLeft start search := by
  induction steps generalizing search with
  | nil => exact Nat.zero_le _
  | cons next rest ih =>
    rw [List.isChain_cons_cons] at h
    have hrest := ih h.2
    have hstep := stepsLeft_lt h.1
    rw [List.length_cons]
    omega

/-- Every search for the superclasses of a class ends, and in the same place: a search takes at most
one step for each implication of an axiom, and when it cannot go on it has found what `superclasses`
finds. That is what paths of direct superclasses lead to, other than the class itself and the class
of everything. -/
theorem superclasses_reachable (ontology : Ontology) (start : String) :
    Relation.ReflTransGen (ontology.SearchStep start) (ontology.searchFrom start)
        ⟨[], ontology.superclasses start⟩ ∧
      (∀ steps, (ontology.searchFrom start :: steps).IsChain (ontology.SearchStep start) →
        steps.length ≤ ontology.hierarchySize) ∧
      (∀ search, Relation.ReflTransGen (ontology.SearchStep start) (ontology.searchFrom start)
          search → (∀ next, ¬ ontology.SearchStep start search next) →
        search.found = ontology.superclasses start) ∧
      (∀ iri other, other ∈ ontology.directSuperclasses iri ↔
        other ≠ iri ∧ other ≠ owlThing ∧ ontology.Implies iri other) ∧
      ∀ other, other ∈ ontology.superclasses start ↔
        other ≠ start ∧ other ≠ owlThing ∧
          Relation.TransGen (fun sub sup => sup ∈ ontology.directSuperclasses sub) start other := by
  refine ⟨search_superclasses ontology start, fun steps hsteps => ?_, fun search => found_of_stuck,
    fun iri other => ?_, fun other => ?_⟩
  · exact (length_le_stepsLeft hsteps).trans (stepsLeft_searchFrom_le start)
  · rw [mem_directSuperclasses, mem_impliedClasses_iff]
    exact ⟨fun h => ⟨h.2.1, h.2.2, h.1⟩, fun h => ⟨h.2.2, h.1, h.2.1⟩⟩
  · rw [mem_superclasses_iff]
    refine and_congr_right fun _ => ⟨fun hpath => ⟨?_, hpath⟩, fun h => h.2⟩
    obtain ⟨_, _, hlast⟩ := Relation.TransGen.tail'_iff.1 hpath
    exact (mem_directSuperclasses.1 hlast).2.2

end Ontology

end OntoSchema
