import OntoSchema.NameSet
import OntoSchema.Ontology

/-!
# The class hierarchy

The direct superclasses of a class are the named classes that its axioms imply, without the class
itself and the class of everything. `superclasses` follows them in all steps; it visits every class
once, so it ends on hierarchies with cycles too.
-/

namespace OntoSchema.Ontology

variable (ontology : Ontology)

/-- The named classes implied by an equivalence; only intersections imply any. -/
def equivalenceClasses : ClassExpression → List String
  | .combination .object .intersection operands => ClassExpression.conjunctClassesOfAll operands
  | _ => []

/-- The named classes that the axioms about a class imply, itself included. -/
def impliedClasses (iri : String) : List String :=
  (ontology.subclassAxiomsOf iri).flatMap (·.sup.conjunctClasses) ++
    (ontology.equivalencesOf iri).flatMap (equivalenceClasses ·.expression)

def directSuperclasses (iri : String) : NameSet :=
  ((NameSet.ofList (ontology.impliedClasses iri)).erase iri).erase owlThing

/-- Bounds the number of classes that have a subclass. -/
def hierarchySize : Nat :=
  (ontology.subclassAxioms.flatMap (·.sup.conjunctClasses)).length +
    (ontology.equivalences.flatMap (equivalenceClasses ·.expression)).length

/-- Visits the classes that wait in a queue, and their direct superclasses in turn. Every class
found counts against `fuel`, and the class `start` is passed over. -/
def reach (start : String) : (fuel : Nat) → (queue : List String) → (found : NameSet) → NameSet
  | 0, _, found => found
  | fuel + 1, queue, found =>
    match queue.dropWhile fun iri => iri == start || found.contains iri with
    | [] => found
    | iri :: rest =>
      reach start fuel (rest ++ (ontology.directSuperclasses iri).toList) (found.insert iri)

/-- All superclasses of a class, without the class itself and the class of everything. -/
def superclasses (iri : String) : NameSet :=
  ontology.reach iri ontology.hierarchySize (ontology.directSuperclasses iri).toList ∅

theorem mem_directSuperclasses {ontology : Ontology} {iri other : String} :
    other ∈ ontology.directSuperclasses iri ↔
      other ∈ ontology.impliedClasses iri ∧ other ≠ iri ∧ other ≠ owlThing := by
  simp [directSuperclasses, and_assoc]

end OntoSchema.Ontology
