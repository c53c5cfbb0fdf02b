import OntoSchema.Proofs.Entries
import OntoSchema.Proofs.Naming

/-!
# How a property comes about

`Ontology.Formed` is the history of a property of a class under visit: it begins as an entry of the
catalog or with the schema of its declaration, and restrictions refine it. What holds of every
property a visit can produce is proved by induction on that history.
-/

namespace OntoSchema

namespace SchemaNode

theorem exists_eq_with_flags (node : SchemaNode) :
    ∃ readOnly writeOnly exampleValue, node = { node with readOnly, writeOnly, exampleValue } := by
  cases node
  exact ⟨_, _, _, rfl⟩

/-- Annotations set flags and an example and nothing else. -/
theorem annotateAll_eq (roles : AnnotationRoles) (allowExample : Bool)
    (annotations : List Annotation) (node : SchemaNode) :
    ∃ readOnly writeOnly exampleValue, node.annotateAll roles allowExample annotations =
      { node with readOnly, writeOnly, exampleValue } := by
  induction annotations generalizing node with
  | nil => exact node.exists_eq_with_flags
  | cons note rest ih =>
    have hstep : ∃ readOnly writeOnly exampleValue,
        node.annotate roles allowExample note =
          { node with readOnly, writeOnly, exampleValue } := by
      unfold annotate
      split <;> split <;> dsimp only <;> split <;>
        first | exact ⟨_, _, _, rfl⟩ | exact node.exists_eq_with_flags
    obtain ⟨r, w, e, hnote⟩ := hstep
    obtain ⟨r', w', e', hrest⟩ := ih (node.annotate roles allowExample note)
    refine ⟨r', w', e', ?_⟩
    rw [annotateAll, List.foldl_cons, ← annotateAll, hrest, hnote]

theorem annotateFromAxiom_eq (configuration : Configuration) (restriction : ClassExpression)
    (annotations : List Annotation) (node : SchemaNode) :
    ∃ readOnly writeOnly exampleValue,
      node.annotateFromAxiom configuration restriction annotations =
        { node with readOnly, writeOnly, exampleValue } := by
  unfold annotateFromAxiom
  split
  · exact annotateAll_eq _ _ _ node
  · exact node.exists_eq_with_flags

end SchemaNode

namespace Ontology

variable (ontology : Ontology) (configuration : Configuration)

theorem annotateProperty_eq (iri : String) (node : SchemaNode) :
    ∃ description readOnly writeOnly exampleValue,
      ontology.annotateProperty configuration iri node =
        { node with description, readOnly, writeOnly, exampleValue } := by
  unfold annotateProperty
  split
  · dsimp only
    split
    · obtain ⟨r, w, e, h⟩ := SchemaNode.annotateAll_eq _ _ (ontology.annotations iri)
        { node with description := ontology.description? configuration.schema iri }
      exact ⟨_, r, w, e, h⟩
    · obtain ⟨r, w, e, h⟩ := SchemaNode.annotateAll_eq _ _ (ontology.annotations iri) node
      refine ⟨node.description, r, w, e, ?_⟩
      rw [h]
  · cases node
    exact ⟨_, _, _, _, rfl⟩

/-- The schema that a declaration gives to a property of this IRI, annotations included. Only on an
ontology without namespaces there may be none. -/
def freshProperty (iri : String) (declaration : Option (Role × PropertyDeclaration)) : SchemaNode :=
  ontology.annotateProperty configuration iri
    ((ontology.propertySchema declaration).toOption.getD default)

/-- The declared properties of a role. -/
def declarations : Role → List PropertyDeclaration
  | .object => ontology.objectProperties
  | .data => ontology.dataProperties

/-- A declaration for an IRI, if there is one, stands in the ontology. -/
def Declares (iri : String) (declaration : Option (Role × PropertyDeclaration)) : Prop :=
  ∀ role declared, declaration = some (role, declared) →
    declared ∈ ontology.declarations role ∧ declared.iri = iri

/-- The schema that the filler of a restriction gives to the items of its property. -/
def GivesItems (restriction : ClassExpression) (items : Option SchemaNode) : Prop :=
  match restriction.filler? with
  | none => items = none
  | some filler => filler.fillerSchema? ontology = .ok items

/-- A part of a subclass axiom that restricts a property, with the annotations of the axiom. -/
def Restricts (part : ClassExpression) (annotations : List Annotation) : Prop :=
  ∃ statement ∈ ontology.subclassAxioms,
    part ∈ statement.sup.conjuncts ∧ statement.annotations = annotations

/-- The history of a property under its name. -/
inductive Formed : String → SchemaNode → Prop
  | catalog {name : String} {node : SchemaNode} : (name, node) ∈ Catalog.entries → Formed name node
  | fresh {iri : String} {declaration : Option (Role × PropertyDeclaration)} {node : SchemaNode} :
      ontology.Declares iri declaration → ontology.propertySchema declaration = .ok node →
        Formed (Iri.localName iri) (ontology.annotateProperty configuration iri node)
  | refined {name : String} {node : SchemaNode} {part : ClassExpression}
      {annotations : List Annotation} {items : Option SchemaNode} :
      Formed name node → part.restrictedProperty?.map Iri.localName = some name →
        ontology.Restricts part annotations → ontology.GivesItems part items →
        Formed name ((node.restrict part items).annotateFromAxiom configuration part annotations)

variable {ontology}

variable {configuration} in
theorem freshProperty_eq {iri : String} {declaration : Option (Role × PropertyDeclaration)}
    {node : SchemaNode} (h : ontology.propertySchema declaration = .ok node) :
    ontology.freshProperty configuration iri declaration =
      ontology.annotateProperty configuration iri node := by
  rw [freshProperty, h]
  rfl

theorem declares_findProperty? (iri : String) :
    ontology.Declares iri (ontology.findProperty? iri) := by
  intro role declared h
  unfold findProperty? at h
  split at h
  · rename_i other hfind
    cases h
    exact ⟨List.mem_of_find?_eq_some hfind, by simpa using List.find?_some hfind⟩
  · obtain ⟨other, hfind, he⟩ := Option.map_eq_some_iff.1 h
    cases he
    exact ⟨List.mem_of_find?_eq_some hfind, by simpa using List.find?_some hfind⟩

theorem mem_propertiesOf_iff {role : Role} {iri : String} {declaration : PropertyDeclaration} :
    declaration ∈ ontology.propertiesOf role iri ↔
      declaration ∈ ontology.declarations role ∧ iri ∈ declaration.domains := by
  cases role <;> simp [propertiesOf, declarations]

end Ontology

end OntoSchema
