import Mathlib.Data.List.Induction
import OntoSchema.Proofs.PropertyHistories

/-!
# Where examples come from

An annotation gives its text as the example of a property, and the text is typed at once, by the
schema that a single value of the property has at that moment. An `ExampleNote` keeps both. Every
note replaces the one before it, so a visit leaves the value of the last one
(`Ontology.VisitsTo.exampleValue_eq`), whatever becomes of the schema after it.
-/

namespace OntoSchema

/-- An annotation text that gives an example, with the type that a single value has then. -/
structure ExampleNote where
  type : Option SchemaType
  literal : String
deriving DecidableEq

namespace ExampleNote

def text (note : ExampleNote) : String := Text.trim note.literal

/-- The value that the text has for the type. -/
def read? (note : ExampleNote) : Option Json := note.type.bind (·.parse? note.text)

/-- The example, which is a string if the text does not read otherwise. -/
def value (note : ExampleNote) : Json := note.read?.getD (.string note.text)

end ExampleNote

namespace SchemaNode

/-- The example that annotations give to a node. -/
def noted? (configuration : Configuration) (allowExample : Bool) (annotations : List Annotation)
    (node : SchemaNode) : Option ExampleNote :=
  configuration.annotations.bind fun roles =>
    ((annotations.filter fun note =>
      allowExample && Iri.answersTo note.property roles.exampleName).getLast?).map fun note =>
        ⟨node.valueSchema.type, note.value⟩

end SchemaNode

namespace Ontology

variable (ontology : Ontology) (configuration : Configuration)

/-- The example of a fresh property. -/
def freshNote? (iri : String) (declaration : Option (Role × PropertyDeclaration)) :
    Option ExampleNote :=
  (ontology.findProperty? iri).bind fun (role, _) =>
    ((ontology.propertySchema declaration).toOption.getD default).noted? configuration
      (role == .data) (ontology.annotations iri)

end Ontology

/-- The example that a member gives to the property of its name, present or not. A restriction comes
with a fresh property if there is none. -/
def Member.note? (ontology : Ontology) (configuration : Configuration) :
    Member → Option SchemaNode → Option ExampleNote
  | declared role declaration, current =>
    if current.all (Catalog.isUntouched (Iri.localName declaration.iri)) then
      ontology.freshNote? configuration declaration.iri (some (role, declaration))
    else none
  | restricted part annotations, current =>
    part.restrictedProperty?.bind fun iri =>
      let property :=
        current.getD (ontology.freshProperty configuration iri (ontology.findProperty? iri))
      ((property.restrict part (ontology.itemsOf part)).noted? configuration part.kind.isData
        annotations).or
        (if current.isNone then
          ontology.freshNote? configuration iri (ontology.findProperty? iri)
        else none)

/-- The last example that members of one name give to its property. -/
def Ontology.lastNote? (ontology : Ontology) (configuration : Configuration) :
    List Member → Option SchemaNode → Option ExampleNote
  | [], _ => none
  | member :: rest, current =>
    (ontology.lastNote? configuration rest (member.evolve ontology configuration current)).or
      (member.note? ontology configuration current)

section Annotating

variable {ontology : Ontology} {configuration : Configuration} {prefixes : NameMap String}
  {node : SchemaNode}

theorem SchemaNode.typedExample_eq (literal : String) :
    node.typedExample literal = ExampleNote.value ⟨node.valueSchema.type, literal⟩ := by
  unfold typedExample ExampleNote.value ExampleNote.read?
  cases node.valueSchema.type <;> rfl

/-- The type of a single value depends on the type and the items only. -/
theorem SchemaNode.type_valueSchema_congr {other : SchemaNode} (htype : other.type = node.type)
    (hitems : other.items = node.items) : other.valueSchema.type = node.valueSchema.type := by
  unfold valueSchema isArray
  rw [hitems, htype]
  cases node.items with
  | none => exact htype
  | some items =>
    dsimp only
    split
    · rfl
    · exact htype

theorem SchemaNode.exampleValue_annotate (roles : AnnotationRoles) (allowExample : Bool)
    (note : Annotation) (node : SchemaNode) :
    (node.annotate roles allowExample note).exampleValue =
      if allowExample && Iri.answersTo note.property roles.exampleName then
        some (ExampleNote.value ⟨node.valueSchema.type, note.value⟩)
      else node.exampleValue := by
  unfold annotate
  dsimp only
  -- The flags come first, so the text is typed by the node with its flags.
  generalize hflagged : (if Iri.answersTo note.property roles.writeOnly then _ else _) = flagged
  have hsame : flagged.valueSchema.type = node.valueSchema.type ∧
      flagged.exampleValue = node.exampleValue := by
    subst hflagged
    split <;> split <;> exact ⟨type_valueSchema_congr rfl rfl, rfl⟩
  rw [← hsame.1, ← hsame.2, ← typedExample_eq]
  split <;> rfl

/-- Of several annotations the last one counts. -/
theorem SchemaNode.exampleValue_annotateAll (roles : AnnotationRoles) (allowExample : Bool)
    (annotations : List Annotation) (node : SchemaNode) :
    (node.annotateAll roles allowExample annotations).exampleValue =
      (((annotations.filter fun note =>
        allowExample && Iri.answersTo note.property roles.exampleName).getLast?).map fun note =>
          ExampleNote.value ⟨node.valueSchema.type, note.value⟩).or node.exampleValue := by
  induction annotations using List.reverseRecOn with
  | nil => rfl
  | append_singleton rest note ih =>
    have hstep : node.annotateAll roles allowExample (rest ++ [note]) =
        (node.annotateAll roles allowExample rest).annotate roles allowExample note := by
      unfold annotateAll
      rw [List.foldl_append]
      rfl
    obtain ⟨r, w, e, hrest⟩ := annotateAll_eq roles allowExample rest node
    have htype : (node.annotateAll roles allowExample rest).valueSchema.type =
        node.valueSchema.type := hrest ▸ type_valueSchema_congr rfl rfl
    rw [hstep, exampleValue_annotate, htype, ih, List.filter_append, List.getLast?_append]
    by_cases hnote : (allowExample && Iri.answersTo note.property roles.exampleName) = true
    · rw [if_pos hnote]
      simp [hnote]
    · rw [if_neg hnote]
      simp [hnote]

theorem SchemaNode.exampleValue_annotateFromAxiom (part : ClassExpression)
    (annotations : List Annotation) :
    (node.annotateFromAxiom configuration part annotations).exampleValue =
      ((node.noted? configuration part.kind.isData annotations).map ExampleNote.value).or
        node.exampleValue := by
  unfold annotateFromAxiom noted?
  cases configuration.annotations with
  | none => rfl
  | some roles =>
    dsimp only [Option.bind_some]
    rw [exampleValue_annotateAll, Option.map_map]
    rfl

theorem Ontology.exampleValue_annotateProperty (iri : String) (hnone : node.exampleValue = none) :
    (ontology.annotateProperty configuration iri node).exampleValue =
      ((ontology.findProperty? iri).bind fun (role, _) =>
        node.noted? configuration (role == .data) (ontology.annotations iri)).map
          ExampleNote.value := by
  unfold annotateProperty SchemaNode.noted?
  cases configuration.annotations with
  | none => cases ontology.findProperty? iri <;> exact hnone
  | some roles =>
    cases ontology.findProperty? iri with
    | none => exact hnone
    | some found =>
      dsimp only [Option.bind_some]
      generalize hdescribed : (if node.description.isNone then _ else _) = described
      have hsame : described.valueSchema.type = node.valueSchema.type ∧
          described.exampleValue = none := by
        subst hdescribed
        split <;> exact ⟨SchemaNode.type_valueSchema_congr rfl rfl, hnone⟩
      rw [SchemaNode.exampleValue_annotateAll, Option.map_map, hsame.1, hsame.2, Option.or_none]
      rfl

theorem Ontology.exampleValue_freshProperty (hprefixes : ontology.prefixes? = some prefixes)
    (iri : String) (declaration : Option (Role × PropertyDeclaration)) :
    (ontology.freshProperty configuration iri declaration).exampleValue =
      (ontology.freshNote? configuration iri declaration).map ExampleNote.value := by
  obtain ⟨node, hnode⟩ := exists_propertySchema hprefixes declaration
  obtain ⟨variants, rfl, _⟩ := exists_variants_of_propertySchema hprefixes hnode
  have hnone : (arrayOfVariants variants).exampleValue = none := by
    cases variants with
    | nil => rfl
    | cons first rest => cases rest <;> rfl
  rw [freshProperty_eq hnode, exampleValue_annotateProperty iri hnone, freshNote?, hnode]
  rfl

/-- A restriction gives no example of its own. -/
theorem SchemaNode.exampleValue_restrict (part : ClassExpression) (items : Option SchemaNode) :
    (node.restrict part items).exampleValue = node.exampleValue := by
  have hwith : (node.withItems items).exampleValue = node.exampleValue := by
    cases items <;> rfl
  rw [← hwith]
  cases part with
  | cardinality role bound property count filler => cases bound <;> rfl
  | _ => rfl

theorem exampleValue_of_isUntouched {name : String} (h : Catalog.isUntouched name node = true) :
    node.exampleValue = none := by
  unfold Catalog.isUntouched at h
  have hentry := Entries.mem_of_get? (beq_iff_eq.1 h)
  rcases Ontology.cases_of_mem_catalog hentry with ⟨datatype, text, _, rfl⟩ | rfl <;> rfl

/-- A member sets the example that it gives, and keeps the example if it gives none. -/
theorem Member.exampleValue_evolve (hprefixes : ontology.prefixes? = some prefixes)
    (member : Member) (current : Option SchemaNode) :
    (member.evolve ontology configuration current).bind (·.exampleValue) =
      ((member.note? ontology configuration current).map ExampleNote.value).or
        (current.bind (·.exampleValue)) := by
  cases member with
  | declared role declaration =>
    cases current with
    | none =>
      refine (Ontology.exampleValue_freshProperty hprefixes _ _).trans ?_
      rw [Option.bind_none, Option.or_none]
      rfl
    | some existing =>
      rw [evolve_declared, note?, Option.all_some]
      split
      · rename_i huntouched
        rw [Option.bind_some, Option.bind_some, exampleValue_of_isUntouched huntouched,
          Option.or_none]
        exact Ontology.exampleValue_freshProperty hprefixes _ _
      · rfl
  | restricted part annotations =>
    cases hproperty : part.restrictedProperty? with
    | none =>
      rw [evolve_unrestricted hproperty, note?, hproperty]
      rfl
    | some iri =>
      rw [evolve_restricted hproperty, Option.bind_some,
        SchemaNode.exampleValue_annotateFromAxiom, SchemaNode.exampleValue_restrict, note?,
        hproperty, Option.bind_some, Option.map_or, Option.or_assoc]
      cases current with
      | none =>
        rw [Option.getD_none, Ontology.exampleValue_freshProperty hprefixes]
        simp
      | some existing => rfl

/-- After some members the last example that one of them gives counts. -/
theorem Ontology.exampleValue_develop (hprefixes : ontology.prefixes? = some prefixes)
    (members : List Member) (current : Option SchemaNode) :
    (ontology.develop configuration members current).bind (·.exampleValue) =
      ((ontology.lastNote? configuration members current).map ExampleNote.value).or
        (current.bind (·.exampleValue)) := by
  induction members generalizing current with
  | nil => rfl
  | cons member rest ih =>
    rw [develop_cons, ih, Member.exampleValue_evolve hprefixes, lastNote?, Option.map_or,
      Option.or_assoc]

end Annotating

namespace Ontology

variable {ontology : Ontology} {configuration : Configuration} {prefixes : NameMap String}
  {iri name : String} {visited : ClassBuild}

/-- The last example that the visit of a class meets for the property of a name. -/
def exampleNote? (ontology : Ontology) (configuration : Configuration) (iri name : String) :
    Option ExampleNote :=
  ontology.lastNote? configuration (ontology.history configuration.schema iri name)
    (if configuration.schema.defaultProperties then Entries.get? name Catalog.entries else none)

/-- A visit leaves the example that the last annotation gives. -/
theorem VisitsTo.exampleValue_eq (hprefixes : ontology.prefixes? = some prefixes)
    (hclass : ontology.enumeration? iri = none) (h : ontology.VisitsTo configuration iri visited)
    (name : String) :
    (visited.schema.property? name).bind (·.exampleValue) =
      (ontology.exampleNote? configuration iri name).map ExampleNote.value := by
  have hstart : (if configuration.schema.defaultProperties then
      Entries.get? name Catalog.entries else none).bind (·.exampleValue) = none := by
    split
    · cases hentry : Entries.get? name Catalog.entries with
      | none => rfl
      | some entry => exact exampleValue_of_isUntouched (beq_iff_eq.2 hentry)
    · rfl
  rw [h.property?_eq hprefixes hclass, exampleValue_develop hprefixes, hstart, Option.or_none]
  rfl

end Ontology

end OntoSchema
