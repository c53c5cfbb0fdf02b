import OntoSchema.ClassBuild
import OntoSchema.Ontology.Hierarchy
import OntoSchema.SchemaNode.Annotated
import OntoSchema.SchemaNode.Catalog
import OntoSchema.SchemaNode.Filler

/-!
# Members of a class

The members of a class are its declared properties and the parts of its subclass axioms. A build
takes in the members of its subject and, if asked to, of all superclasses; a class that equals an
enumeration becomes the list of its values instead.
-/

namespace OntoSchema

/-- A declared property of a class, or a part of one of its subclass axioms with the annotations of
that axiom. -/
inductive Member where
  | declared (role : Role) (declaration : PropertyDeclaration)
  | restricted (part : ClassExpression) (annotations : List Annotation)

/-- The members of a class: data properties, object properties, parts of axioms. -/
def Ontology.members (ontology : Ontology) (iri : String) : List Member :=
  (ontology.propertiesOf .data iri).map (.declared .data) ++
    (ontology.propertiesOf .object iri).map (.declared .object) ++
    (ontology.subclassAxiomsOf iri).flatMap fun statement =>
      statement.sup.conjuncts.map fun part => .restricted part statement.annotations

/-- The values of an enumeration. -/
def ClassExpression.enumeration? : ClassExpression → Option (List Json)
  | oneOfIndividuals individuals => some (individualValues individuals)
  | oneOfLiterals values => some values
  | _ => none

/-- The values of a class that equals an enumeration; the first such axiom counts. -/
def Ontology.enumeration? (ontology : Ontology) (iri : String) : Option (List Json) :=
  (ontology.equivalencesOf iri).findSome? fun statement => statement.expression.enumeration?

/-- The schema of a property from its declaration; an array of anything without one. -/
def Ontology.propertySchema (ontology : Ontology) :
    Option (Role × PropertyDeclaration) → Except BuildError SchemaNode
  | none => .ok (.ofType .array)
  | some (.data, declaration) => .ok declaration.dataSchema
  | some (.object, declaration) => declaration.objectSchema ontology

/-- The classes that the schema of a property refers to. -/
def propertyClasses : Option (Role × PropertyDeclaration) → List String
  | some (.object, declaration) => declaration.rangeClasses
  | _ => []

namespace ClassBuild

variable (ontology : Ontology) (configuration : Configuration)

/-- Goes on with the value of a computation, or fails at this build. -/
def proceed {α : Type} (build : ClassBuild) (result : Except BuildError α) (next : α → Attempt) :
    Attempt :=
  match result with
  | .error error => .error ⟨error, build⟩
  | .ok value => next value

/-- Adds a property under the local name of its IRI; a schema that lists values refuses it. -/
def addProperty (iri : String) (declaration : Option (Role × PropertyDeclaration))
    (build : ClassBuild) : Attempt :=
  let build := build.refer (propertyClasses declaration)
  build.proceed (ontology.propertySchema declaration) fun node =>
    let node := ontology.annotateProperty configuration iri node
    match build.schema.insertProperty? (Iri.localName iri) node with
    | none => .ok build
    | some schema => .ok { build with schema }

/-- Adds a declared property of a class. Only untouched entries of the catalog give way to it. -/
def addDeclared (role : Role) (declaration : PropertyDeclaration) (build : ClassBuild) : Attempt :=
  let name := Iri.localName declaration.iri
  let build :=
    if declaration.functional then { build with functional := build.functional.insert name }
    else build
  match build.schema.property? name with
  | none => addProperty ontology configuration declaration.iri (some (role, declaration)) build
  | some existing =>
    if Catalog.isUntouched name existing then
      addProperty ontology configuration declaration.iri (some (role, declaration))
        { build with schema := build.schema.eraseProperty name }
    else .ok build

/-- Notes the classes and the value lists that the filler of a restriction mentions. -/
def noteFiller (name : String) (restriction : ClassExpression) (build : ClassBuild) : ClassBuild :=
  match restriction.filler? with
  | none => build
  | some filler =>
    let build := build.refer filler.fillerClasses
    if filler.fillerEnumerates then { build with enumerated := build.enumerated.insert name }
    else build

/-- Applies a restriction to the property of this name. -/
def refineProperty (name : String) (restriction : ClassExpression) (annotations : List Annotation)
    (build : ClassBuild) : Attempt :=
  let build := build.noteFiller name restriction
  let items := match restriction.filler? with
    | none => .ok none
    | some filler => filler.fillerSchema? ontology
  build.proceed items fun items =>
    .ok { build with
      schema := build.schema.modifyProperty name fun property =>
        (property.restrict restriction items).annotateFromAxiom configuration restriction
          annotations
      functional :=
        if restriction.demandsOne then build.functional.insert name else build.functional
      enumerated :=
        if restriction.fixesValue then build.enumerated.insert name else build.enumerated }

/-- Applies a part of a subclass axiom; only restrictions of properties have an effect. A property
that the schema lacks is added first. -/
def applyRestriction (part : ClassExpression) (annotations : List Annotation)
    (build : ClassBuild) : Attempt :=
  match part.restrictedProperty? with
  | none => .ok build
  | some iri =>
    let name := Iri.localName iri
    let present :=
      if build.schema.hasProperty name then .ok build
      else addProperty ontology configuration iri (ontology.findProperty? iri) build
    present.bind fun build =>
      if build.schema.hasProperty name then
        refineProperty ontology configuration name part annotations build
      else .ok build

def addMember (build : ClassBuild) : Member → Attempt
  | .declared role declaration => addDeclared ontology configuration role declaration build
  | .restricted part annotations => applyRestriction ontology configuration part annotations build

def addMembers (iri : String) (build : ClassBuild) : Attempt :=
  (ontology.members iri).foldlM (addMember ontology configuration) build

/-- Takes in a superclass; its members only unless the schema will refer to it instead. -/
def addAncestor (build : ClassBuild) (iri : String) : Attempt :=
  let build := { build with
    processed := build.processed.insert iri, referenced := build.referenced.insert iri }
  if configuration.schema.useInheritanceReferences then .ok build
  else addMembers ontology configuration iri build

/-- Turns the schema into a list of values. -/
def enumerate (values : List Json) (build : ClassBuild) : ClassBuild :=
  { build with
    schema := { build.schema.setEnumValues values with type := some (.ofValues values) } }

/-- Takes in everything that the ontology says about the subject. -/
def visit (build : ClassBuild) : Attempt :=
  match ontology.enumeration? build.subject with
  | some values => .ok (build.enumerate values)
  | none => do
    let build ← addMembers ontology configuration build.subject build
    if configuration.schema.followReferences then
      (ontology.superclasses build.subject).toList.foldlM (addAncestor ontology configuration) build
    else return build

end ClassBuild

end OntoSchema
