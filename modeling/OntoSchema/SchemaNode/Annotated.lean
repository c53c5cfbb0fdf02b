import OntoSchema.Configuration
import OntoSchema.Ontology.Description
import OntoSchema.SchemaNode
import OntoSchema.Text.Numeral

/-!
# Annotations on properties

Annotations mark a property as readable or writable only and give it an example. An example is
typed by the schema of a single value when it reads as such a value, and a string otherwise.
-/

namespace OntoSchema

/-- The JSON value of an annotation text for a type. -/
def SchemaType.parse? : SchemaType → String → Option Json
  | .integer, text => (Text.integer? text).map fun n => .number (.integer n)
  | .number, text => (Text.real? text).map fun x => .number (.real x)
  | .boolean, text =>
    if text = "true" then some (.bool true)
    else if text = "false" then some (.bool false)
    else none
  | .object, _ | .array, _ | .string, _ => none

namespace SchemaNode

/-- An annotation text as an example of a node's values. -/
def typedExample (node : SchemaNode) (literal : String) : Json :=
  let text := Text.trim literal
  match node.valueSchema.type with
  | some type => (type.parse? text).getD (.string text)
  | none => .string text

/-- Applies one annotation; examples only if they are allowed. -/
def annotate (roles : AnnotationRoles) (allowExample : Bool) (node : SchemaNode)
    (note : Annotation) : SchemaNode :=
  let node :=
    if Iri.answersTo note.property roles.readOnly then { node with readOnly := some true }
    else node
  let node :=
    if Iri.answersTo note.property roles.writeOnly then { node with writeOnly := some true }
    else node
  if allowExample && Iri.answersTo note.property roles.exampleName then
    { node with exampleValue := some (node.typedExample note.value) }
  else node

def annotateAll (roles : AnnotationRoles) (allowExample : Bool) (annotations : List Annotation)
    (node : SchemaNode) : SchemaNode :=
  annotations.foldl (annotate roles allowExample) node

end SchemaNode

/-- What an ontology says about a declared property: its description, if the node has none yet, and
its annotations. Without roles nothing is applied. -/
def Ontology.annotateProperty (ontology : Ontology) (configuration : Configuration) (iri : String)
    (node : SchemaNode) : SchemaNode :=
  match configuration.annotations, ontology.findProperty? iri with
  | some roles, some (role, _) =>
    let described :=
      if node.description.isNone then
        { node with description := ontology.description? configuration.schema iri }
      else node
    described.annotateAll roles (role == .data) (ontology.annotations iri)
  | _, _ => node

/-- What the annotations of an axiom say about a property that a part of it restricts. -/
def SchemaNode.annotateFromAxiom (configuration : Configuration) (restriction : ClassExpression)
    (annotations : List Annotation) (node : SchemaNode) : SchemaNode :=
  match configuration.annotations with
  | some roles => node.annotateAll roles restriction.kind.isData annotations
  | none => node

end OntoSchema
