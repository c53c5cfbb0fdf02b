import OntoSchema.Document.Expression
import OntoSchema.Json.Reader
import OntoSchema.Ontology

/-!
# Ontology documents

An ontology is written with all its fields. Reading needs the IRIs, the two sides of axioms and the
parts of annotations; everything else may be missing.
-/

namespace OntoSchema

open Json

namespace Annotation

def toJson (note : Annotation) : Json :=
  .object [("property", .string note.property), ("value", .string note.value)]

def ofJson? (value : Json) : Option Annotation := do
  let field ← value.record? ["property", "value"]
  return {
    property := ← required string? (field "property")
    value := ← required string? (field "value") }

def shape : Shape := .record [("property", .whole), ("value", .whole)]

end Annotation

def annotationsToJson (annotations : List Annotation) : Json :=
  .array (annotations.map Annotation.toJson)

def annotations? (field : Option Json) : Option (List Annotation) :=
  withDefault [] (list? Annotation.ofJson?) field

def strings? (field : Option Json) : Option (List String) := withDefault [] (list? string?) field

namespace ClassDeclaration

def toJson (declaration : ClassDeclaration) : Json :=
  .object [("iri", .string declaration.iri),
    ("annotations", annotationsToJson declaration.annotations)]

def ofJson? (value : Json) : Option ClassDeclaration := do
  let field ← value.record? ["iri", "annotations"]
  return {
    iri := ← required string? (field "iri")
    annotations := ← annotations? (field "annotations") }

def shape : Shape := .record [("iri", .whole), ("annotations", .list Annotation.shape)]

end ClassDeclaration

namespace PropertyDeclaration

def toJson (declaration : PropertyDeclaration) : Json :=
  .object [("iri", .string declaration.iri), ("domains", .strings declaration.domains),
    ("ranges", .strings declaration.ranges), ("functional", .bool declaration.functional),
    ("annotations", annotationsToJson declaration.annotations)]

def ofJson? (value : Json) : Option PropertyDeclaration := do
  let field ← value.record? ["iri", "domains", "ranges", "functional", "annotations"]
  return {
    iri := ← required string? (field "iri")
    domains := ← strings? (field "domains")
    ranges := ← strings? (field "ranges")
    functional := ← withDefault false bool? (field "functional")
    annotations := ← annotations? (field "annotations") }

def shape : Shape :=
  .record [("iri", .whole), ("domains", .whole), ("ranges", .whole), ("functional", .whole),
    ("annotations", .list Annotation.shape)]

end PropertyDeclaration

namespace SubclassAxiom

def toJson (statement : SubclassAxiom) : Json :=
  .object [("sub", .string statement.sub), ("sup", statement.sup.toJson),
    ("annotations", annotationsToJson statement.annotations)]

def ofJson? (value : Json) : Option SubclassAxiom := do
  let field ← value.record? ["sub", "sup", "annotations"]
  return {
    sub := ← required string? (field "sub")
    sup := ← required ClassExpression.ofJson? (field "sup")
    annotations := ← annotations? (field "annotations") }

def shape : Shape :=
  .record [("sub", .whole), ("sup", .whole), ("annotations", .list Annotation.shape)]

end SubclassAxiom

namespace EquivalenceAxiom

def toJson (statement : EquivalenceAxiom) : Json :=
  .object [("class", .string statement.subject), ("expression", statement.expression.toJson),
    ("annotations", annotationsToJson statement.annotations)]

def ofJson? (value : Json) : Option EquivalenceAxiom := do
  let field ← value.record? ["class", "expression", "annotations"]
  return {
    subject := ← required string? (field "class")
    expression := ← required ClassExpression.ofJson? (field "expression")
    annotations := ← annotations? (field "annotations") }

def shape : Shape :=
  .record [("class", .whole), ("expression", .whole), ("annotations", .list Annotation.shape)]

end EquivalenceAxiom

namespace Ontology

/-- A list of declarations or axioms, which may be missing. -/
def entries? {α : Type} (read : Json → Option α) (field : Option Json) : Option (List α) :=
  withDefault [] (list? read) field

def prefixesToJson (prefixes : NameMap String) : Json :=
  .object (prefixes.entries.map fun (short, space) => (short, .string space))

def toJson (ontology : Ontology) : Json :=
  .object [("iri", .string ontology.iri), ("prefixes", .ofOption prefixesToJson ontology.prefixes),
    ("classes", .array (ontology.classes.map ClassDeclaration.toJson)),
    ("object_properties", .array (ontology.objectProperties.map PropertyDeclaration.toJson)),
    ("data_properties", .array (ontology.dataProperties.map PropertyDeclaration.toJson)),
    ("subclass_axioms", .array (ontology.subclassAxioms.map SubclassAxiom.toJson)),
    ("equivalent_classes", .array (ontology.equivalences.map EquivalenceAxiom.toJson))]

def ofJson? (value : Json) : Option Ontology := do
  let field ← value.record? ["iri", "prefixes", "classes", "object_properties", "data_properties",
    "subclass_axioms", "equivalent_classes"]
  return {
    iri := ← required string? (field "iri")
    prefixes := ← withDefault none (nullable? (map? string?)) (field "prefixes")
    classes := ← entries? ClassDeclaration.ofJson? (field "classes")
    objectProperties := ← entries? PropertyDeclaration.ofJson? (field "object_properties")
    dataProperties := ← entries? PropertyDeclaration.ofJson? (field "data_properties")
    subclassAxioms := ← entries? SubclassAxiom.ofJson? (field "subclass_axioms")
    equivalences := ← entries? EquivalenceAxiom.ofJson? (field "equivalent_classes") }

def shape : Shape :=
  .record [("iri", .whole), ("prefixes", .whole), ("classes", .list ClassDeclaration.shape),
    ("object_properties", .list PropertyDeclaration.shape),
    ("data_properties", .list PropertyDeclaration.shape),
    ("subclass_axioms", .list SubclassAxiom.shape),
    ("equivalent_classes", .list EquivalenceAxiom.shape)]

/-- Reads an ontology from the text of its document. -/
def parse? (text : String) : Option Ontology := (Json.read? shape text).bind ofJson?

end Ontology

end OntoSchema
