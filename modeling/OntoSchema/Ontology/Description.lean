import OntoSchema.Configuration
import OntoSchema.Ontology

/-!
# Descriptions

The description of an entity is the value of its first annotation with the first description
property that it has at all.
-/

namespace OntoSchema

/-- Stands for a description that the ontology does not give. -/
def defaultDescription : String := "Description not available"

/-- The value of the first of some annotations that goes by a name. -/
def annotationValue? (annotations : List Annotation) (name : String) : Option String :=
  (annotations.find? fun note => Iri.answersTo note.property name).map fun note => note.value

def Ontology.description? (ontology : Ontology) (options : SchemaOptions) (iri : String) :
    Option String :=
  match options.descriptionProperties.findSome? (annotationValue? (ontology.annotations iri)) with
  | some description => some description
  | none => if options.defaultDescriptions then some defaultDescription else none

end OntoSchema
