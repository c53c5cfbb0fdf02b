import OntoSchema.ClassBuild.Ancestors
import OntoSchema.ClassBuild.Arrays
import OntoSchema.ClassBuild.Members
import OntoSchema.ClassBuild.Requiredness

/-!
# The schema of one class

A class schema starts with a name, a description and perhaps the default properties, takes in the
members of the class, and then goes through the stages: settled shapes, required properties, single
values, references to superclasses, pruned references, documentation.
-/

namespace OntoSchema

/-- The schema that a class begins with. -/
def Ontology.baseSchema (ontology : Ontology) (options : SchemaOptions) (iri : String) :
    Except BuildError SchemaNode := do
  let name ← ontology.schemaName iri
  let schema : SchemaNode := { SchemaNode.ofType .object with
    name := some name, description := ontology.description? options iri }
  return if options.defaultProperties then schema.mergeDefaults else schema

namespace ClassBuild

variable (ontology : Ontology) (configuration : Configuration) (inflector : Inflector)

/-- The build as the conversion of arrays finds it. -/
def prepared (build : ClassBuild) : ClassBuild :=
  build.cleanup.applyRequiredness configuration.schema

def runStages (build : ClassBuild) : Attempt := do
  let converted := (build.prepared configuration).convertArrays configuration.schema inflector
  let inherited ← converted.applyInheritance ontology configuration.schema
  let pruned ← inherited.prune ontology inflector
  return pruned.collectMarkdown ontology configuration.annotations

end ClassBuild

structure ClassSchema where
  iri : String
  name : String
  schema : SchemaNode
  /-- The classes that the schema refers to and that bear something. -/
  referenced : NameSet
  markdown : MarkdownTables
  warnings : List Warning

/-- Builds the schema of a class. -/
def Ontology.compileClass (ontology : Ontology) (configuration : Configuration)
    (inflector : Inflector) (iri : String) : Except BuildError ClassSchema := do
  let schema ← ontology.baseSchema configuration.schema iri
  let visited ← ((ClassBuild.start iri schema).visit ontology configuration).mapError Failure.error
  let built ← (visited.runStages ontology configuration inflector).mapError Failure.error
  return {
    iri
    name := built.schema.name.getD (Iri.localName iri)
    schema := built.schema
    referenced := built.referenced
    markdown := built.markdown
    warnings := (visited.prepared configuration).renameWarnings configuration.schema inflector }

end OntoSchema
