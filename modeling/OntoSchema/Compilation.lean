import OntoSchema.ClassBuild.Stages
import OntoSchema.Operation.Path

/-!
# Compiling an ontology

All policies are checked first, so a conflict produces nothing at all. Then every selected class is
compiled on its own; where two schemas have one name, the later class wins.
-/

namespace OntoSchema

/-- What an ontology becomes: schemas and operations by schema name, documentation, and the warnings
on the way. -/
structure Compilation where
  schemas : NameMap SchemaNode := ∅
  operations : NameMap ClassOperations := ∅
  markdown : MarkdownTables := ∅
  warnings : List Warning := []

namespace Ontology

variable (ontology : Ontology)

/-- Resolves class names in order; every class is selected once. -/
def selectFrom : (selected : List String) → List String → List String
  | selected, [] => selected.reverse
  | selected, name :: rest =>
    match ontology.findClass? name with
    | none => selectFrom selected rest
    | some iri =>
      if selected.contains iri then selectFrom selected rest else selectFrom (iri :: selected) rest

/-- The classes to compile. -/
def selectedClasses (configuration : Configuration) : List String :=
  match configuration.classes with
  | none => ontology.classIris
  | some names => ontology.selectFrom [] names

/-- One warning for every class name that the ontology does not know. -/
def selectionWarnings (configuration : Configuration) : List Warning :=
  ((configuration.classes.getD []).filter fun name => (ontology.findClass? name).isNone).map
    fun name => .undeclaredClass name ontology.iri

end Ontology

namespace Compilation

/-- Adds a class with its operations. -/
def add (compilation : Compilation) (compiled : ClassSchema) (operations : ClassOperations)
    (policyWarnings : List Warning) : Compilation where
  schemas := compilation.schemas.insert compiled.name compiled.schema
  operations := compilation.operations.insert compiled.name operations
  markdown := compilation.markdown.merge compiled.markdown
  warnings := compilation.warnings ++ compiled.warnings ++ policyWarnings ++
    (if compilation.schemas.contains compiled.name then [.repeatedSchemaName compiled.name] else [])

end Compilation

namespace Ontology

variable (ontology : Ontology) (configuration : Configuration) (inflector : Inflector)

/-- Compiles one more class. -/
def compileNext (compilation : Compilation) (iri : String) : Except BuildError Compilation := do
  let compiled ← ontology.compileClass configuration inflector iri
  let operations ← configuration.operationsOf inflector iri
  return compilation.add compiled operations (policyWarnings iri (configuration.policyFor? iri))

def compile : Except BuildError Compilation := do
  configuration.validate
  (ontology.selectedClasses configuration).foldlM (ontology.compileNext configuration inflector)
    { warnings := ontology.selectionWarnings configuration }

end Ontology

end OntoSchema
