import OntoSchema.ClassBuild.Stages

/-!
# Single steps of a build

A `Step` is one operation on a build. Steps may be taken in any order; a run stops at the first step
that fails.
-/

namespace OntoSchema

/-- A set of names in a build. -/
inductive NameCollection where
  | processed
  | referenced
  | functional
  | enumerated
  | mandatory
  /-- The required names of the schema. -/
  | schemaRequired
deriving DecidableEq

inductive Step where
  | visit
  | cleanup
  | requiredness
  | arrays
  | inheritance
  | prune
  | markdown
  /-- All stages in order. -/
  | stages
  | syncRequired
  | mergeDefaults
  | generateRequired
  | insertProperty (name : String) (property : SchemaNode)
  | setEnumValues (values : List Json)
  | add (collection : NameCollection) (name : String)
  /-- Annotates a property of the schema as a property of the ontology. -/
  | annotateProperty (name iri : String)
  /-- Annotates a property of the schema from a subclass axiom. -/
  | annotateFromAxiom (name : String) (statement : SubclassAxiom)

namespace ClassBuild

def addName (build : ClassBuild) (name : String) : NameCollection → ClassBuild
  | .processed => { build with processed := build.processed.insert name }
  | .referenced => { build with referenced := build.referenced.insert name }
  | .functional => { build with functional := build.functional.insert name }
  | .enumerated => { build with enumerated := build.enumerated.insert name }
  | .mandatory => { build with mandatory := build.mandatory.insert name }
  | .schemaRequired =>
    { build with schema := { build.schema with required := build.schema.required.insert name } }

variable (ontology : Ontology) (configuration : Configuration) (inflector : Inflector)

def withSchema (build : ClassBuild) (schema : SchemaNode) : ClassBuild := { build with schema }

/-- Takes one step. -/
def take (build : ClassBuild) : Step → Attempt
  | .visit => build.visit ontology configuration
  | .cleanup => .ok build.cleanup
  | .requiredness => .ok (build.applyRequiredness configuration.schema)
  | .arrays => .ok (build.convertArrays configuration.schema inflector)
  | .inheritance => build.applyInheritance ontology configuration.schema
  | .prune => build.prune ontology inflector
  | .markdown => .ok (build.collectMarkdown ontology configuration.annotations)
  | .stages => build.runStages ontology configuration inflector
  | .syncRequired => .ok build.syncRequired
  | .mergeDefaults => .ok (build.withSchema build.schema.mergeDefaults)
  | .generateRequired => .ok build.generateRequired
  | .insertProperty name property =>
    .ok (build.withSchema ((build.schema.insertProperty? name property).getD build.schema))
  | .setEnumValues values => .ok (build.withSchema (build.schema.setEnumValues values))
  | .add collection name => .ok (build.addName name collection)
  | .annotateProperty name iri =>
    .ok (build.withSchema (build.schema.modifyProperty name
      (ontology.annotateProperty configuration iri)))
  | .annotateFromAxiom name statement =>
    .ok (build.withSchema (build.schema.modifyProperty name
      (SchemaNode.annotateFromAxiom configuration statement.sup statement.annotations)))

/-- The builds before, between and after the steps of a run, and the failure that ended it. -/
def run (build : ClassBuild) : List Step → List ClassBuild × Option Failure
  | [] => ([build], none)
  | step :: rest =>
    match build.take ontology configuration inflector step with
    | .error failure => ([build], some failure)
    | .ok next =>
      let (builds, failure) := run next rest
      (build :: builds, failure)

end ClassBuild

end OntoSchema
