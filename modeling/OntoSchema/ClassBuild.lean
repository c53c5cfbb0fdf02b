import OntoSchema.BuildError
import OntoSchema.Markdown
import OntoSchema.SchemaNode

/-!
# The build of one class

A `ClassBuild` is what is known while the schema of one class grows: the classes it went through and
refers to, and names of properties that later stages treat in a special way. An `Attempt` that
fails keeps the build it had reached.
-/

namespace OntoSchema

structure ClassBuild where
  /-- The class that is built. -/
  subject : String
  schema : SchemaNode
  /-- The subject and the superclasses met so far. -/
  processed : NameSet := ∅
  /-- Classes that properties, restrictions or inheritance point to. -/
  referenced : NameSet := ∅
  /-- Properties with exactly one value. -/
  functional : NameSet := ∅
  /-- Properties whose values come from a fixed list. -/
  enumerated : NameSet := ∅
  /-- The required names of the schema, as of the last stage that touched them. -/
  required : NameSet := ∅
  /-- Properties that had a positive least number of values when they were collapsed. -/
  mandatory : NameSet := ∅
  markdown : MarkdownTables := ∅
deriving DecidableEq

structure Failure where
  error : BuildError
  /-- The build at the failure. Its schema is exact; names that the step was about to note or to
  remove need not be. -/
  reached : ClassBuild
deriving DecidableEq

/-- The next build, or a failure. -/
abbrev Attempt := Except Failure ClassBuild

namespace ClassBuild

def start (subject : String) (schema : SchemaNode) : ClassBuild :=
  { subject, schema, processed := NameSet.ofList [subject] }

variable (build : ClassBuild)

/-- The superclasses met so far. -/
def ancestors : List String := build.processed.toList.filter (· ≠ build.subject)

def syncRequired : ClassBuild := { build with required := build.schema.required }

def refer (iris : List String) : ClassBuild :=
  { build with referenced := build.referenced.insertAll iris }

/-- Moves a property name to another one in all sets of property names and in the schema. -/
def rename (source target : String) : ClassBuild :=
  { build with
    functional := build.functional.rename source target
    enumerated := build.enumerated.rename source target
    mandatory := build.mandatory.rename source target
    schema := { build.schema with required := build.schema.required.rename source target } }

/-- Adds the documentation of the subject and of the classes it refers to. -/
def collectMarkdown (ontology : Ontology) : Option AnnotationRoles → ClassBuild
  | none => build
  | some roles =>
    if roles.markdown.isEmpty then build
    else
      let classes := build.subject :: build.referenced.toList.filter (· ≠ build.subject)
      { build with
        markdown := build.markdown.recordAll (classes.flatMap (ontology.markdownEntries roles)) }

end ClassBuild

end OntoSchema
