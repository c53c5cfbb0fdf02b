import OntoSchema.NameMap
import OntoSchema.SchemaNode.Written

/-!
# Checking examples

The example of a property must fit the schema of a single value. Whether a value fits is the matter
of a `ValueCheck`, which is given the schema as it is written and may refuse it. Value schemas that
refer to components are not checked. A problem points at its property, and a refused schema ends the
validation at once.
-/

namespace OntoSchema

/-- Tells in texts what is wrong with a value under a written schema, or why it refuses the
schema. -/
abbrev ValueCheck := (schema value : Json) → Except String (List String)

/-- An example that does not fit, at the path of its property. -/
structure ExampleProblem where
  path : String
  message : String
deriving DecidableEq

namespace ExampleProblem

/-- The problem on one line. -/
def line (problem : ExampleProblem) : String := problem.path ++ ": " ++ problem.message

/-- Heads a list of problems. -/
def summary (problems : List ExampleProblem) : String :=
  "validation failed with " ++ toString problems.length ++ " error(s)"

end ExampleProblem

/-- Why examples do not pass. -/
inductive ValidationError where
  | refused (path reason : String)
  | invalid (problems : List ExampleProblem)
deriving DecidableEq

namespace ValidationError

def message : ValidationError → String
  | refused path reason => "invalid schema for " ++ path ++ ": " ++ reason
  | invalid problems => ExampleProblem.summary problems

def exitCode : ValidationError → Nat
  | refused _ _ => 2
  | invalid _ => 1

/-- Examples pass if there are no problems. -/
def conclude : List ExampleProblem → Except ValidationError Unit
  | [] => .ok ()
  | problems => .error (.invalid problems)

end ValidationError

/-- What is found for all items, unless the search fails for one. -/
def collect {ε α β : Type} (find : α → Except ε (List β)) (items : List α) : Except ε (List β) := do
  return (← items.mapM find).flatten

def propertyPath (schema property : String) : String :=
  "/" ++ schema ++ "/properties/" ++ property

namespace SchemaNode

variable (check : ValueCheck)

/-- What is wrong with the example of a property. -/
def exampleMessages (property : SchemaNode) : Except String (List String) :=
  match property.exampleValue with
  | none => .ok []
  | some value =>
    if property.valueSchema.toJson.mentions "$ref" then .ok []
    else check property.valueSchema.toJson value

/-- The problems of the example of a property at some path. -/
def problemsAt (path : String) (property : SchemaNode) :
    Except ValidationError (List ExampleProblem) :=
  match property.exampleMessages check with
  | .error reason => .error (.refused path reason)
  | .ok messages => .ok (messages.map (⟨path, ·⟩))

def exampleProblems (name : String) (schema : SchemaNode) :
    Except ValidationError (List ExampleProblem) :=
  collect (fun (property, node) => node.problemsAt check (propertyPath name property))
    schema.properties

/-- Validates the examples of one schema. -/
def validateExamples (name : String) (schema : SchemaNode) : Except ValidationError Unit :=
  schema.exampleProblems check name >>= ValidationError.conclude

end SchemaNode

/-- Validates the examples of all schemas, schema by schema. -/
def validateExamples (check : ValueCheck) (schemas : NameMap SchemaNode) :
    Except ValidationError Unit :=
  collect (fun (name, schema) => schema.exampleProblems check name) schemas.entries >>=
    ValidationError.conclude

end OntoSchema
