import OntoSchema.ExampleCheck
import OntoSchema.Json.Printer
import OntoSchema.SchemaNode.Instance

/-!
# The check by keywords

The check that the program runs examples through; what is proved about examples holds of any check
that goes by types. `keywordCheck` goes through the keywords of a written schema in their order.
Formats and the keywords that only describe a value mean nothing to it, references are not followed,
and no schema is refused.
-/

namespace OntoSchema

namespace Json

/-- Numbers are compared by their value, whether or not they are integers. -/
def Number.sameValue : Number → Number → Bool
  | .integer m, .integer n => m == n
  | .integer n, .real x | .real x, .integer n =>
    x.ratio.1 == n.natAbs * x.ratio.2 && (n == 0 || x.isNegative == decide (n < 0))
  | .real x, .real y => x == y || (x.isZero && y.isZero)

mutual

/-- Whether two values are the same; the fields of objects are compared in order. -/
def sameValue : Json → Json → Bool
  | .null, .null => true
  | .bool x, .bool y => x == y
  | .number x, .number y => x.sameValue y
  | .string x, .string y => x == y
  | .array xs, .array ys => sameItems xs ys
  | .object xs, .object ys => sameFields xs ys
  | _, _ => false

def sameItems : List Json → List Json → Bool
  | [], [] => true
  | x :: xs, y :: ys => sameValue x y && sameItems xs ys
  | _, _ => false

def sameFields : List (String × Json) → List (String × Json) → Bool
  | [], [] => true
  | (j, x) :: xs, (k, y) :: ys => j == k && sameValue x y && sameFields xs ys
  | _, _ => false

end

end Json

/-- The type that a schema is written with. -/
def SchemaType.ofText? (text : String) : Option SchemaType :=
  [object, array, string, integer, number, boolean].find? (·.text = text)

namespace KeywordCheck

def typeTexts (text : String) (value : Json) : List String :=
  match SchemaType.ofText? text with
  | some type =>
    if type.admits value then [] else [value.compact ++ " is not of type " ++ Json.quote text]
  | none => []

def requiredTexts (names : List Json) (fields : List (String × Json)) : List String :=
  names.filterMap fun name =>
    match name with
    | .string name =>
      if (fields.lookup name).isNone then some (Json.quote name ++ " is a required property")
      else none
    | _ => none

def enumTexts (values : List Json) (value : Json) : List String :=
  if values.any (·.sameValue value) then []
  else [value.compact ++ " is not one of " ++ (Json.array values).compact]

def variantTexts (fitting : Nat) (value : Json) : List String :=
  if fitting = 0 then
    [value.compact ++ " is not valid under any of the schemas listed in the 'oneOf' keyword"]
  else if fitting = 1 then []
  else
    [value.compact ++
      " is valid under more than one of the schemas listed in the 'oneOf' keyword"]

def itemCount (limit : Int) : String :=
  toString limit ++ (if limit = 1 then " item" else " items")

def fewestTexts (limit : Int) (items : List Json) : List String :=
  if items.length < limit then
    [(Json.array items).compact ++ " has less than " ++ itemCount limit]
  else []

def mostTexts (limit : Int) (items : List Json) : List String :=
  if limit < items.length then
    [(Json.array items).compact ++ " has more than " ++ itemCount limit]
  else []

/-- What a keyword without schemas says about a value. -/
def plainTexts : (keyword : String) → (said value : Json) → List String
  | "type", .string text, value => typeTexts text value
  | "required", .array names, .object fields => requiredTexts names fields
  | "enum", .array values, value => enumTexts values value
  | "minItems", .number (.integer limit), .array items => fewestTexts limit items
  | "maxItems", .number (.integer limit), .array items => mostTexts limit items
  | _, _, _ => []

mutual

/-- What is wrong with a value under a written schema. -/
def texts : (schema value : Json) → List String
  | .object fields, value => fieldTexts fields value
  | .null, _ | .bool _, _ | .number _, _ | .string _, _ | .array _, _ => []
termination_by structural schema => schema

def fieldTexts : List (String × Json) → Json → List String
  | [], _ => []
  | field :: rest, value => keywordTexts field value ++ fieldTexts rest value
termination_by structural fields => fields

def keywordTexts : String × Json → Json → List String
  | ("properties", .object properties), value => propertyTexts properties value
  | ("allOf", .array parts), value => partTexts parts value
  | ("oneOf", .array variants), value => variantTexts (fitting variants value) value
  | ("items", items), .array values => values.flatMap fun item => texts items item
  | (keyword, said), value => plainTexts keyword said value
termination_by structural field => field

def propertyTexts : List (String × Json) → Json → List String
  | [], _ => []
  | (name, property) :: rest, value =>
    (match value with
      | .object fields =>
        match fields.lookup name with
        | some found => texts property found
        | none => []
      | _ => []) ++ propertyTexts rest value
termination_by structural properties => properties

def partTexts : List Json → Json → List String
  | [], _ => []
  | part :: rest, value => texts part value ++ partTexts rest value
termination_by structural parts => parts

/-- The number of variants that a value fits. -/
def fitting : List Json → Json → Nat
  | [], _ => 0
  | variant :: rest, value =>
    (if (texts variant value).isEmpty then 1 else 0) + fitting rest value
termination_by structural variants => variants

end

end KeywordCheck

/-- The check that the program runs examples through. -/
def keywordCheck : ValueCheck := fun schema value => .ok (KeywordCheck.texts schema value)

/-- The problems that the check by keywords finds. -/
def exampleProblems (schemas : NameMap SchemaNode) : List ExampleProblem :=
  match validateExamples keywordCheck schemas with
  | .error (.invalid problems) => problems
  | .error (.refused _ _) | .ok () => []

end OntoSchema
