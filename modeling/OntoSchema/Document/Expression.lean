import OntoSchema.ClassExpression
import OntoSchema.Document.Record

/-!
# Class expressions as JSON

An expression is an object whose `type` tells its constructor; the other fields are written in a
fixed order. Reading ignores the fields of other constructors. Inside another expression the
constructor may also be given by its place in `ClassExpression.tags`.
-/

namespace OntoSchema

def Role.text : Role → String
  | object => "object"
  | data => "data"

def Form.text : Form → String
  | someValuesFrom => "some_values_from"
  | allValuesFrom => "all_values_from"
  | minCardinality => "min_cardinality"
  | maxCardinality => "max_cardinality"
  | exactCardinality => "exact_cardinality"
  | hasValue => "has_value"
  | oneOf => "one_of"
  | complementOf => "complement_of"
  | intersectionOf => "intersection_of"
  | unionOf => "union_of"

def Form.all : List Form :=
  [someValuesFrom, allValuesFrom, minCardinality, maxCardinality, exactCardinality, hasValue, oneOf,
    complementOf, intersectionOf, unionOf]

/-- The tag of a restriction or range. -/
def restrictionTag (role : Role) (form : Form) : String := role.text ++ "_" ++ form.text

/-- The role and the form of a tag. -/
def restrictionOfTag? (tag : String) : Option (Role × Form) :=
  match Form.all.find? fun form => restrictionTag .object form == tag with
  | some form => some (.object, form)
  | none => (Form.all.find? fun form => restrictionTag .data form == tag).map fun form =>
      (.data, form)

def Json.ofCount (count : UInt32) : Json := .ofNat count.toNat

/-- A whole number of 32 bits. -/
def Json.count? : Json → Option UInt32
  | .number (.integer n) => if 0 ≤ n ∧ n < UInt32.size then some (UInt32.ofNat n.toNat) else none
  | _ => none

namespace ClassExpression

/-- The tags of all constructors. -/
def tags : List String :=
  ["class", "datatype", "object_some_values_from", "object_all_values_from",
    "object_min_cardinality", "object_max_cardinality", "object_exact_cardinality",
    "object_has_value", "object_has_self", "object_one_of", "object_complement_of",
    "object_intersection_of", "object_union_of", "data_some_values_from", "data_all_values_from",
    "data_min_cardinality", "data_max_cardinality", "data_exact_cardinality", "data_has_value",
    "data_one_of", "data_complement_of", "data_intersection_of", "data_union_of"]

def tag (expression : ClassExpression) : String :=
  match expression with
  | named _ => "class"
  | datatype _ => "datatype"
  | hasSelf _ => "object_has_self"
  | expression =>
    match expression.kind with
    | .restriction role form => restrictionTag role form
    | .unknown => ""

mutual

def toJson : ClassExpression → Json
  | named iri => .object [("type", .string "class"), ("iri", .string iri)]
  | datatype iri => .object [("type", .string "datatype"), ("iri", .string iri)]
  | quantified role quantifier property filler =>
    .object [("type", .string (quantified role quantifier property filler).tag),
      ("property", .string property), ("filler", toJson filler)]
  | cardinality role bound property count filler =>
    .object [("type", .string (cardinality role bound property count filler).tag),
      ("property", .string property), ("cardinality", .ofCount count),
      ("filler", fillerToJson filler)]
  | hasIndividual property individual =>
    .object [("type", .string "object_has_value"), ("property", .string property),
      ("value", .string individual)]
  | hasLiteral property value =>
    .object [("type", .string "data_has_value"), ("property", .string property), ("value", value)]
  | hasSelf property =>
    .object [("type", .string "object_has_self"), ("property", .string property)]
  | oneOfIndividuals individuals =>
    .object [("type", .string "object_one_of"), ("individuals", .strings individuals)]
  | oneOfLiterals values =>
    .object [("type", .string "data_one_of"), ("values", .array values)]
  | complement role operand =>
    .object [("type", .string (restrictionTag role .complementOf)), ("operand", toJson operand)]
  | combination role connective operands =>
    .object [("type", .string (combination role connective operands).tag),
      ("operands", .array (operandsToJson operands))]

def fillerToJson : Option ClassExpression → Json
  | none => .null
  | some filler => toJson filler

def operandsToJson : List ClassExpression → List Json
  | [] => []
  | operand :: rest => toJson operand :: operandsToJson rest

end

/-- A value inside an expression, with what it is if it is an expression or a list of them. -/
structure Part where
  value : Json
  expression : Option ClassExpression
  expressions : Option (List ClassExpression)

namespace Part

variable (parts : List (String × Part))

/-- A field that must be there once. -/
def field? (key : String) : Option Part := (Json.single? key parts).join

def string? (key : String) : Option String := (field? parts key).bind fun part =>
  part.value.string?

def expression? (key : String) : Option ClassExpression := (field? parts key).bind Part.expression

/-- The filler of a cardinality, which may be missing or null. -/
def filler? : Option (Option ClassExpression) :=
  match Json.single? "filler" parts with
  | none => none
  | some none => some none
  | some (some part) =>
    match part.value with
    | .null => some none
    | _ => part.expression.map some

def cardinality? (role : Role) (bound : Bound) : Option ClassExpression := do
  let property ← string? parts "property"
  let count ← (field? parts "cardinality").bind fun part => part.value.count?
  return cardinality role bound property count (← filler? parts)

def quantified? (role : Role) (quantifier : Quantifier) : Option ClassExpression := do
  let property ← string? parts "property"
  return quantified role quantifier property (← expression? parts "filler")

def combination? (role : Role) (connective : Connective) : Option ClassExpression :=
  (((field? parts "operands").bind Part.expressions)).map (combination role connective)

/-- The expression of a restriction tag. -/
def restriction? : Role × Form → Option ClassExpression
  | (role, .someValuesFrom) => quantified? parts role .existential
  | (role, .allValuesFrom) => quantified? parts role .universal
  | (role, .minCardinality) => cardinality? parts role .min
  | (role, .maxCardinality) => cardinality? parts role .max
  | (role, .exactCardinality) => cardinality? parts role .exact
  | (.object, .hasValue) => do
    let property ← string? parts "property"
    return hasIndividual property (← string? parts "value")
  | (.data, .hasValue) => do
    let property ← string? parts "property"
    return hasLiteral property (← field? parts "value").value.distinct
  | (.object, .oneOf) =>
    ((field? parts "individuals").bind fun part => part.value.list? Json.string?).map
      oneOfIndividuals
  | (.data, .oneOf) =>
    ((field? parts "values").bind fun part => part.value.list? (some ·.distinct)).map oneOfLiterals
  | (role, .complementOf) => (expression? parts "operand").map (complement role)
  | (role, .intersectionOf) => combination? parts role .intersection
  | (role, .unionOf) => combination? parts role .union

/-- The tag of an expression; a number counts only if the expression is `nested`. -/
def tag? (nested : Bool) : Option String :=
  (field? parts "type").bind fun part =>
    match part.value with
    | .string tag => some tag
    | .number (.integer (.ofNat place)) => if nested then tags[place]? else none
    | _ => none

/-- The expression that some fields describe. -/
def assemble? (nested : Bool) : Option ClassExpression := do
  let tag ← tag? parts nested
  if tag = "class" then (string? parts "iri").map named
  else if tag = "datatype" then (string? parts "iri").map datatype
  else if tag = "object_has_self" then (string? parts "property").map hasSelf
  else restriction? parts (← restrictionOfTag? tag)

end Part

mutual

/-- What a value is inside an expression, or at the top of one. -/
def partOf (nested : Bool) : Json → Part
  | .object fields => ⟨.object fields, Part.assemble? (partsOf fields) nested, none⟩
  | .array items => ⟨.array items, none, expressionsOf? items⟩
  | .null => ⟨.null, none, none⟩
  | .bool b => ⟨.bool b, none, none⟩
  | .number n => ⟨.number n, none, none⟩
  | .string s => ⟨.string s, none, none⟩

def partsOf : List (String × Json) → List (String × Part)
  | [] => []
  | (key, value) :: rest => (key, partOf true value) :: partsOf rest

/-- A list of values that are all expressions. -/
def expressionsOf? : List Json → Option (List ClassExpression)
  | [] => some []
  | value :: rest =>
    match (partOf true value).expression, expressionsOf? rest with
    | some expression, some expressions => some (expression :: expressions)
    | _, _ => none

end

/-- Reads an expression. -/
def ofJson? (value : Json) : Option ClassExpression := (partOf false value).expression

end ClassExpression

end OntoSchema
