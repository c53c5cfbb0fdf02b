import OntoSchema.SchemaNode

/-!
# Schemas as JSON

A node is written with its keywords in a fixed order; absent and empty ones are left out.
-/

namespace OntoSchema

def SchemaType.text : SchemaType → String
  | object => "object"
  | array => "array"
  | string => "string"
  | integer => "integer"
  | number => "number"
  | boolean => "boolean"

namespace SchemaNode

/-- A field that is written if it has a value. -/
def field? {α : Type} (key : String) (write : α → Json) : Option α → List (String × Json)
  | none => []
  | some value => [(key, write value)]

/-- A field for a list that is written if it is not empty. -/
def listField? (key : String) (write : List Json → Json) : List Json → List (String × Json)
  | [] => []
  | items => [(key, write items)]

/-- The field that holds the properties, if there are any. -/
def propertyFields : List (String × Json) → List (String × Json)
  | [] => []
  | fields => [("properties", .object fields)]

def headFields (keywords : Keywords) : List (String × Json) :=
  field? "$ref" .string keywords.reference ++
    field? "type" (fun type => .string type.text) keywords.type ++
    field? "format" .string keywords.format ++ field? "description" .string keywords.description

def middleFields (keywords : Keywords) : List (String × Json) :=
  listField? "required" .array (keywords.required.toList.map .string) ++
    field? "enum" .array keywords.enumValues

def tailFields (keywords : Keywords) : List (String × Json) :=
  field? "nullable" .bool keywords.nullable ++ field? "readOnly" .bool keywords.readOnly ++
    field? "writeOnly" .bool keywords.writeOnly ++ field? "example" id keywords.exampleValue ++
    field? "default" id keywords.defaultValue ++
    field? "minItems" (fun n => .ofNat n.toNat) keywords.minItems ++
    field? "maxItems" (fun n => .ofNat n.toNat) keywords.maxItems

mutual

def toJson : SchemaNode → Json
  | ⟨keywords, properties, allOf, oneOf, items⟩ =>
    .object (headFields keywords ++ propertyFields (writtenProperties properties) ++
      middleFields keywords ++ listField? "allOf" .array (writtenParts allOf) ++
      listField? "oneOf" .array (writtenParts oneOf) ++ writtenItems items ++
      tailFields keywords)

/-- The properties, each under its name. -/
def writtenProperties : List (String × SchemaNode) → List (String × Json)
  | [] => []
  | (name, property) :: rest => (name, property.toJson) :: writtenProperties rest

def writtenParts : List SchemaNode → List Json
  | [] => []
  | part :: rest => part.toJson :: writtenParts rest

def writtenItems : Option SchemaNode → List (String × Json)
  | none => []
  | some items => [("items", items.toJson)]

end

end SchemaNode

end OntoSchema
