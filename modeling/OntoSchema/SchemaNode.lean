import OntoSchema.Entries
import OntoSchema.Json
import OntoSchema.NameSet

/-!
# Schema nodes

A `SchemaNode` is a tree of schemas: its flat keywords, its properties in ascending order of their
names, and its parts. A node that lists its values has neither properties nor required names;
`setEnumValues` and `insertProperty` keep it so.
-/

namespace OntoSchema

inductive SchemaType where
  | object
  | array
  | string
  | integer
  | number
  | boolean
deriving DecidableEq

/-- The keywords of a node that hold no schemas. The name is the key of a component and is not
written. -/
structure Keywords where
  name : Option String := none
  reference : Option String := none
  type : Option SchemaType := none
  format : Option String := none
  description : Option String := none
  required : NameSet := ∅
  enumValues : Option (List Json) := none
  nullable : Option Bool := none
  readOnly : Option Bool := none
  writeOnly : Option Bool := none
  exampleValue : Option Json := none
  defaultValue : Option Json := none
  minItems : Option UInt32 := none
  maxItems : Option UInt32 := none
deriving DecidableEq

structure SchemaNode extends Keywords where
  properties : List (String × SchemaNode) := []
  allOf : List SchemaNode := []
  oneOf : List SchemaNode := []
  items : Option SchemaNode := none

/-- What stands before the name of a component in a reference to it. -/
def componentPath : String := "#/components/schemas/"

namespace SchemaNode

mutual

/-- Decides the equality of two nodes. -/
def decEq : (a b : SchemaNode) → Decidable (a = b)
  | ⟨k, ps, as, os, i⟩, ⟨k', ps', as', os', i'⟩ =>
    match decEqFields ps ps', decEqParts as as', decEqParts os os', decEqItems i i' with
    | isTrue h₁, isTrue h₂, isTrue h₃, isTrue h₄ =>
      decidable_of_iff (k = k') (by simp [h₁, h₂, h₃, h₄])
    | isFalse h, _, _, _ => isFalse (by simp [h])
    | _, isFalse h, _, _ => isFalse (by simp [h])
    | _, _, isFalse h, _ => isFalse (by simp [h])
    | _, _, _, isFalse h => isFalse (by simp [h])

def decEqFields : (a b : List (String × SchemaNode)) → Decidable (a = b)
  | [], [] => isTrue rfl
  | [], _ :: _ | _ :: _, [] => isFalse nofun
  | (j, x) :: xs, (k, y) :: ys =>
    match decEq x y, decEqFields xs ys with
    | isTrue h, isTrue h' => decidable_of_iff (j = k) (by simp [h, h'])
    | isFalse h, _ => isFalse (by simp [h])
    | _, isFalse h => isFalse (by simp [h])

def decEqParts : (a b : List SchemaNode) → Decidable (a = b)
  | [], [] => isTrue rfl
  | [], _ :: _ | _ :: _, [] => isFalse nofun
  | x :: xs, y :: ys =>
    match decEq x y, decEqParts xs ys with
    | isTrue h, isTrue h' => isTrue (by rw [h, h'])
    | isFalse h, _ => isFalse (by simp [h])
    | _, isFalse h => isFalse (by simp [h])

def decEqItems : (a b : Option SchemaNode) → Decidable (a = b)
  | none, none => isTrue rfl
  | none, some _ | some _, none => isFalse nofun
  | some x, some y =>
    match decEq x y with
    | isTrue h => isTrue (by rw [h])
    | isFalse h => isFalse (by simpa using h)

end

instance : DecidableEq SchemaNode := decEq

instance : Inhabited SchemaNode := ⟨{}⟩

/-- A node with nothing but a type. -/
def ofType (type : SchemaType) : SchemaNode := { type := some type }

def ofFormat (type : SchemaType) (format : String) : SchemaNode :=
  { type := some type, format := some format }

/-- A reference to a component. -/
def referenceTo (component : String) : SchemaNode :=
  { reference := some (componentPath ++ component) }

def arrayOf (items : SchemaNode) : SchemaNode :=
  { type := some .array, items := some items }

def oneOfNodes (variants : List SchemaNode) : SchemaNode := { oneOf := variants }

def allOfNodes (parts : List SchemaNode) : SchemaNode := { allOf := parts }

/-- A node that lists its values. -/
def ofValues (type : SchemaType) (values : List Json) : SchemaNode :=
  { type := some type, enumValues := some values }

variable (node : SchemaNode)

def isEnum : Bool := node.enumValues.isSome

def isArray : Bool := node.type == some .array

def propertyNames : List String := Entries.names node.properties

def property? (name : String) : Option SchemaNode := Entries.get? name node.properties

def hasProperty (name : String) : Bool := Entries.contains name node.properties

/-- The name of the component that a node refers to. -/
def referencedName? : Option String :=
  node.reference.bind fun reference =>
    if componentPath.toList.isPrefixOf reference.toList then
      some (String.ofList (reference.toList.drop componentPath.length))
    else none

/-- The schema of a single value: the items of an array, else the node itself. -/
def valueSchema : SchemaNode :=
  match node.items with
  | some items => if node.isArray then items else node
  | none => node

/-- Lists the values of a node, which then has neither properties nor required names. -/
def setEnumValues (values : List Json) : SchemaNode :=
  { node with properties := [], required := ∅, enumValues := some values }

/-- Adds or replaces a property; a node that lists its values refuses. -/
def insertProperty? (name : String) (property : SchemaNode) : Option SchemaNode :=
  if node.isEnum then none
  else some { node with properties := Entries.insert name property node.properties }

def eraseProperty (name : String) : SchemaNode :=
  { node with properties := Entries.erase name node.properties }

def modifyProperty (name : String) (change : SchemaNode → SchemaNode) : SchemaNode :=
  { node with properties := Entries.modify name change node.properties }

end SchemaNode

/-- The type that fits a single JSON value; values without a type of their own count as strings. -/
def SchemaType.ofJson : Json → SchemaType
  | .bool _ => .boolean
  | .number (.integer _) => .integer
  | .number (.real _) => .number
  | .null | .string _ | .array _ | .object _ => .string

/-- The type of a list of values, taken from its first one. -/
def SchemaType.ofValues : List Json → SchemaType
  | [] => .string
  | value :: _ => ofJson value

end OntoSchema
