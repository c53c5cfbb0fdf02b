import OntoSchema.Json
import OntoSchema.NameMap

/-!
# Reading records

A record is written as an object, where unknown keys are ignored and a known key must not be
repeated, or as the array of its first fields in their order. `Json.record?` gives the value of each
known key either way.
-/

namespace OntoSchema.Json

/-- The value of a key that must not be repeated; nothing inside if it is missing. -/
def single? {α : Type} (key : String) (fields : List (String × α)) : Option (Option α) :=
  match fields.filter fun entry => entry.1 == key with
  | [] => some none
  | [entry] => some (some entry.2)
  | _ => none

/-- The values of the known keys of a record. -/
def record? (keys : List String) : Json → Option (String → Option Json)
  | .object fields =>
    if keys.all fun key => (single? key fields).isSome then some fun key => fields.lookup key
    else none
  | .array items =>
    if items.length ≤ keys.length then some fun key => (keys.zip items).lookup key else none
  | _ => none

def string? : Json → Option String
  | .string s => some s
  | _ => none

def bool? : Json → Option Bool
  | .bool b => some b
  | _ => none

/-- An array whose items can all be read. -/
def list? {α : Type} (read : Json → Option α) : Json → Option (List α)
  | .array items => items.mapM read
  | _ => none

/-- An object as a map; the last value of a repeated key counts. -/
def map? {α : Type} (read : Json → Option α) : Json → Option (NameMap α)
  | .object fields => (fields.mapM fun entry => (read entry.2).map fun value =>
      (entry.1, value)).map NameMap.ofList
  | _ => none

/-- Null reads as nothing. -/
def nullable? {α : Type} (read : Json → Option α) : Json → Option (Option α)
  | .null => some none
  | value => (read value).map some

/-- A field that must be there. -/
def required {α : Type} (read : Json → Option α) (field : Option Json) : Option α :=
  field.bind read

/-- A field that has a value even if it is missing. -/
def withDefault {α : Type} (missing : α) (read : Json → Option α) : Option Json → Option α
  | none => some missing
  | some value => read value

end OntoSchema.Json
