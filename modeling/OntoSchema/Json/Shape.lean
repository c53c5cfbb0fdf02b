/-!
# The parts of a text that are read

A document of a known shape ignores the keys it does not know. Their values are checked for syntax
only, whereas a value that is read must also have readable numbers and strings and a bounded depth.
A `Shape` says which is which.
-/

namespace OntoSchema.Json

inductive Shape where
  /-- Checked for syntax only. -/
  | skipped
  /-- Any value, read in full. -/
  | whole
  | list (items : Shape)
  | map (values : Shape)
  /-- An object with known keys, or the array of their values in this order. -/
  | record (fields : List (String × Shape))

namespace Shape

/-- The shape of an item of an array. -/
def item (index : Nat) : Shape → Shape
  | skipped => skipped
  | list items => items
  | record fields => (fields[index]?.map Prod.snd).getD skipped
  | whole | map _ => whole

/-- The shape of a value in an object. -/
def field (key : String) : Shape → Shape
  | skipped => skipped
  | map values => values
  | record fields => (fields.lookup key).getD skipped
  | whole | list _ => whole

def isSkipped : Shape → Bool
  | skipped => true
  | _ => false

end Shape

end OntoSchema.Json
