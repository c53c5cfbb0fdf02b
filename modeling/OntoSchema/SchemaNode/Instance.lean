import OntoSchema.SchemaNode

/-!
# Values of a type

A number without a fraction is an integer, however it is written.
-/

namespace OntoSchema

/-- Whether a value has a type. -/
def SchemaType.admits : SchemaType → Json → Bool
  | object, .object _ | array, .array _ | string, .string _ | boolean, .bool _
  | number, .number _ => true
  | integer, .number (.integer _) => true
  | integer, .number (.real x) => x.isIntegral
  | _, _ => false

end OntoSchema
