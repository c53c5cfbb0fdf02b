import OntoSchema.ClassBuild
import OntoSchema.Configuration

/-!
# Settled shapes and required properties

`settle` gives a type to properties that were left without one and drops lists of one value behind
a default. `applyRequiredness` makes properties required and not nullable that have a positive
least number of values; other functional properties are required and nullable.
-/

namespace OntoSchema

namespace SchemaNode

/-- Whether nothing describes the values of a node without items. -/
def isUnresolved (node : SchemaNode) : Bool :=
  node.isArray ||
    (node.type.isNone && node.reference.isNone && node.enumValues.isNone && node.oneOf.isEmpty &&
      node.allOf.isEmpty)

/-- Drops a list of one value that is the default as well. -/
def dropSingleValue (items : SchemaNode) : SchemaNode :=
  match items.enumValues, items.defaultValue with
  | some [_], some _ => { items with enumValues := none }
  | _, _ => items

def settle (node : SchemaNode) : SchemaNode :=
  match node.items with
  | some items => { node with items := some items.dropSingleValue }
  | none => if node.isUnresolved then { node with type := some .object } else node

/-- Whether a property must have a value: it has a positive least number of values, or is listed. -/
def demandsValue (mandatory : NameSet) (name : String) (property : SchemaNode) : Bool :=
  decide (0 < property.minItems.getD 0) || mandatory.contains name

def isRequired (functional mandatory : NameSet) (name : String) (property : SchemaNode) : Bool :=
  property.demandsValue mandatory name || functional.contains name

/-- Sets the required names of a schema and whether its properties are nullable. -/
def generateRequired (functional mandatory : NameSet) (schema : SchemaNode) : SchemaNode :=
  let required := schema.properties.filter fun entry =>
    entry.2.isRequired functional mandatory entry.1
  { schema with
    properties := Entries.mapValues
      (fun name property =>
        { property with nullable := some (!property.demandsValue mandatory name) })
      schema.properties
    required := NameSet.ofList (Entries.names required) }

end SchemaNode

namespace ClassBuild

/-- Settles the shape of every property. -/
def cleanup (build : ClassBuild) : ClassBuild :=
  { build with
    schema := { build.schema with
      properties := Entries.mapValues (fun _ property => property.settle)
        build.schema.properties } }

def generateRequired (build : ClassBuild) : ClassBuild :=
  { build with schema := build.schema.generateRequired build.functional build.mandatory }

/-- Derives the required names from cardinalities, if asked to; a list of values requires none. -/
def applyRequiredness (options : SchemaOptions) (build : ClassBuild) : ClassBuild :=
  let build :=
    if build.schema.isEnum then { build with schema := { build.schema with required := ∅ } }
    else if options.requiredFromCardinality then build.generateRequired
    else build
  build.syncRequired

end ClassBuild

end OntoSchema
