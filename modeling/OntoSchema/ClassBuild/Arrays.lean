import OntoSchema.ClassBuild
import OntoSchema.Inflector
import OntoSchema.SchemaNode.Catalog
import OntoSchema.Warning

/-!
# Properties with a single value

An array property that can hold one value only collapses to the schema of that value. Names follow:
a collapsed property takes its singular, and an array its plural. No property takes a name that
another one has or has taken, and entries of the catalog keep theirs.
-/

namespace OntoSchema

/-- The items of an array, with what the array itself says about them. -/
def SchemaNode.collapsed (property : SchemaNode) : SchemaNode :=
  match property.items with
  | none => property
  | some items =>
    { items with
      description := items.description.or property.description
      nullable := property.nullable.or items.nullable
      readOnly := property.readOnly.or items.readOnly
      writeOnly := property.writeOnly.or items.writeOnly
      exampleValue := property.exampleValue.or items.exampleValue }

/-- A property on its way through the conversion. -/
structure Conversion where
  source : String
  /-- The name that the property would like to have. -/
  wanted : String
  /-- The name that it gets. -/
  target : String
  node : SchemaNode
  collapses : Bool
deriving DecidableEq

namespace Conversion

def isRenamed (conversion : Conversion) : Bool := conversion.target ≠ conversion.source

def isRefused (conversion : Conversion) : Bool := conversion.target ≠ conversion.wanted

def result (conversion : Conversion) : SchemaNode :=
  if conversion.collapses then conversion.node.collapsed else conversion.node

/-- Whether a collapsed property had a positive least number of values. -/
def wasMandatory (conversion : Conversion) : Bool :=
  conversion.collapses && decide (0 < conversion.node.minItems.getD 0)

end Conversion

namespace ClassBuild

variable (options : SchemaOptions) (inflector : Inflector) (build : ClassBuild)

/-- Whether a property is an array of at most one value. -/
def collapses (name : String) (property : SchemaNode) : Bool :=
  property.isArray && property.items.isSome &&
    (build.functional.contains name || build.enumerated.contains name ||
      property.maxItems == some 1)

def wantedName (name : String) (property : SchemaNode) : String :=
  if options.fixPropertyNames && !Catalog.contains name then
    if build.collapses name property then inflector.singularize name
    else if property.isArray then inflector.pluralize name
    else name
  else name

/-- Converts properties in order; `taken` holds the names given so far. -/
def conversionsFrom : (taken : List String) → List (String × SchemaNode) → List Conversion
  | _, [] => []
  | taken, (name, property) :: rest =>
    let wanted := build.wantedName options inflector name property
    let blocked :=
      wanted ≠ name && (build.schema.hasProperty wanted || taken.contains wanted)
    let target := if blocked then name else wanted
    ⟨name, wanted, target, property, build.collapses name property⟩ ::
      conversionsFrom (target :: taken) rest

/-- What happens to every property of the schema. -/
def conversions : List Conversion :=
  build.conversionsFrom options inflector [] build.schema.properties

/-- Collapses and renames the properties, unless all of them are to stay arrays. -/
def convertArrays : ClassBuild :=
  if options.alwaysGenerateArrays then build
  else
    let conversions := build.conversions options inflector
    let converted : ClassBuild := { build with
      mandatory := build.mandatory.insertAll
        ((conversions.filter Conversion.wasMandatory).map Conversion.source)
      schema := { build.schema with
        properties := Entries.ofList (conversions.map fun conversion =>
          (conversion.target, conversion.result)) } }
    ((conversions.filter Conversion.isRenamed).foldl (fun build conversion =>
      build.rename conversion.source conversion.target) converted).syncRequired

/-- One warning for every property that does not get the name it wants. -/
def renameWarnings : List Warning :=
  if options.alwaysGenerateArrays then []
  else ((build.conversions options inflector).filter Conversion.isRefused).map fun conversion =>
    .renameRefused build.subject conversion.source conversion.wanted

end ClassBuild

end OntoSchema
