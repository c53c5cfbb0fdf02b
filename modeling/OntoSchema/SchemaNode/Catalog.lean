import OntoSchema.SchemaNode

/-!
# The default properties

Every class schema may begin with a fixed catalog of properties. An entry gives way to a property
of the ontology as long as it is still the entry of the catalog.
-/

namespace OntoSchema.Catalog

def nullableArray (items : SchemaNode) (description : String) : SchemaNode :=
  { SchemaNode.arrayOf items with nullable := some true, description := some description }

def nullableStrings (description : String) : SchemaNode :=
  nullableArray (.ofType .string) description

def identifier : SchemaNode :=
  { SchemaNode.ofType .integer with nullable := some false, description := some "identifier" }

/-- The catalog in ascending order of names. -/
def entries : List (String × SchemaNode) :=
  [("description", nullableStrings "small description"),
    ("eventDateTime", nullableArray (.ofFormat .string "date-time") "a date-time"),
    ("id", identifier),
    ("isBool", nullableArray (.ofType .boolean) "a boolean"),
    ("label", nullableStrings "short description of the resource"),
    ("quantity", nullableArray (.ofFormat .number "float") "a number"),
    ("type", nullableStrings "type of the resource")]

theorem ordered_entries : Entries.Ordered entries := by
  unfold Entries.Ordered entries
  decide

def contains (name : String) : Bool := Entries.contains name entries

/-- Whether a property is an entry of the catalog as it stands there. -/
def isUntouched (name : String) (property : SchemaNode) : Bool :=
  Entries.get? name entries == some property

/-- Adds the entries whose names are free. -/
def addTo (properties : List (String × SchemaNode)) : List (String × SchemaNode) :=
  entries.foldl (fun found entry =>
    if Entries.contains entry.1 found then found else Entries.insert entry.1 entry.2 found)
    properties

end OntoSchema.Catalog

namespace OntoSchema

/-- Adds the catalog to a schema without replacing a property; lists of values stay as they are. -/
def SchemaNode.mergeDefaults (node : SchemaNode) : SchemaNode :=
  if node.isEnum then node else { node with properties := Catalog.addTo node.properties }

end OntoSchema
