import OntoSchema.Iri
import OntoSchema.SchemaNode

/-!
# Schemas of datatypes

A datatype is known by its local name and has a type and perhaps a format. Unknown datatypes are
strings.
-/

namespace OntoSchema

structure Datatype where
  type : SchemaType
  format : Option String := none
deriving DecidableEq

namespace Datatype

def ofName (name : String) : Datatype :=
  if ["string", "normalizedString", "token", "language", "Name", "NCName", "langString", "Literal",
      "PlainLiteral"].contains name then ⟨.string, none⟩
  else if name = "anyURI" then ⟨.string, some "uri"⟩
  else if ["int", "short", "byte", "unsignedInt", "unsignedShort", "unsignedByte"].contains name
  then ⟨.integer, some "int32"⟩
  else if ["integer", "long", "nonNegativeInteger", "positiveInteger", "negativeInteger",
      "nonPositiveInteger", "unsignedLong"].contains name then ⟨.integer, some "int64"⟩
  else if name = "float" then ⟨.number, some "float"⟩
  else if name = "double" ∨ name = "decimal" then ⟨.number, some "double"⟩
  else if name = "boolean" then ⟨.boolean, none⟩
  else if name = "dateTime" ∨ name = "dateTimeStamp" then ⟨.string, some "date-time"⟩
  else if name = "date" then ⟨.string, some "date"⟩
  else if name = "time" then ⟨.string, some "time"⟩
  else ⟨.string, none⟩

def ofIri (iri : String) : Datatype := ofName (Iri.localName iri)

def schema (datatype : Datatype) : SchemaNode :=
  { type := some datatype.type, format := datatype.format }

/-- The datatypes of some ranges, each once, in order of first appearance. -/
def distinct (ranges : List String) : List Datatype :=
  ranges.foldl (fun found range =>
    if found.contains (ofIri range) then found else found ++ [ofIri range]) []

end Datatype

/-- The schema of a datatype's values. -/
def SchemaNode.ofDatatype (iri : String) : SchemaNode := (Datatype.ofIri iri).schema

end OntoSchema
