import OntoSchema.BuildError
import OntoSchema.Ontology

/-!
# Names of schemas

A schema is named after its class: the rest of the IRI behind the longest registered namespace,
with the short name of that namespace in front. An ontology without namespaces cannot name any
schema.
-/

namespace OntoSchema.Ontology

/-- Whether a namespace contains an IRI. The empty namespace contains none. -/
def contains (space iri : String) : Bool :=
  space ≠ "" && space.toList.isPrefixOf iri.toList

/-- The entry with the longest namespace; of equally long ones the last. -/
def longest? : List (String × String) → Option (String × String)
  | [] => none
  | entry :: rest =>
    match longest? rest with
    | none => some entry
    | some best => if best.2.length < entry.2.length then some entry else some best

/-- The registered namespace of an IRI, with its short name in front. -/
def namespaceOf? (prefixes : NameMap String) (iri : String) : Option (String × String) :=
  longest? (prefixes.entries.filter fun entry => contains entry.2 iri)

/-- Removes colons at the end. -/
def trimColons (text : String) : String :=
  String.ofList (text.toList.reverse.dropWhile (· == ':')).reverse

/-- The text of an IRI behind a namespace, or its local name if there is none. -/
def nameWithin (space iri : String) : String :=
  match iri.toList.drop space.length with
  | [] => Iri.localName iri
  | rest => String.ofList rest

def qualifiedName (prefixes : NameMap String) (iri : String) : String :=
  match namespaceOf? prefixes iri with
  | none => Iri.localName iri
  | some (short, space) =>
    if trimColons short = "" then nameWithin space iri
    else trimColons short ++ "-" ++ nameWithin space iri

variable (ontology : Ontology)

/-- The namespaces of an ontology, if it registers any. -/
def prefixes? : Option (NameMap String) :=
  ontology.prefixes.bind fun prefixes => if prefixes.isEmpty then none else some prefixes

/-- The name of a class's schema. -/
def schemaName (iri : String) : Except BuildError String :=
  match ontology.prefixes? with
  | none => .error (.missingPrefixes ontology.iri iri)
  | some prefixes => .ok (qualifiedName prefixes iri)

end OntoSchema.Ontology
