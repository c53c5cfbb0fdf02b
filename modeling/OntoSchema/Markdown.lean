import OntoSchema.Configuration
import OntoSchema.NameSet
import OntoSchema.Ontology

/-!
# Documentation tables

Every configured annotation has one table from targets to texts. The target of an annotation is its
class, or a property of the class. Of several texts for one target the last one stays, and in a
merge the second collection wins.
-/

namespace OntoSchema

/-- Tables by annotation, and texts by target. -/
abbrev MarkdownTables := NameMap (NameMap String)

/-- A text for a target in the table of an annotation. -/
structure MarkdownEntry where
  source : String
  target : String
  text : String
deriving DecidableEq

namespace MarkdownTables

def table (tables : MarkdownTables) (source : String) : NameMap String :=
  (tables.get? source).getD ∅

def record (tables : MarkdownTables) (entry : MarkdownEntry) : MarkdownTables :=
  tables.insert entry.source ((tables.table entry.source).insert entry.target entry.text)

def recordAll (tables : MarkdownTables) (entries : List MarkdownEntry) : MarkdownTables :=
  entries.foldl record tables

/-- Both collections together; the entries of the second one win. -/
def merge (first second : MarkdownTables) : MarkdownTables :=
  second.entries.foldl (fun tables entry =>
    tables.insert entry.1 ((tables.table entry.1).union entry.2)) first

end MarkdownTables

namespace AnnotationRoles

variable (roles : AnnotationRoles)

/-- The entries that some annotations make for a target. -/
def entriesFor (target : String) (annotations : List Annotation) : List MarkdownEntry :=
  annotations.filterMap fun note =>
    (roles.sectionFor? note.property).map fun entry => ⟨entry.source, target, note.value⟩

end AnnotationRoles

/-- The target of a property of a class. -/
def propertyTarget (iri property : String) : String :=
  Iri.localName iri ++ "#" ++ Iri.localName property

/-- The entries of a class: its own annotations, those of its properties, and those of its subclass
axioms for every property that such an axiom restricts. -/
def Ontology.markdownEntries (ontology : Ontology) (roles : AnnotationRoles) (iri : String) :
    List MarkdownEntry :=
  roles.entriesFor (Iri.localName iri) (ontology.annotations iri) ++
    (ontology.propertiesOf .data iri ++ ontology.propertiesOf .object iri).flatMap
      (fun declaration =>
        roles.entriesFor (propertyTarget iri declaration.iri) declaration.annotations) ++
    (ontology.subclassAxiomsOf iri).flatMap (fun statement =>
      statement.sup.restrictedProperties.flatMap fun property =>
        roles.entriesFor (propertyTarget iri property) statement.annotations)

namespace MarkdownTables

/-- A text inside a cell: pipes are escaped, and line feeds become blanks. -/
def escapeCell (text : String) : String :=
  String.ofList (text.toList.flatMap fun c =>
    if c = '|' then ['\\', '|'] else if c = '\n' then [' '] else [c])

def row (target text : String) : String := "| " ++ target ++ " | " ++ escapeCell text ++ " |\n"

def tableHead : String := "| Name | Description |\n|------|-------------|\n"

def sectionText (entry : MarkdownSection) (table : NameMap String) : String :=
  "## " ++ entry.heading ++ "\n\n" ++
    (if entry.description = "" then "" else entry.description ++ "\n\n") ++ tableHead ++
    String.join (table.entries.map fun (target, text) => row target text)

/-- The configured annotations, each at its first place. -/
def firstSections : (seen : List String) → List MarkdownSection → List MarkdownSection
  | _, [] => []
  | seen, entry :: rest =>
    if seen.contains entry.source then firstSections seen rest
    else entry :: firstSections (entry.source :: seen) rest

/-- A document with one section for every configured annotation that has entries. -/
def render (tables : MarkdownTables) (roles : AnnotationRoles) : String :=
  String.intercalate "\n" ((firstSections [] roles.markdown).filterMap fun entry =>
    let table := tables.table entry.source
    if table.isEmpty then none else some (sectionText entry table))

end MarkdownTables

end OntoSchema
