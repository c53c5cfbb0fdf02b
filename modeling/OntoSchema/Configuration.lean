import OntoSchema.Iri
import OntoSchema.NameMap
import OntoSchema.Operation

/-!
# Configurations

A `Configuration` says how schemas are made, which annotations matter, and which operations and
paths a class has. The default value of every field is the setting of an empty document; the
settings of an operation inside `PathSettings` have other defaults than a lone
`OperationSettings`.
-/

namespace OntoSchema

/-- The annotation properties that describe an entity, in the order in which they are tried. -/
def defaultDescriptionProperties : List String :=
  ["http://www.w3.org/2000/01/rdf-schema#comment",
    "http://www.w3.org/2004/02/skos/core#definition",
    "http://purl.org/dc/terms/description",
    "http://purl.org/dc/elements/1.1/description",
    "http://www.w3.org/ns/prov#definition"]

structure SchemaOptions where
  /-- Follow a class to its superclasses. -/
  followReferences : Bool := true
  /-- Refer to superclasses instead of copying their properties. -/
  useInheritanceReferences : Bool := false
  defaultDescriptions : Bool := true
  defaultProperties : Bool := true
  /-- Keep every property an array. -/
  alwaysGenerateArrays : Bool := true
  requiredFromCardinality : Bool := false
  /-- Give properties of one value singular names and arrays plural names. -/
  fixPropertyNames : Bool := false
  descriptionProperties : List String := defaultDescriptionProperties
deriving DecidableEq

/-- An annotation that becomes a section of the documentation. -/
structure MarkdownSection where
  /-- The IRI or the local name of the annotation property. -/
  source : String
  heading : String
  description : String := ""
deriving DecidableEq

/-- The names of the annotation properties that set flags and examples. -/
structure AnnotationRoles where
  readOnly : String := "readOnly"
  writeOnly : String := "writeOnly"
  exampleName : String := "example"
  markdown : List MarkdownSection := []
deriving DecidableEq

/-- The first section for an annotation property. -/
def AnnotationRoles.sectionFor? (roles : AnnotationRoles) (property : String) :
    Option MarkdownSection :=
  roles.markdown.find? fun entry => Iri.answersTo property entry.source

structure OperationSettings where
  enabled : Bool := false
  keyName : Option String := none
  pathSuffix : Option String := none
deriving DecidableEq

structure PathSettings where
  getAll : OperationSettings := { enabled := true }
  getByKey : OperationSettings := { enabled := true }
  postSingle : OperationSettings := { enabled := true }
  postBulk : OperationSettings := {}
  putByKey : OperationSettings := { enabled := true }
  putBulk : OperationSettings := {}
  deleteByKey : OperationSettings := { enabled := true }
  searchByPost : OperationSettings := {}
  keyName : String := "id"
  bulkPathSuffix : String := "_bulk"
  searchPathSuffix : String := "_search"
deriving DecidableEq

def PathSettings.settings (paths : PathSettings) : Operation → OperationSettings
  | .deleteByKey => paths.deleteByKey
  | .getAll => paths.getAll
  | .getByKey => paths.getByKey
  | .postBulk => paths.postBulk
  | .postSingle => paths.postSingle
  | .putBulk => paths.putBulk
  | .putByKey => paths.putByKey
  | .searchByPost => paths.searchByPost

/-- What one class changes about its operations and paths. -/
structure ClassPolicy where
  /-- If there are any, only these operations are offered. -/
  allowOperations : List String := []
  denyOperations : List String := []
  keyName : Option String := none
  pathSuffix : Option String := none
  /-- Stands for the plural of the class name in paths. -/
  collectionName : Option String := none
deriving DecidableEq

structure Configuration where
  schema : SchemaOptions := {}
  /-- Without roles, annotations set nothing on properties. -/
  annotations : Option AnnotationRoles := some {}
  paths : PathSettings := {}
  /-- Policies by the IRI or the local name of a class. -/
  policies : NameMap ClassPolicy := ∅
  /-- The classes to compile by IRI or local name; all of them when absent. -/
  classes : Option (List String) := none
deriving DecidableEq

/-- The policy of a class; one under its IRI comes before one under its local name. -/
def Configuration.policyFor? (configuration : Configuration) (iri : String) : Option ClassPolicy :=
  match configuration.policies.get? iri with
  | some policy => some policy
  | none => configuration.policies.get? (Iri.localName iri)

end OntoSchema
