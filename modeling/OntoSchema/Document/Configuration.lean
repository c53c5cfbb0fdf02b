import OntoSchema.Configuration
import OntoSchema.Document.Record
import OntoSchema.Json.Reader

/-!
# Configuration documents

A configuration is written with all its fields. A document may leave keys out: a missing key takes
the default of the record around it. Null switches the annotation roles off.
-/

namespace OntoSchema

open Json

def textOrNull : Option String → Json := .ofOption .string

namespace SchemaOptions

def toJson (options : SchemaOptions) : Json :=
  .object [("follow_references", .bool options.followReferences),
    ("use_inheritance_references", .bool options.useInheritanceReferences),
    ("default_descriptions", .bool options.defaultDescriptions),
    ("default_properties", .bool options.defaultProperties),
    ("always_generate_arrays", .bool options.alwaysGenerateArrays),
    ("required_properties_from_cardinality", .bool options.requiredFromCardinality),
    ("fix_singular_plural_property_names", .bool options.fixPropertyNames),
    ("description_properties", .strings options.descriptionProperties)]

def keys : List String :=
  ["follow_references", "use_inheritance_references", "default_descriptions",
    "default_properties", "always_generate_arrays", "required_properties_from_cardinality",
    "fix_singular_plural_property_names", "description_properties"]

def ofJson? (value : Json) : Option SchemaOptions := do
  let field ← value.record? keys
  let missing : SchemaOptions := {}
  return {
    followReferences := ← withDefault missing.followReferences bool? (field "follow_references")
    useInheritanceReferences :=
      ← withDefault missing.useInheritanceReferences bool? (field "use_inheritance_references")
    defaultDescriptions :=
      ← withDefault missing.defaultDescriptions bool? (field "default_descriptions")
    defaultProperties := ← withDefault missing.defaultProperties bool? (field "default_properties")
    alwaysGenerateArrays :=
      ← withDefault missing.alwaysGenerateArrays bool? (field "always_generate_arrays")
    requiredFromCardinality :=
      ← withDefault missing.requiredFromCardinality bool?
        (field "required_properties_from_cardinality")
    fixPropertyNames :=
      ← withDefault missing.fixPropertyNames bool? (field "fix_singular_plural_property_names")
    descriptionProperties :=
      ← withDefault missing.descriptionProperties (list? string?)
        (field "description_properties") }

def shape : Shape := .record (keys.map fun key => (key, .whole))

end SchemaOptions

namespace MarkdownSection

def toJson (entry : MarkdownSection) : Json :=
  .object [("annotation", .string entry.source), ("heading", .string entry.heading),
    ("description", .string entry.description)]

def keys : List String := ["annotation", "heading", "description"]

def ofJson? (value : Json) : Option MarkdownSection := do
  let field ← value.record? keys
  return {
    source := ← required string? (field "annotation")
    heading := ← required string? (field "heading")
    description := ← withDefault "" string? (field "description") }

def shape : Shape := .record (keys.map fun key => (key, .whole))

end MarkdownSection

namespace AnnotationRoles

def toJson (roles : AnnotationRoles) : Json :=
  .object [("read_only", .string roles.readOnly), ("write_only", .string roles.writeOnly),
    ("example", .string roles.exampleName),
    ("markdown", .array (roles.markdown.map MarkdownSection.toJson))]

def ofJson? (value : Json) : Option AnnotationRoles := do
  let field ← value.record? ["read_only", "write_only", "example", "markdown"]
  let missing : AnnotationRoles := {}
  return {
    readOnly := ← withDefault missing.readOnly string? (field "read_only")
    writeOnly := ← withDefault missing.writeOnly string? (field "write_only")
    exampleName := ← withDefault missing.exampleName string? (field "example")
    markdown := ← withDefault missing.markdown (list? MarkdownSection.ofJson?)
      (field "markdown") }

def shape : Shape :=
  .record [("read_only", .whole), ("write_only", .whole), ("example", .whole),
    ("markdown", .list MarkdownSection.shape)]

end AnnotationRoles

namespace OperationSettings

def toJson (settings : OperationSettings) : Json :=
  .object [("enabled", .bool settings.enabled), ("key_name", textOrNull settings.keyName),
    ("path_suffix", textOrNull settings.pathSuffix)]

def keys : List String := ["enabled", "key_name", "path_suffix"]

def ofJson? (value : Json) : Option OperationSettings := do
  let field ← value.record? keys
  let missing : OperationSettings := {}
  return {
    enabled := ← withDefault missing.enabled bool? (field "enabled")
    keyName := ← withDefault missing.keyName (nullable? string?) (field "key_name")
    pathSuffix := ← withDefault missing.pathSuffix (nullable? string?) (field "path_suffix") }

def shape : Shape := .record (keys.map fun key => (key, .whole))

end OperationSettings

namespace PathSettings

def toJson (paths : PathSettings) : Json :=
  .object [("get_all", paths.getAll.toJson), ("get_by_key", paths.getByKey.toJson),
    ("post_single", paths.postSingle.toJson), ("post_bulk", paths.postBulk.toJson),
    ("put_by_key", paths.putByKey.toJson), ("put_bulk", paths.putBulk.toJson),
    ("delete_by_key", paths.deleteByKey.toJson), ("search_by_post", paths.searchByPost.toJson),
    ("key_name", .string paths.keyName), ("bulk_path_suffix", .string paths.bulkPathSuffix),
    ("search_path_suffix", .string paths.searchPathSuffix)]

def operationKeys : List String :=
  ["get_all", "get_by_key", "post_single", "post_bulk", "put_by_key", "put_bulk", "delete_by_key",
    "search_by_post"]

def textKeys : List String := ["key_name", "bulk_path_suffix", "search_path_suffix"]

def ofJson? (value : Json) : Option PathSettings := do
  let field ← value.record? (operationKeys ++ textKeys)
  let missing : PathSettings := {}
  let settings (absent : OperationSettings) (key : String) : Option OperationSettings :=
    withDefault absent OperationSettings.ofJson? (field key)
  return {
    getAll := ← settings missing.getAll "get_all"
    getByKey := ← settings missing.getByKey "get_by_key"
    postSingle := ← settings missing.postSingle "post_single"
    postBulk := ← settings missing.postBulk "post_bulk"
    putByKey := ← settings missing.putByKey "put_by_key"
    putBulk := ← settings missing.putBulk "put_bulk"
    deleteByKey := ← settings missing.deleteByKey "delete_by_key"
    searchByPost := ← settings missing.searchByPost "search_by_post"
    keyName := ← withDefault missing.keyName string? (field "key_name")
    bulkPathSuffix := ← withDefault missing.bulkPathSuffix string? (field "bulk_path_suffix")
    searchPathSuffix :=
      ← withDefault missing.searchPathSuffix string? (field "search_path_suffix") }

def shape : Shape :=
  .record (operationKeys.map (fun key => (key, OperationSettings.shape)) ++
    textKeys.map fun key => (key, .whole))

end PathSettings

namespace ClassPolicy

def toJson (policy : ClassPolicy) : Json :=
  .object [("allow_operations", .strings policy.allowOperations),
    ("deny_operations", .strings policy.denyOperations), ("key_name", textOrNull policy.keyName),
    ("path_suffix", textOrNull policy.pathSuffix),
    ("collection_name", textOrNull policy.collectionName)]

def keys : List String :=
  ["allow_operations", "deny_operations", "key_name", "path_suffix", "collection_name"]

def ofJson? (value : Json) : Option ClassPolicy := do
  let field ← value.record? keys
  let missing : ClassPolicy := {}
  return {
    allowOperations :=
      ← withDefault missing.allowOperations (list? string?) (field "allow_operations")
    denyOperations :=
      ← withDefault missing.denyOperations (list? string?) (field "deny_operations")
    keyName := ← withDefault missing.keyName (nullable? string?) (field "key_name")
    pathSuffix := ← withDefault missing.pathSuffix (nullable? string?) (field "path_suffix")
    collectionName :=
      ← withDefault missing.collectionName (nullable? string?) (field "collection_name") }

def shape : Shape := .record (keys.map fun key => (key, .whole))

/-- Reads a policy, or nothing from null. -/
def parseNullable? (text : String) : Option (Option ClassPolicy) :=
  (Json.read? shape text).bind (nullable? ofJson?)

end ClassPolicy

namespace Configuration

def toJson (configuration : Configuration) : Json :=
  .object [("schema", configuration.schema.toJson),
    ("annotations", .ofOption AnnotationRoles.toJson configuration.annotations),
    ("paths", configuration.paths.toJson),
    ("paths_for_class", .object (configuration.policies.entries.map fun (subject, policy) =>
      (subject, policy.toJson))),
    ("classes", .ofOption .strings configuration.classes)]

def ofJson? (value : Json) : Option Configuration := do
  let field ← value.record? ["schema", "annotations", "paths", "paths_for_class", "classes"]
  let missing : Configuration := {}
  return {
    schema := ← withDefault missing.schema SchemaOptions.ofJson? (field "schema")
    annotations :=
      ← withDefault missing.annotations (nullable? AnnotationRoles.ofJson?) (field "annotations")
    paths := ← withDefault missing.paths PathSettings.ofJson? (field "paths")
    policies := ← withDefault missing.policies (map? ClassPolicy.ofJson?) (field "paths_for_class")
    classes := ← withDefault missing.classes (nullable? (list? string?)) (field "classes") }

def shape : Shape :=
  .record [("schema", SchemaOptions.shape), ("annotations", AnnotationRoles.shape),
    ("paths", PathSettings.shape), ("paths_for_class", .map ClassPolicy.shape),
    ("classes", .whole)]

/-- Reads a configuration from the text of its document. -/
def parse? (text : String) : Option Configuration := (Json.read? shape text).bind ofJson?

end Configuration

end OntoSchema
