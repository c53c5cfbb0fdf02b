import OntoSchema.Inflector
import OntoSchema.Operation.Policy

/-!
# Paths of a class

Every effective operation of a class has one path below the path of its collection: by-key
operations end in a key segment, bulk operations and the search in a suffix, and the others stand
at the collection itself. Settings of the class come before those of the operation, and these
before the common ones.
-/

namespace OntoSchema

structure PathEntry where
  operation : Operation
  path : String
  /-- The parameter of a by-key operation. -/
  keyName : Option String := none
deriving DecidableEq

def PathEntry.method (entry : PathEntry) : HttpVerb := entry.operation.verb

structure ClassOperations where
  subject : String
  operations : List Operation
  paths : List PathEntry
deriving DecidableEq

def trimSlashes (text : String) : String := Text.trimWhere (· == '/') text

namespace PathSettings

variable (paths : PathSettings) (policy : Option ClassPolicy) (operation : Operation)

def keyFor : String :=
  match policy.bind ClassPolicy.keyName, (paths.settings operation).keyName with
  | some key, _ => key
  | none, some key => key
  | none, none => paths.keyName

def bulkSuffixFor : String :=
  match policy.bind ClassPolicy.pathSuffix, (paths.settings operation).pathSuffix with
  | some suffix, _ => suffix
  | none, some suffix => suffix
  | none, none => paths.bulkPathSuffix

/-- The suffix of the search, which no class changes. -/
def searchSuffixFor : String :=
  (paths.settings operation).pathSuffix.getD paths.searchPathSuffix

/-- The segment that stands for a key. -/
def keySegment (key : String) : String := "\x7b" ++ key ++ "\x7d"

/-- The path of an operation below the path of its collection. -/
def entryFor (base : String) : PathEntry :=
  if operation.isByKey then
    let key := paths.keyFor policy operation
    ⟨operation, base ++ "/" ++ keySegment key, some key⟩
  else if operation.isBulk then
    ⟨operation, base ++ "/" ++ trimSlashes (paths.bulkSuffixFor policy operation), none⟩
  else if operation = .searchByPost then
    ⟨operation, base ++ "/" ++ trimSlashes (paths.searchSuffixFor operation), none⟩
  else ⟨operation, base, none⟩

end PathSettings

/-- The name of a class's collection: as configured, or the plural of its local name. -/
def collectionName (iri : String) (inflector : Inflector) (policy : Option ClassPolicy) : String :=
  (policy.bind ClassPolicy.collectionName).getD
    (inflector.pluralize (Text.lowercase (Iri.localName iri)))

/-- The operations of a class and their paths. -/
def Configuration.operationsOf (configuration : Configuration) (inflector : Inflector)
    (iri : String) : Except BuildError ClassOperations := do
  let policy := configuration.policyFor? iri
  let operations ← effectiveOperations iri configuration.paths policy
  let base := "/" ++ trimSlashes (collectionName iri inflector policy)
  return ⟨iri, operations, operations.map fun operation =>
    configuration.paths.entryFor policy operation base⟩

end OntoSchema
