import OntoSchema.Compilation
import OntoSchema.Lint
import OntoSchema.SchemaNode.Written

/-!
# Results as JSON
-/

namespace OntoSchema

def PathEntry.toJson (entry : PathEntry) : Json :=
  .object ([("operation", .string entry.operation.key), ("method", .string entry.method.text),
    ("path", .string entry.path)] ++ SchemaNode.field? "key_name" .string entry.keyName)

def ClassOperations.toJson (operations : ClassOperations) : Json :=
  .object [("class", .string operations.subject),
    ("operations", .strings (operations.operations.map Operation.key)),
    ("paths", .array (operations.paths.map PathEntry.toJson))]

def NameMap.toJson {α : Type} (write : α → Json) (map : NameMap α) : Json :=
  .object (map.entries.map fun (name, value) => (name, write value))

def MarkdownTables.toJson (tables : MarkdownTables) : Json :=
  NameMap.toJson (NameMap.toJson .string) tables

def Compilation.toJson (compilation : Compilation) : Json :=
  .object [("schemas", compilation.schemas.toJson SchemaNode.toJson),
    ("operations", compilation.operations.toJson ClassOperations.toJson),
    ("markdown", MarkdownTables.toJson compilation.markdown)]

namespace Finding

def toJson (finding : Finding) : Json :=
  .object [("severity", .string finding.severity.text), ("code", .string finding.code),
    ("path", .string finding.path), ("message", .string finding.message)]

/-- Findings with the numbers of errors and warnings. -/
def summaryToJson (findings : List Finding) : Json :=
  .object [("errors", .ofNat (errorCount findings)), ("warnings", .ofNat (warningCount findings)),
    ("diagnostics", .array (findings.map toJson))]

end Finding

end OntoSchema
