/-!
# What a build reports

Warnings do not stop a build. They are reported in the order in which they arise.
-/

namespace OntoSchema

inductive Warning where
  | undeclaredClass (name ontology : String)
  | renameRefused (subject property wanted : String)
  | unknownOperation (label subject : String)
  | repeatedSchemaName (name : String)
deriving DecidableEq

def Warning.message : Warning → String
  | undeclaredClass name ontology =>
    "class " ++ name ++ " is not declared in " ++ ontology ++ ", skipping"
  | renameRefused subject property wanted =>
    subject ++ ": cannot rename " ++ property ++ " to " ++ wanted ++ ", name already taken"
  | unknownOperation label subject =>
    "ignoring unknown operation '" ++ label ++ "' configured for " ++ subject
  | repeatedSchemaName name =>
    "schema name " ++ name ++ " is produced by more than one class"

end OntoSchema
