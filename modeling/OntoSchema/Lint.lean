import OntoSchema.Ontology
import OntoSchema.Operation.Policy

/-!
# Linting configurations

Every finding has a code and the path of its place in the configuration. A conflicting policy is an
error; unknown labels, classes that the ontology lacks and sections without a heading are warnings.
-/

namespace OntoSchema

inductive Severity where
  | error
  | warning
deriving DecidableEq

def Severity.text : Severity → String
  | error => "error"
  | warning => "warning"

/-- What is wrong, and with what. -/
inductive Finding where
  | conflict (subject : String) (operations : List Operation)
  | unknownLabel (subject list : String) (index : Nat) (label : String)
  | undeclaredPolicy (subject ontology : String)
  | undeclaredSelection (index : Nat) (name ontology : String)
  | emptyHeading (index : Nat) (source : String)
deriving DecidableEq

namespace Finding

def severity : Finding → Severity
  | conflict .. => .error
  | unknownLabel .. | undeclaredPolicy .. | undeclaredSelection .. | emptyHeading .. => .warning

def code : Finding → String
  | conflict .. => "E001"
  | unknownLabel .. => "W001"
  | undeclaredPolicy .. => "W002"
  | undeclaredSelection .. => "W003"
  | emptyHeading .. => "W004"

def path : Finding → String
  | conflict subject _ | undeclaredPolicy subject _ => "/paths_for_class/" ++ subject
  | unknownLabel subject list index _ =>
    "/paths_for_class/" ++ subject ++ "/" ++ list ++ "/" ++ toString index
  | undeclaredSelection index _ _ => "/classes/" ++ toString index
  | emptyHeading index _ => "/annotations/markdown/" ++ toString index ++ "/heading"

def message : Finding → String
  | conflict _ operations =>
    "operations both allowed and denied: " ++
      String.intercalate ", " (operations.map Operation.label)
  | unknownLabel _ _ _ label =>
    "unknown operation \"" ++ label ++ "\" (expected one of: " ++
      String.intercalate ", " Operation.labels ++ ")"
  | undeclaredPolicy name ontology | undeclaredSelection _ name ontology =>
    "class " ++ name ++ " is not declared in " ++ ontology
  | emptyHeading _ source => "markdown annotation " ++ source ++ " has an empty heading"

end Finding

/-- The labels of a list that denote no operation. -/
def lintLabels (subject list : String) (labels : List String) : List Finding :=
  labels.zipIdx.filterMap fun (label, index) =>
    if (Operation.ofLabel? label).isNone then some (.unknownLabel subject list index label)
    else none

def lintPolicy (subject : String) (policy : ClassPolicy) : List Finding :=
  let overlap := policy.allowed.filter policy.denied.contains
  lintLabels subject "allow_operations" policy.allowOperations ++
    lintLabels subject "deny_operations" policy.denyOperations ++
    (if overlap.isEmpty then [] else [.conflict subject overlap])

/-- The policies and selected classes that an ontology does not know. -/
def lintClasses (configuration : Configuration) (ontology : Ontology) : List Finding :=
  ((configuration.policies.names.filter fun name => !ontology.declaresName name).map fun name =>
    .undeclaredPolicy name ontology.iri) ++
  (configuration.classes.getD []).zipIdx.filterMap fun (name, index) =>
    if ontology.declaresName name then none
    else some (.undeclaredSelection index name ontology.iri)

def lintSections : Option AnnotationRoles → List Finding
  | none => []
  | some roles => roles.markdown.zipIdx.filterMap fun (entry, index) =>
      if Text.trim entry.heading = "" then some (.emptyHeading index entry.source) else none

/-- All findings: policies by class, then classes, then sections. -/
def Configuration.lint (configuration : Configuration) (ontology : Option Ontology) :
    List Finding :=
  (configuration.policies.entries.flatMap fun (subject, policy) => lintPolicy subject policy) ++
    (ontology.map (lintClasses configuration)).getD [] ++ lintSections configuration.annotations

namespace Finding

def errorCount (findings : List Finding) : Nat :=
  (findings.filter (·.severity == .error)).length

def warningCount (findings : List Finding) : Nat := findings.length - errorCount findings

/-- Whether there are no errors, and no warnings if `strict`. -/
def passes (strict : Bool) (findings : List Finding) : Bool :=
  errorCount findings == 0 && !(strict && warningCount findings > 0)

end Finding

end OntoSchema
