import OntoSchema.BuildError
import OntoSchema.Configuration
import OntoSchema.NameSet
import OntoSchema.Warning

/-!
# Policies of classes

A policy may not allow and deny the same operation. Labels that denote no operation are compared by
their normal form and otherwise ignored. The effective operations of a class are the allowed ones,
or those enabled for all classes if it allows none, without the denied ones.
-/

namespace OntoSchema

/-- The form in which a label of a policy is compared. -/
def Operation.canonical (label : String) : String :=
  match ofLabel? label with
  | some operation => operation.label
  | none => normalize label

/-- The operations that some labels denote, in the common order. -/
def Operation.denoted (labels : List String) : List Operation :=
  all.filter fun operation => labels.any fun label => ofLabel? label == some operation

theorem Operation.mem_denoted {labels : List String} {operation : Operation} :
    operation ∈ denoted labels ↔ ∃ label ∈ labels, ofLabel? label = some operation := by
  simp [denoted, mem_all]

/-- One warning for every label that denotes no operation. -/
def Operation.unknownLabels (subject : String) (labels : List String) : List Warning :=
  (labels.filter fun label => (ofLabel? label).isNone).map fun label =>
    .unknownOperation label subject

namespace ClassPolicy

variable (policy : ClassPolicy)

def allowed : List Operation := Operation.denoted policy.allowOperations

def denied : List Operation := Operation.denoted policy.denyOperations

/-- The labels that are both allowed and denied, in normal form and ascending order. -/
def overlap : List String :=
  let deny := NameSet.ofList (policy.denyOperations.map Operation.canonical)
  ((NameSet.ofList (policy.allowOperations.map Operation.canonical)).filter deny.contains).toList

def validate (subject : String) : Except BuildError Unit :=
  if policy.overlap.isEmpty then .ok ()
  else .error (.conflictingOperations subject policy.overlap)

theorem mem_overlap {policy : ClassPolicy} {label : String} :
    label ∈ policy.overlap ↔
      label ∈ policy.allowOperations.map Operation.canonical ∧
        label ∈ policy.denyOperations.map Operation.canonical := by
  unfold overlap
  rw [← NameSet.mem_def, NameSet.mem_filter, NameSet.mem_ofList]
  simp [NameSet.contains]

theorem validate_eq_ok_iff {policy : ClassPolicy} {subject : String} :
    policy.validate subject = .ok () ↔ policy.overlap = [] := by
  unfold validate
  split <;> simp_all

end ClassPolicy

/-- Checks every policy; the first conflict in the order of the keys is reported. -/
def Configuration.validate (configuration : Configuration) : Except BuildError Unit :=
  configuration.policies.entries.forM fun entry => entry.2.validate entry.1

/-- The operations that are enabled for all classes. -/
def PathSettings.enabledOperations (paths : PathSettings) : List Operation :=
  Operation.all.filter fun operation => (paths.settings operation).enabled

/-- The operations of a class. -/
def effectiveOperations (subject : String) (paths : PathSettings) :
    Option ClassPolicy → Except BuildError (List Operation)
  | none => .ok paths.enabledOperations
  | some policy => do
    policy.validate subject
    let offered :=
      if policy.allowOperations.isEmpty then paths.enabledOperations else policy.allowed
    return offered.filter fun operation => !policy.denied.contains operation

/-- The warnings that come with the operations of a class. -/
def policyWarnings (subject : String) : Option ClassPolicy → List Warning
  | none => []
  | some policy =>
    Operation.unknownLabels subject policy.allowOperations ++
      Operation.unknownLabels subject policy.denyOperations

end OntoSchema
