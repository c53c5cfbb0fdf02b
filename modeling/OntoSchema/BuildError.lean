/-!
# What stops a build

A build fails when a class needs a name but the ontology registers no namespaces, or when the policy
of a class allows and denies the same operation.
-/

namespace OntoSchema

inductive BuildError where
  | missingPrefixes (ontology subject : String)
  /-- The operations are labels in ascending order. -/
  | conflictingOperations (subject : String) (operations : List String)
deriving DecidableEq

def BuildError.message : BuildError → String
  | missingPrefixes ontology subject =>
    "ontology " ++ ontology ++ " has no prefix document format; cannot name schema for " ++ subject
  | conflictingOperations subject operations =>
    "class " ++ subject ++ " both allows and denies operations: " ++
      String.intercalate ", " operations

def BuildError.exitCode : BuildError → Nat
  | missingPrefixes _ _ | conflictingOperations _ _ => 2

/-- A computation in two steps ends well just when both steps do. -/
theorem bind_eq_ok_iff {ε α β : Type} {first : Except ε α} {next : α → Except ε β} {result : β} :
    (first >>= next) = .ok result ↔ ∃ value, first = .ok value ∧ next value = .ok result := by
  cases first with
  | error error => exact iff_of_false nofun fun ⟨_, h, _⟩ => nomatch h
  | ok value => exact ⟨fun h => ⟨value, rfl, h⟩, fun ⟨_, heq, h⟩ => Except.ok.inj heq ▸ h⟩

end OntoSchema
