import OntoSchema.ClassBuild.Stages
import OntoSchema.Proofs.Expression

/-!
# Naming never fails on an ontology with namespaces

Only a missing table of namespaces stops the naming of a schema. With namespaces every class has
the name `qualifiedName` gives it, and every step that names classes on its way has a result.
-/

namespace OntoSchema.Ontology

variable {ontology : Ontology} {prefixes : NameMap String}

theorem schemaName_eq (hprefixes : ontology.prefixes? = some prefixes) (iri : String) :
    ontology.schemaName iri = .ok (qualifiedName prefixes iri) := by
  unfold schemaName
  rw [hprefixes]

theorem prefixes?_of_schemaName {iri name : String} (h : ontology.schemaName iri = .ok name) :
    ∃ prefixes, ontology.prefixes? = some prefixes := by
  unfold schemaName at h
  split at h
  · cases h
  · exact ⟨_, ‹_›⟩

theorem mapM_schemaName (hprefixes : ontology.prefixes? = some prefixes) (iris : List String) :
    iris.mapM ontology.schemaName = .ok (iris.map (qualifiedName prefixes)) := by
  induction iris with
  | nil => rfl
  | cons iri rest ih =>
    rw [List.mapM_cons, schemaName_eq hprefixes, ih]
    rfl

/-- References to the schemas of some classes. -/
def referencesTo (prefixes : NameMap String) (iris : List String) : List SchemaNode :=
  iris.map fun iri => .referenceTo (qualifiedName prefixes iri)

/-- An array whose items are any of some variants; without variants its items are left open. -/
def arrayOfVariants : List SchemaNode → SchemaNode
  | [] => .ofType .array
  | [variant] => .arrayOf variant
  | variants => .arrayOf (.oneOfNodes variants)

theorem objectSchema_eq (hprefixes : ontology.prefixes? = some prefixes)
    (declaration : PropertyDeclaration) :
    declaration.objectSchema ontology =
      .ok (arrayOfVariants (referencesTo prefixes declaration.rangeClasses)) := by
  unfold PropertyDeclaration.objectSchema
  rw [mapM_schemaName hprefixes]
  have hmap : (declaration.rangeClasses.map (qualifiedName prefixes)).map SchemaNode.referenceTo =
      referencesTo prefixes declaration.rangeClasses := List.map_map
  simp only [bind, Except.bind, hmap]
  generalize referencesTo prefixes declaration.rangeClasses = references
  match references with
  | [] | [_] | _ :: _ :: _ => rfl

theorem exists_propertySchema (hprefixes : ontology.prefixes? = some prefixes)
    (declaration : Option (Role × PropertyDeclaration)) :
    ∃ node, ontology.propertySchema declaration = .ok node := by
  rcases declaration with _ | ⟨role, declaration⟩
  · exact ⟨_, rfl⟩
  · cases role with
    | object => exact ⟨_, objectSchema_eq hprefixes declaration⟩
    | data => exact ⟨_, rfl⟩

end OntoSchema.Ontology

namespace OntoSchema.ClassExpression

variable {ontology : Ontology} {prefixes : NameMap String}

theorem exists_fillerSchemas {operands : List ClassExpression}
    (h : ∀ operand ∈ operands, ∃ schema, fillerSchema? ontology operand = .ok schema) :
    ∃ schemas, fillerSchemas ontology operands = .ok schemas := by
  induction operands with
  | nil => exact ⟨[], rfl⟩
  | cons operand rest ih =>
    obtain ⟨first, hfirst⟩ := h operand List.mem_cons_self
    obtain ⟨others, hothers⟩ := ih fun other hm => h other (List.mem_cons_of_mem _ hm)
    exact ⟨first.toList ++ others, by rw [fillerSchemas, hfirst, hothers]; rfl⟩

/-- The schema of a combination: nothing, or the schemas of its operands joined. -/
def joined (connective : Connective) : List SchemaNode → Option SchemaNode
  | [] => none
  | first :: rest =>
    match connective with
    | .union => some (.oneOfNodes (first :: rest))
    | .intersection => some (.allOfNodes (first :: rest))

theorem fillerSchema?_combination {role : Role} {connective : Connective}
    {operands : List ClassExpression} {schemas : List SchemaNode}
    (h : fillerSchemas ontology operands = .ok schemas) :
    fillerSchema? ontology (combination role connective operands) =
      .ok (joined connective schemas) := by
  rw [fillerSchema?, h]
  cases schemas <;> cases connective <;> rfl

theorem exists_fillerSchema? (hprefixes : ontology.prefixes? = some prefixes)
    (filler : ClassExpression) : ∃ schema, fillerSchema? ontology filler = .ok schema := by
  induction filler using induction_on_operands with
  | combination role connective operands ih =>
    obtain ⟨schemas, hschemas⟩ := exists_fillerSchemas ih
    exact ⟨_, fillerSchema?_combination hschemas⟩
  | simple filler hsimple =>
    cases filler with
    | named iri =>
      rw [fillerSchema?, Ontology.schemaName_eq hprefixes]
      split <;> exact ⟨_, rfl⟩
    | combination => exact absurd rfl (hsimple _ _ _)
    | _ => exact ⟨_, rfl⟩

end OntoSchema.ClassExpression
