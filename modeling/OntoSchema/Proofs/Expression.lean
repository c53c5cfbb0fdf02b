import OntoSchema.ClassBuild.Members

/-!
# Parts of class expressions

`Within opens part whole` says that opening boolean combinations leads from an expression to one of
its parts, where `opens` tells which combinations may be opened. The functions that collect
conjuncts, implied classes and the classes of a filler are described by it.
-/

namespace OntoSchema

namespace ClassExpression

/-- A part of an expression behind combinations that may be opened. -/
inductive Within (opens : Role → Connective → Prop) : ClassExpression → ClassExpression → Prop
  | whole (expression : ClassExpression) : Within opens expression expression
  | operand {role : Role} {connective : Connective} {operands : List ClassExpression}
      {operand part : ClassExpression} :
      opens role connective → operand ∈ operands → Within opens part operand →
        Within opens part (combination role connective operands)

/-- Only intersections of classes may be opened. -/
def OpensIntersections (role : Role) (connective : Connective) : Prop :=
  role = .object ∧ connective = .intersection

/-- Every intersection and union may be opened. -/
def OpensAll (_ : Role) (_ : Connective) : Prop := True

theorem induction_on_operands {motive : ClassExpression → Prop}
    (combination : ∀ role connective operands, (∀ operand ∈ operands, motive operand) →
      motive (combination role connective operands))
    (simple : ∀ expression, (∀ role connective operands,
      expression ≠ .combination role connective operands) → motive expression) :
    ∀ expression, motive expression
  | .combination role connective operands => combination role connective operands
      fun operand _ => induction_on_operands combination simple operand
  | .named _ | .datatype _ | .quantified _ _ _ _ | .cardinality _ _ _ _ _ | .hasIndividual _ _
  | .hasLiteral _ _ | .hasSelf _ | .oneOfIndividuals _ | .oneOfLiterals _ | .complement _ _ =>
    simple _ nofun

variable {opens : Role → Connective → Prop}

theorem within_combination_iff {role : Role} {connective : Connective}
    {operands : List ClassExpression} {part : ClassExpression}
    (hpart : part ≠ combination role connective operands) :
    Within opens part (combination role connective operands) ↔
      opens role connective ∧ ∃ operand ∈ operands, Within opens part operand := by
  constructor
  · intro h
    cases h with
    | whole => exact absurd rfl hpart
    | operand hopens hmem h => exact ⟨hopens, _, hmem, h⟩
  · rintro ⟨hopens, operand, hmem, h⟩
    exact .operand hopens hmem h

theorem within_simple_iff {expression part : ClassExpression}
    (hsimple : ∀ role connective operands,
      expression ≠ combination role connective operands) :
    Within opens part expression ↔ part = expression := by
  constructor
  · intro h
    cases h with
    | whole => rfl
    | operand => exact absurd rfl (hsimple _ _ _)
  · rintro rfl
    exact .whole part

theorem conjunctsOfAll_eq_flatMap (operands : List ClassExpression) :
    conjunctsOfAll operands = operands.flatMap conjuncts := by
  induction operands with
  | nil => rfl
  | cons operand rest ih => rw [conjunctsOfAll, ih, List.flatMap_cons]

theorem conjunctClassesOfAll_eq_flatMap (operands : List ClassExpression) :
    conjunctClassesOfAll operands = operands.flatMap conjunctClasses := by
  induction operands with
  | nil => rfl
  | cons operand rest ih => rw [conjunctClassesOfAll, ih, List.flatMap_cons]

theorem fillerClassesOfAll_eq_flatMap (operands : List ClassExpression) :
    fillerClassesOfAll operands = operands.flatMap fillerClasses := by
  induction operands with
  | nil => rfl
  | cons operand rest ih => rw [fillerClassesOfAll, ih, List.flatMap_cons]

theorem property?_isSome_of_restricted {part : ClassExpression} {iri : String}
    (h : part.restrictedProperty? = some iri) : part.property?.isSome := by
  unfold restrictedProperty? at h
  split at h
  · rw [h]
    rfl
  · cases h

theorem property?_isSome_of_filler {part filler : ClassExpression}
    (h : part.filler? = some filler) : part.property?.isSome := by
  cases part <;> first | rfl | cases h

/-- An expression about a property is a conjunct exactly if intersections lead to it. -/
theorem mem_conjuncts_iff {part : ClassExpression} (hpart : part.property?.isSome)
    (whole : ClassExpression) :
    part ∈ whole.conjuncts ↔ Within OpensIntersections part whole := by
  have hne : ∀ role connective operands, part ≠ combination role connective operands := by
    rintro role connective operands rfl
    cases hpart
  induction whole using induction_on_operands with
  | combination role connective operands ih =>
    rw [within_combination_iff (hne _ _ _)]
    cases role <;> cases connective <;>
      simp only [conjuncts, conjunctsOfAll_eq_flatMap, OpensIntersections, List.mem_flatMap,
        List.mem_singleton, hne, true_and, false_and, reduceCtorEq, and_false, and_self]
    exact exists_congr fun operand => and_congr_right fun hmem => ih operand hmem
  | simple expression hsimple =>
    rw [within_simple_iff hsimple]
    cases expression with
    | named iri =>
      refine ⟨fun h => absurd h List.not_mem_nil, ?_⟩
      rintro rfl
      cases hpart
    | combination => exact absurd rfl (hsimple _ _ _)
    | _ => exact List.mem_singleton

theorem named_ne_combination (iri : String) (role : Role) (connective : Connective)
    (operands : List ClassExpression) : named iri ≠ combination role connective operands := nofun

theorem mem_conjunctClasses_iff {iri : String} (whole : ClassExpression) :
    iri ∈ whole.conjunctClasses ↔ Within OpensIntersections (named iri) whole := by
  induction whole using induction_on_operands with
  | combination role connective operands ih =>
    rw [within_combination_iff (named_ne_combination _ _ _ _)]
    cases role <;> cases connective <;>
      simp only [conjunctClasses, conjunctClassesOfAll_eq_flatMap, OpensIntersections,
        List.mem_flatMap, List.not_mem_nil, true_and, false_and, reduceCtorEq, and_false, and_self]
    exact exists_congr fun operand => and_congr_right fun hmem => ih operand hmem
  | simple expression hsimple =>
    rw [within_simple_iff hsimple]
    cases expression with
    | named other => rw [conjunctClasses, List.mem_singleton, named.injEq]
    | combination => exact absurd rfl (hsimple _ _ _)
    | _ => exact ⟨fun h => absurd h List.not_mem_nil, nofun⟩

theorem mem_fillerClasses_iff {iri : String} (whole : ClassExpression) :
    iri ∈ whole.fillerClasses ↔ iri ≠ owlThing ∧ Within OpensAll (named iri) whole := by
  induction whole using induction_on_operands with
  | combination role connective operands ih =>
    rw [within_combination_iff (named_ne_combination _ _ _ _), fillerClasses,
      fillerClassesOfAll_eq_flatMap, List.mem_flatMap]
    constructor
    · rintro ⟨operand, hmem, h⟩
      obtain ⟨hthing, hpart⟩ := (ih operand hmem).1 h
      exact ⟨hthing, trivial, operand, hmem, hpart⟩
    · rintro ⟨hthing, _, operand, hmem, hpart⟩
      exact ⟨operand, hmem, (ih operand hmem).2 ⟨hthing, hpart⟩⟩
  | simple expression hsimple =>
    rw [within_simple_iff hsimple]
    cases expression with
    | named other =>
      rw [fillerClasses, named.injEq]
      split
      · rename_i hthing
        refine ⟨fun h => absurd h List.not_mem_nil, ?_⟩
        rintro ⟨hne, rfl⟩
        exact absurd hthing hne
      · rename_i hthing
        rw [List.mem_singleton]
        refine ⟨?_, fun h => h.2⟩
        rintro rfl
        exact ⟨hthing, rfl⟩
    | combination => exact absurd rfl (hsimple _ _ _)
    | _ => exact ⟨fun h => absurd h List.not_mem_nil, fun h => nomatch h.2⟩

end ClassExpression

end OntoSchema
