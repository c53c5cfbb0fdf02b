import OntoSchema.Document.Ontology
import OntoSchema.Proofs.DistinctKeys
import OntoSchema.Proofs.Omission

/-!
# Documents read back

An expression is read back from what was written of it, at the top and inside other expressions, if
no literal in it repeats a key. Literals of what is read never do. So an ontology is read back
just when it can be read from some value at all, and just when none of its literals repeats a key
(`Ontology.reads_back_iff`).
-/

namespace OntoSchema

open Json

/-- What is read of a list is read of its items. -/
theorem exists_of_mem_list? {α : Type} {read : Json → Option α} {value : Json} {found : List α}
    (h : value.list? read = some found) {entry : α} (hm : entry ∈ found) :
    ∃ item, read item = some entry := by
  unfold list? at h
  split at h
  · rename_i items
    induction items generalizing found with
    | nil =>
      obtain rfl := Option.some.inj h
      cases hm
    | cons item rest ih =>
      rw [List.mapM_cons] at h
      obtain ⟨first, hfirst, h⟩ := Option.bind_eq_some_iff.1 h
      obtain ⟨others, hothers, h⟩ := Option.bind_eq_some_iff.1 h
      obtain rfl := Option.some.inj h
      rcases List.mem_cons.1 hm with rfl | hm
      · exact ⟨item, hfirst⟩
      · exact ih hm hothers
  · cases h

namespace ClassExpression

mutual

/-- The JSON values in an expression, at any depth. -/
def literals : ClassExpression → List Json
  | named _ | datatype _ | hasIndividual _ _ | hasSelf _ | oneOfIndividuals _ => []
  | quantified _ _ _ filler => literals filler
  | cardinality _ _ _ _ filler => literalsOfFiller filler
  | hasLiteral _ value => [value]
  | oneOfLiterals values => values
  | complement _ operand => literals operand
  | combination _ _ operands => literalsOfAll operands

def literalsOfFiller : Option ClassExpression → List Json
  | none => []
  | some filler => literals filler

def literalsOfAll : List ClassExpression → List Json
  | [] => []
  | operand :: rest => literals operand ++ literalsOfAll rest

end

/-- No literal in an expression repeats a key. -/
def Plain (expression : ClassExpression) : Prop :=
  ∀ literal ∈ expression.literals, literal.KeysDiffer

theorem plain_combination_iff {role : Role} {connective : Connective}
    {operands : List ClassExpression} :
    (combination role connective operands).Plain ↔ ∀ operand ∈ operands, operand.Plain := by
  have hall : literalsOfAll operands = operands.flatMap literals := by
    induction operands with
    | nil => rfl
    | cons operand rest ih => rw [literalsOfAll, ih, List.flatMap_cons]
  unfold Plain
  rw [literals, hall]
  simp only [List.mem_flatMap]
  exact ⟨fun h operand hm literal hl => h literal ⟨operand, hm, hl⟩,
    fun h literal ⟨operand, hm, hl⟩ => h operand hm literal hl⟩

theorem restrictionOfTag?_restrictionTag (role : Role) (form : Form) :
    restrictionOfTag? (restrictionTag role form) = some (role, form) := by
  cases role <;> cases form <;> rfl

section Assemble

variable {parts : List (String × Part)} {nested : Bool} {role : Role}

/-- The tags of restrictions are not those of the other constructors. -/
theorem assemble?_of_tag {form : Form}
    (h : Part.tag? parts nested = some (restrictionTag role form)) :
    Part.assemble? parts nested = Part.restriction? parts (role, form) := by
  have hclass : restrictionTag role form ≠ "class" := by
    cases role <;> cases form <;> decide
  have hdatatype : restrictionTag role form ≠ "datatype" := by
    cases role <;> cases form <;> decide
  have hself : restrictionTag role form ≠ "object_has_self" := by
    cases role <;> cases form <;> decide
  unfold Part.assemble?
  rw [h, Option.bind_eq_bind, Option.bind_some, if_neg hclass, if_neg hdatatype, if_neg hself,
    restrictionOfTag?_restrictionTag]
  rfl

theorem assemble?_quantified {quantifier : Quantifier} {property : String}
    {filler : ClassExpression}
    (h : Part.tag? parts nested = some (quantified role quantifier property filler).tag) :
    Part.assemble? parts nested = Part.quantified? parts role quantifier := by
  cases role <;> cases quantifier <;> exact assemble?_of_tag h

theorem assemble?_cardinality {bound : Bound} {property : String} {count : UInt32}
    {filler : Option ClassExpression}
    (h : Part.tag? parts nested = some (cardinality role bound property count filler).tag) :
    Part.assemble? parts nested = Part.cardinality? parts role bound := by
  cases role <;> cases bound <;> exact assemble?_of_tag h

theorem assemble?_combination {connective : Connective} {operands : List ClassExpression}
    (h : Part.tag? parts nested = some (combination role connective operands).tag) :
    Part.assemble? parts nested = Part.combination? parts role connective := by
  cases role <;> cases connective <;> exact assemble?_of_tag h

theorem assemble?_complement
    (h : Part.tag? parts nested = some (restrictionTag role .complementOf)) :
    Part.assemble? parts nested = (Part.expression? parts "operand").map (complement role) := by
  cases role <;> exact assemble?_of_tag h

end Assemble

theorem expressionsOf?_operandsToJson {operands : List ClassExpression}
    (h : ∀ operand ∈ operands, (partOf true operand.toJson).expression = some operand) :
    expressionsOf? (operandsToJson operands) = some operands := by
  induction operands with
  | nil => rfl
  | cons operand rest ih =>
    rw [operandsToJson, expressionsOf?, h operand List.mem_cons_self,
      ih fun other hm => h other (List.mem_cons_of_mem _ hm)]

theorem count?_ofCount (count : UInt32) : (Json.ofCount count).count? = some count := by
  have hsize : (0 : Int) ≤ count.toNat ∧ (count.toNat : Int) < UInt32.size :=
    ⟨Int.natCast_nonneg _, Int.ofNat_lt.2 count.toNat_lt⟩
  have hread : (Json.ofCount count).count? =
      if (0 : Int) ≤ count.toNat ∧ (count.toNat : Int) < UInt32.size then
        some (UInt32.ofNat (count.toNat : Int).toNat) else none := rfl
  rw [hread, if_pos hsize, Int.toNat_natCast, UInt32.ofNat_toNat]

theorem cardinality?_eq_some {parts : List (String × Part)} {role : Role} {bound : Bound}
    {property : String} {count : UInt32} {filler : Option ClassExpression}
    (hproperty : Part.string? parts "property" = some property)
    (hcount : Part.field? parts "cardinality" = some ⟨.ofCount count, none, none⟩)
    (hfiller : Part.filler? parts = some filler) :
    Part.cardinality? parts role bound = some (cardinality role bound property count filler) := by
  unfold Part.cardinality?
  rw [hproperty, hcount, Option.bind_some, count?_ofCount, hfiller]
  rfl

/-- The filler of a cardinality is not read as one that is missing. -/
theorem filler?_of_toJson {parts : List (String × Part)} {filler : ClassExpression}
    (hpart : single? "filler" parts = some (some (partOf true filler.toJson)))
    (hfiller : (partOf true filler.toJson).expression = some filler) :
    Part.filler? parts = some (some filler) := by
  unfold Part.filler?
  rw [hpart]
  dsimp only
  rw [hfiller]
  cases filler <;> rfl

theorem list?_distinct {values : List Json} (h : ∀ value ∈ values, value.KeysDiffer) :
    (Json.array values).list? (some ·.distinct) = some values := by
  have hvalues : (values.map id).mapM (fun value => some value.distinct) = some values :=
    mapM_map_eq_some fun value hm => congrArg some (h value hm).distinct_eq
  rwa [List.map_id] at hvalues

theorem expression_partOf_object (nested : Bool) (fields : List (String × Json)) :
    (partOf nested (.object fields)).expression = Part.assemble? (partsOf fields) nested := rfl

/-- What was written of an expression is read as the expression, wherever it stands. -/
theorem expression_partOf_toJson : ∀ (expression : ClassExpression), expression.Plain →
    ∀ nested, (partOf nested expression.toJson).expression = some expression
  | named _, _, _ | datatype _, _, _ | hasSelf _, _, _ | hasIndividual _ _, _, _ => rfl
  | quantified role quantifier property filler, h, nested => by
    have hfiller := expression_partOf_toJson filler h true
    rw [toJson, expression_partOf_object, assemble?_quantified rfl]
    exact congrArg (Option.bind · fun filler =>
      some (quantified role quantifier property filler)) hfiller
  | cardinality role bound property count none, _, nested => by
    rw [toJson, expression_partOf_object, assemble?_cardinality rfl]
    exact cardinality?_eq_some rfl rfl rfl
  | cardinality role bound property count (some filler), h, nested => by
    have hfiller := expression_partOf_toJson filler h true
    rw [toJson, expression_partOf_object, assemble?_cardinality rfl]
    exact cardinality?_eq_some rfl rfl (filler?_of_toJson rfl hfiller)
  | hasLiteral property value, h, nested => by
    have hvalue : value.distinct = value := (h value List.mem_cons_self).distinct_eq
    have hread : (partOf true value).value.distinct = value := by
      cases value <;> exact hvalue
    rw [toJson, expression_partOf_object, assemble?_of_tag
      (rfl : Part.tag? _ _ = some (restrictionTag .data .hasValue))]
    exact congrArg (fun value => some (hasLiteral property value)) hread
  | oneOfIndividuals individuals, _, nested => by
    have hread : (Json.strings individuals).list? Json.string? = some individuals :=
      mapM_map_eq_some fun _ _ => rfl
    rw [toJson, expression_partOf_object, assemble?_of_tag
      (rfl : Part.tag? _ _ = some (restrictionTag .object .oneOf))]
    exact congrArg (Option.map oneOfIndividuals) hread
  | oneOfLiterals values, h, nested => by
    rw [toJson, expression_partOf_object, assemble?_of_tag
      (rfl : Part.tag? _ _ = some (restrictionTag .data .oneOf))]
    exact congrArg (Option.map oneOfLiterals) (list?_distinct h)
  | complement role operand, h, nested => by
    have hoperand := expression_partOf_toJson operand h true
    rw [toJson, expression_partOf_object, assemble?_complement rfl]
    exact congrArg (Option.map (complement role)) hoperand
  | combination role connective operands, h, nested => by
    have hoperands : ∀ operand ∈ operands,
        (partOf true operand.toJson).expression = some operand := fun operand hm =>
      expression_partOf_toJson operand (plain_combination_iff.1 h operand hm) true
    rw [toJson, expression_partOf_object, assemble?_combination rfl]
    exact congrArg (Option.map (combination role connective))
      (expressionsOf?_operandsToJson hoperands)

/-- The expressions that a part stands for have plain literals. -/
structure Part.Plain (part : Part) : Prop where
  expression : ∀ expression, part.expression = some expression → expression.Plain
  expressions : ∀ expressions, part.expressions = some expressions →
    ∀ expression ∈ expressions, expression.Plain

section Read

variable {parts : List (String × Part)} (hparts : ∀ entry ∈ parts, entry.2.Plain)

include hparts

theorem plain_of_field? {key : String} {part : Part} (h : Part.field? parts key = some part) :
    part.Plain := by
  have hsingle : single? key parts = some (some part) := Option.join_eq_some_iff.1 h
  unfold single? at hsingle
  split at hsingle
  · cases hsingle
  · rename_i entry hentry
    obtain rfl := Option.some.inj (Option.some.inj hsingle)
    have hmem : entry ∈ parts.filter fun entry => entry.1 == key :=
      hentry ▸ List.mem_cons_self
    exact hparts entry (List.mem_filter.1 hmem).1
  · cases hsingle

theorem plain_of_expression? {key : String} {expression : ClassExpression}
    (h : Part.expression? parts key = some expression) : expression.Plain := by
  obtain ⟨part, hpart, hexpression⟩ := Option.bind_eq_some_iff.1 h
  exact (plain_of_field? hparts hpart).expression expression hexpression

theorem plain_of_filler? {filler : ClassExpression} (h : Part.filler? parts = some (some filler)) :
    filler.Plain := by
  unfold Part.filler? at h
  split at h
  · cases h
  · cases h
  · rename_i part hsingle
    have hfield : Part.field? parts "filler" = some part := Option.join_eq_some_iff.2 hsingle
    split at h
    · cases h
    · obtain ⟨expression, hexpression, hsome⟩ := Option.map_eq_some_iff.1 h
      obtain rfl := Option.some.inj hsome
      exact (plain_of_field? hparts hfield).expression expression hexpression

theorem plain_of_quantified? {role : Role} {quantifier : Quantifier} {expression : ClassExpression}
    (h : Part.quantified? parts role quantifier = some expression) : expression.Plain := by
  obtain ⟨property, _, h⟩ := Option.bind_eq_some_iff.1 h
  obtain ⟨filler, hfiller, h⟩ := Option.bind_eq_some_iff.1 h
  obtain rfl := Option.some.inj h
  have hplain : filler.Plain := plain_of_expression? hparts hfiller
  exact hplain

theorem plain_of_cardinality? {role : Role} {bound : Bound} {expression : ClassExpression}
    (h : Part.cardinality? parts role bound = some expression) : expression.Plain := by
  obtain ⟨property, _, h⟩ := Option.bind_eq_some_iff.1 h
  obtain ⟨count, _, h⟩ := Option.bind_eq_some_iff.1 h
  obtain ⟨filler, hfiller, h⟩ := Option.bind_eq_some_iff.1 h
  obtain rfl := Option.some.inj h
  cases filler with
  | none => exact nofun
  | some filler =>
    have hplain : filler.Plain := plain_of_filler? hparts hfiller
    exact hplain

theorem plain_of_combination? {role : Role} {connective : Connective}
    {expression : ClassExpression} (h : Part.combination? parts role connective = some expression) :
    expression.Plain := by
  obtain ⟨operands, hoperands, rfl⟩ := Option.map_eq_some_iff.1 h
  obtain ⟨part, hpart, hoperands⟩ := Option.bind_eq_some_iff.1 hoperands
  exact plain_combination_iff.2 ((plain_of_field? hparts hpart).expressions operands hoperands)

/-- Only the literals of a restriction are values of its own, and those are read without repeated
keys. -/
theorem plain_of_restriction? {role : Role} {form : Form} {expression : ClassExpression}
    (h : Part.restriction? parts (role, form) = some expression) : expression.Plain := by
  cases form with
  | someValuesFrom =>
    have hread : Part.quantified? parts role .existential = some expression := by
      cases role <;> exact h
    exact plain_of_quantified? hparts hread
  | allValuesFrom =>
    have hread : Part.quantified? parts role .universal = some expression := by
      cases role <;> exact h
    exact plain_of_quantified? hparts hread
  | minCardinality =>
    have hread : Part.cardinality? parts role .min = some expression := by
      cases role <;> exact h
    exact plain_of_cardinality? hparts hread
  | maxCardinality =>
    have hread : Part.cardinality? parts role .max = some expression := by
      cases role <;> exact h
    exact plain_of_cardinality? hparts hread
  | exactCardinality =>
    have hread : Part.cardinality? parts role .exact = some expression := by
      cases role <;> exact h
    exact plain_of_cardinality? hparts hread
  | intersectionOf =>
    have hread : Part.combination? parts role .intersection = some expression := by
      cases role <;> exact h
    exact plain_of_combination? hparts hread
  | unionOf =>
    have hread : Part.combination? parts role .union = some expression := by
      cases role <;> exact h
    exact plain_of_combination? hparts hread
  | complementOf =>
    have hread : (Part.expression? parts "operand").map (complement role) = some expression := by
      cases role <;> exact h
    obtain ⟨operand, hoperand, rfl⟩ := Option.map_eq_some_iff.1 hread
    have hplain : operand.Plain := plain_of_expression? hparts hoperand
    exact hplain
  | hasValue =>
    cases role with
    | object =>
      obtain ⟨property, _, h⟩ := Option.bind_eq_some_iff.1 h
      obtain ⟨individual, _, h⟩ := Option.bind_eq_some_iff.1 h
      obtain rfl := Option.some.inj h
      exact nofun
    | data =>
      obtain ⟨property, _, h⟩ := Option.bind_eq_some_iff.1 h
      obtain ⟨part, _, h⟩ := Option.bind_eq_some_iff.1 h
      obtain rfl := Option.some.inj h
      intro literal hm
      obtain rfl := List.mem_singleton.1 hm
      exact keysDiffer_distinct part.value
  | oneOf =>
    cases role with
    | object =>
      obtain ⟨individuals, _, rfl⟩ := Option.map_eq_some_iff.1 h
      exact nofun
    | data =>
      obtain ⟨values, hvalues, rfl⟩ := Option.map_eq_some_iff.1 h
      obtain ⟨part, _, hvalues⟩ := Option.bind_eq_some_iff.1 hvalues
      intro literal hm
      obtain ⟨item, hread⟩ := exists_of_mem_list? hvalues hm
      obtain rfl := Option.some.inj hread
      exact keysDiffer_distinct item

theorem plain_of_assemble? {nested : Bool} {expression : ClassExpression}
    (h : Part.assemble? parts nested = some expression) : expression.Plain := by
  obtain ⟨tag, _, h⟩ := Option.bind_eq_some_iff.1 h
  split at h
  · obtain ⟨iri, _, rfl⟩ := Option.map_eq_some_iff.1 h
    exact nofun
  · split at h
    · obtain ⟨iri, _, rfl⟩ := Option.map_eq_some_iff.1 h
      exact nofun
    · split at h
      · obtain ⟨property, _, rfl⟩ := Option.map_eq_some_iff.1 h
        exact nofun
      · obtain ⟨⟨role, form⟩, _, h⟩ := Option.bind_eq_some_iff.1 h
        exact plain_of_restriction? hparts h

end Read

mutual

/-- Expressions are read with plain literals. -/
theorem plain_partOf (nested : Bool) : ∀ value : Json, (partOf nested value).Plain
  | .object fields => ⟨fun _ => plain_of_assemble? (plain_partsOf fields), nofun⟩
  | .array items => ⟨nofun, plain_expressionsOf? items⟩
  | .null | .bool _ | .number _ | .string _ => ⟨nofun, nofun⟩

theorem plain_partsOf : ∀ fields : List (String × Json), ∀ entry ∈ partsOf fields, entry.2.Plain
  | [] => nofun
  | (key, value) :: rest => by
    rw [partsOf, List.forall_mem_cons]
    exact ⟨plain_partOf true value, plain_partsOf rest⟩

theorem plain_expressionsOf? : ∀ items : List Json, ∀ expressions,
    expressionsOf? items = some expressions → ∀ expression ∈ expressions, expression.Plain
  | [], expressions, h => by
    obtain rfl := Option.some.inj h
    exact nofun
  | value :: rest, expressions, h => by
    unfold expressionsOf? at h
    split at h
    · rename_i expression others hexpression hothers
      obtain rfl := Option.some.inj h
      rw [List.forall_mem_cons]
      exact ⟨(plain_partOf true value).expression _ hexpression,
        plain_expressionsOf? rest _ hothers⟩
    · cases h

end

/-- What was written of an expression with plain literals is read back. -/
theorem ofJson?_toJson {expression : ClassExpression} (h : expression.Plain) :
    ofJson? expression.toJson = some expression :=
  expression_partOf_toJson expression h false

-- A literal that looks like an expression stays a literal.
example : ofJson? (hasLiteral "e#p" (.object [("type", .string "class"), ("iri", .null)])).toJson =
    some (hasLiteral "e#p" (.object [("type", .string "class"), ("iri", .null)])) := rfl

theorem plain_of_ofJson? {value : Json} {expression : ClassExpression}
    (h : ofJson? value = some expression) : expression.Plain :=
  (plain_partOf false value).expression expression h

end ClassExpression

theorem Annotation.ofJson?_toJson (note : Annotation) : ofJson? note.toJson = some note := rfl

theorem annotations?_toJson (notes : List Annotation) :
    annotations? (some (annotationsToJson notes)) = some notes :=
  mapM_map_eq_some fun note _ => note.ofJson?_toJson

theorem strings?_strings (texts : List String) : strings? (some (.strings texts)) = some texts :=
  mapM_map_eq_some fun _ _ => rfl

theorem ClassDeclaration.ofJson?_toJson (declaration : ClassDeclaration) :
    ofJson? declaration.toJson = some declaration := by
  unfold ofJson?
  simp only [Option.bind_eq_bind, record?_object _ (rfl : toJson _ = _) (by simp), Option.bind_some]
  refine Option.bind_eq_some_iff.2 ⟨declaration.iri, rfl, ?_⟩
  exact Option.bind_eq_some_iff.2 ⟨_, annotations?_toJson declaration.annotations, rfl⟩

theorem PropertyDeclaration.ofJson?_toJson (declaration : PropertyDeclaration) :
    ofJson? declaration.toJson = some declaration := by
  unfold ofJson?
  simp only [Option.bind_eq_bind, record?_object _ (rfl : toJson _ = _) (by simp), Option.bind_some]
  refine Option.bind_eq_some_iff.2 ⟨declaration.iri, rfl, ?_⟩
  refine Option.bind_eq_some_iff.2 ⟨_, strings?_strings declaration.domains, ?_⟩
  refine Option.bind_eq_some_iff.2 ⟨_, strings?_strings declaration.ranges, ?_⟩
  refine Option.bind_eq_some_iff.2 ⟨declaration.functional, rfl, ?_⟩
  exact Option.bind_eq_some_iff.2 ⟨_, annotations?_toJson declaration.annotations, rfl⟩

theorem SubclassAxiom.ofJson?_toJson {statement : SubclassAxiom} (h : statement.sup.Plain) :
    ofJson? statement.toJson = some statement := by
  unfold ofJson?
  simp only [Option.bind_eq_bind, record?_object _ (rfl : toJson _ = _) (by simp), Option.bind_some]
  refine Option.bind_eq_some_iff.2 ⟨statement.sub, rfl, ?_⟩
  refine Option.bind_eq_some_iff.2 ⟨statement.sup, ClassExpression.ofJson?_toJson h, ?_⟩
  exact Option.bind_eq_some_iff.2 ⟨_, annotations?_toJson statement.annotations, rfl⟩

theorem EquivalenceAxiom.ofJson?_toJson {statement : EquivalenceAxiom}
    (h : statement.expression.Plain) : ofJson? statement.toJson = some statement := by
  unfold ofJson?
  simp only [Option.bind_eq_bind, record?_object _ (rfl : toJson _ = _) (by simp), Option.bind_some]
  refine Option.bind_eq_some_iff.2 ⟨statement.subject, rfl, ?_⟩
  refine Option.bind_eq_some_iff.2 ⟨statement.expression, ClassExpression.ofJson?_toJson h, ?_⟩
  exact Option.bind_eq_some_iff.2 ⟨_, annotations?_toJson statement.annotations, rfl⟩

theorem SubclassAxiom.plain_of_ofJson? {value : Json} {statement : SubclassAxiom}
    (h : ofJson? value = some statement) : statement.sup.Plain := by
  obtain ⟨field, _, h⟩ := Option.bind_eq_some_iff.1 h
  obtain ⟨sub, _, h⟩ := Option.bind_eq_some_iff.1 h
  obtain ⟨sup, hsup, h⟩ := Option.bind_eq_some_iff.1 h
  obtain ⟨annotations, _, h⟩ := Option.bind_eq_some_iff.1 h
  obtain rfl := Option.some.inj h
  obtain ⟨written, _, hsup⟩ := Option.bind_eq_some_iff.1 hsup
  exact ClassExpression.plain_of_ofJson? hsup

theorem EquivalenceAxiom.plain_of_ofJson? {value : Json} {statement : EquivalenceAxiom}
    (h : ofJson? value = some statement) : statement.expression.Plain := by
  obtain ⟨field, _, h⟩ := Option.bind_eq_some_iff.1 h
  obtain ⟨subject, _, h⟩ := Option.bind_eq_some_iff.1 h
  obtain ⟨expression, hexpression, h⟩ := Option.bind_eq_some_iff.1 h
  obtain ⟨annotations, _, h⟩ := Option.bind_eq_some_iff.1 h
  obtain rfl := Option.some.inj h
  obtain ⟨written, _, hexpression⟩ := Option.bind_eq_some_iff.1 hexpression
  exact ClassExpression.plain_of_ofJson? hexpression

namespace Ontology

/-- A table that is missing, empty or filled is read back; only a missing one is null. -/
theorem prefixes?_toJson (prefixes : Option (NameMap String)) :
    withDefault none (nullable? (map? string?)) (some (Json.ofOption prefixesToJson prefixes)) =
      some prefixes := by
  cases prefixes with
  | none => rfl
  | some spaces =>
    have hentries : (spaces.entries.map fun entry => (entry.1, Json.string entry.2)).mapM
        (fun entry => (string? entry.2).map fun space => (entry.1, space)) = some spaces.entries :=
      mapM_map_eq_some fun _ _ => rfl
    have hspaces : NameMap.ofList spaces.entries = spaces :=
      NameMap.ext (Entries.ofList_eq_self spaces.ordered)
    have hread : (prefixesToJson spaces).map? string? = some spaces :=
      (congrArg (Option.map NameMap.ofList) hentries).trans (congrArg some hspaces)
    exact congrArg (Option.map some) hread

theorem entries?_toJson {α : Type} {write : α → Json} {read : Json → Option α} {found : List α}
    (h : ∀ entry ∈ found, read (write entry) = some entry) :
    entries? read (some (.array (found.map write))) = some found :=
  mapM_map_eq_some h

theorem exists_of_mem_entries? {α : Type} {read : Json → Option α} {field : Option Json}
    {found : List α} (h : entries? read field = some found) {entry : α} (hm : entry ∈ found) :
    ∃ item, read item = some entry := by
  cases field with
  | none =>
    obtain rfl := Option.some.inj h
    cases hm
  | some value => exact exists_of_mem_list? h hm

/-- The JSON values in the expressions of axioms. -/
def literals (ontology : Ontology) : List Json :=
  ontology.subclassAxioms.flatMap (·.sup.literals) ++
    ontology.equivalences.flatMap (·.expression.literals)

/-- No literal in an axiom repeats a key. -/
def Plain (ontology : Ontology) : Prop :=
  ∀ literal ∈ ontology.literals, literal.KeysDiffer

theorem plain_iff {ontology : Ontology} : ontology.Plain ↔
    (∀ statement ∈ ontology.subclassAxioms, statement.sup.Plain) ∧
      ∀ statement ∈ ontology.equivalences, statement.expression.Plain := by
  unfold Plain literals
  rw [List.forall_mem_append]
  simp only [List.mem_flatMap, forall_exists_index, and_imp]
  exact ⟨fun h => ⟨fun statement hm literal hl => h.1 literal statement hm hl,
    fun statement hm literal hl => h.2 literal statement hm hl⟩,
    fun h => ⟨fun literal statement hm hl => h.1 statement hm literal hl,
      fun literal statement hm hl => h.2 statement hm literal hl⟩⟩

theorem ofJson?_toJson {ontology : Ontology} (h : ontology.Plain) :
    ofJson? ontology.toJson = some ontology := by
  obtain ⟨hsubclass, hequivalent⟩ := plain_iff.1 h
  unfold ofJson?
  simp only [Option.bind_eq_bind, record?_object _ (rfl : toJson _ = _) (by simp), Option.bind_some]
  refine Option.bind_eq_some_iff.2 ⟨ontology.iri, rfl, ?_⟩
  refine Option.bind_eq_some_iff.2 ⟨_, prefixes?_toJson ontology.prefixes, ?_⟩
  refine Option.bind_eq_some_iff.2 ⟨ontology.classes,
    entries?_toJson fun declaration _ => declaration.ofJson?_toJson, ?_⟩
  refine Option.bind_eq_some_iff.2 ⟨ontology.objectProperties,
    entries?_toJson fun declaration _ => declaration.ofJson?_toJson, ?_⟩
  refine Option.bind_eq_some_iff.2 ⟨ontology.dataProperties,
    entries?_toJson fun declaration _ => declaration.ofJson?_toJson, ?_⟩
  refine Option.bind_eq_some_iff.2 ⟨ontology.subclassAxioms,
    entries?_toJson fun statement hm => SubclassAxiom.ofJson?_toJson (hsubclass statement hm), ?_⟩
  exact Option.bind_eq_some_iff.2 ⟨ontology.equivalences,
    entries?_toJson fun statement hm => EquivalenceAxiom.ofJson?_toJson (hequivalent statement hm),
    rfl⟩

theorem plain_of_ofJson? {value : Json} {ontology : Ontology}
    (h : ofJson? value = some ontology) : ontology.Plain := by
  obtain ⟨field, _, h⟩ := Option.bind_eq_some_iff.1 h
  obtain ⟨iri, _, h⟩ := Option.bind_eq_some_iff.1 h
  obtain ⟨prefixes, _, h⟩ := Option.bind_eq_some_iff.1 h
  obtain ⟨classes, _, h⟩ := Option.bind_eq_some_iff.1 h
  obtain ⟨objectProperties, _, h⟩ := Option.bind_eq_some_iff.1 h
  obtain ⟨dataProperties, _, h⟩ := Option.bind_eq_some_iff.1 h
  obtain ⟨subclassAxioms, hsubclass, h⟩ := Option.bind_eq_some_iff.1 h
  obtain ⟨equivalences, hequivalent, h⟩ := Option.bind_eq_some_iff.1 h
  obtain rfl := Option.some.inj h
  refine plain_iff.2 ⟨fun statement hm => ?_, fun statement hm => ?_⟩
  · obtain ⟨item, hitem⟩ := exists_of_mem_entries? hsubclass hm
    exact SubclassAxiom.plain_of_ofJson? hitem
  · obtain ⟨item, hitem⟩ := exists_of_mem_entries? hequivalent hm
    exact EquivalenceAxiom.plain_of_ofJson? hitem

/-- Writing and reading gives back an ontology just when its literals are values without repeated
keys, and these are all the ontologies that are ever read. -/
theorem reads_back_iff (ontology : Ontology) :
    (ofJson? ontology.toJson = some ontology ↔ ∀ literal ∈ ontology.literals, literal.KeysDiffer) ∧
      ((∃ value, ofJson? value = some ontology) ↔
        ∀ literal ∈ ontology.literals, literal.KeysDiffer) := by
  have hback : ontology.Plain → ofJson? ontology.toJson = some ontology := ofJson?_toJson
  have hplain : (∃ value, ofJson? value = some ontology) → ontology.Plain :=
    fun ⟨_, hread⟩ => plain_of_ofJson? hread
  exact ⟨⟨fun hread => hplain ⟨_, hread⟩, hback⟩, hplain, fun h => ⟨_, hback h⟩⟩

end Ontology

end OntoSchema
