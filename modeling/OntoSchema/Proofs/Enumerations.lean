import OntoSchema.Proofs.Shapes
import OntoSchema.SchemaNode.Instance

/-!
# Lists of values

A node that lists its values takes its type from the first of them, so it rejects one of its own
values just when the list mixes kinds: `listed_accepted_iff` says so for every node at any depth of
a compiled schema. Such lists come from enumerations of the ontology only, since the first stage
drops the list of a value that a restriction pins.
-/

namespace OntoSchema

/-- A list has values of one kind: booleans, texts or numbers. If the first number is written as an
integer, all of them are integers. -/
def OneKind (values : List Json) : Prop :=
  (∀ value ∈ values, ∃ b, value = .bool b) ∨
    (∀ value ∈ values, ∃ text, value = .string text) ∨
    (∀ value ∈ values, ∃ number, value = .number number) ∧
      ∀ n, values.head? = some (.number (.integer n)) →
        ∀ x, .number (.real x) ∈ values → x.isIntegral = true

namespace SchemaType

variable {value : Json} {values : List Json}

theorem admits_boolean_iff : boolean.admits value = true ↔ ∃ b, value = .bool b := by
  cases value <;> simp [admits]

theorem admits_string_iff : string.admits value = true ↔ ∃ text, value = .string text := by
  cases value <;> simp [admits]

theorem admits_number_iff : number.admits value = true ↔ ∃ n, value = .number n := by
  cases value <;> simp [admits]

theorem admits_integer_iff : integer.admits value = true ↔
    (∃ number, value = .number number) ∧ ∀ x, value = .number (.real x) → x.isIntegral = true := by
  rcases value with _ | _ | (_ | _) | _ | _ | _ <;> simp [admits]

/-- The type of a list admits all of its values just when they are of one kind. -/
theorem admits_ofValues_iff :
    (∀ value ∈ values, (ofValues values).admits value = true) ↔ OneKind values := by
  cases values with
  | nil => exact iff_of_true nofun (.inl nofun)
  | cons first rest =>
    unfold ofValues OneKind
    simp only [List.forall_mem_cons, List.head?_cons, Option.some.injEq]
    rcases first with _ | _ | (_ | _) | _ | _ | _
    · simp [ofJson, admits]
    · simp [ofJson, admits_boolean_iff]
    · have hreals : (∀ value ∈ rest, ∀ x, value = .number (.real x) → x.isIntegral = true) ↔
          ∀ x, .number (.real x) ∈ rest → x.isIntegral = true := by
        refine ⟨fun h x hmem => h _ hmem x rfl, ?_⟩
        rintro h _ hmem x rfl
        exact h x hmem
      simp [ofJson, admits_integer_iff, forall_and, hreals]
    · simp [ofJson, admits_number_iff]
    · simp [ofJson, admits_string_iff]
    · simp [ofJson, admits]
    · simp [ofJson, admits]

theorem ofValues_individualValues (individuals : List String) :
    ofValues (ClassExpression.individualValues individuals) = .string := by
  cases individuals <;> rfl

end SchemaType

namespace SchemaNode

variable {node : SchemaNode} {given : List Json → Prop} {keywords : Keywords}

/-- If a node lists values, then such values are given, and the first one says the type. -/
def ListsAs (given : List Json → Prop) (node : SchemaNode) : Prop :=
  ∀ values, node.enumValues = some values → given values ∧ node.type = some (.ofValues values)

theorem listsAs_of_none (h : node.enumValues = none) : node.ListsAs given := by
  intro values hvalues
  rw [h] at hvalues
  cases hvalues

theorem throughout_ofKeywords (h : ListsAs given { toKeywords := keywords }) :
    Throughout (ListsAs given) { toKeywords := keywords } :=
  throughout_iff.2 ⟨h, fun _ hpart => absurd hpart not_hasPart_ofKeywords⟩

theorem HasPart.dropSingleValue {child : SchemaNode} (h : node.HasPart child) :
    node.dropSingleValue.HasPart child := by
  rcases node.dropSingleValue_cases with hsame | ⟨_, hdropped⟩
  · rwa [hsame]
  · rw [hdropped]
    rcases h with h | h | h | h
    · exact .property h
    · exact .item h
    · exact .variant h
    · exact .part h

theorem Throughout.dropSingleValue (h : node.Throughout (ListsAs given)) :
    node.dropSingleValue.Throughout (ListsAs given) := by
  rcases node.dropSingleValue_cases with hsame | ⟨_, hdropped⟩
  · rwa [hsame]
  · rw [hdropped]
    obtain ⟨_, hparts⟩ := throughout_iff.1 h
    exact throughout_iff.2
      ⟨listsAs_of_none rfl, fun child hpart => hparts child hpart.of_withKeywords⟩

/-- Keywords other than the type and the values do not matter. -/
theorem Throughout.withKeywords (h : node.Throughout (ListsAs given))
    (hvalues : keywords.enumValues = node.enumValues) (htype : keywords.type = node.type) :
    Throughout (ListsAs given) { node with toKeywords := keywords } := by
  obtain ⟨hnode, hparts⟩ := throughout_iff.1 h
  refine throughout_iff.2 ⟨?_, fun child hpart => hparts child hpart.of_withKeywords⟩
  intro values hlisted
  obtain ⟨hgiven, hfirst⟩ := hnode values (hvalues ▸ hlisted)
  exact ⟨hgiven, htype.trans hfirst⟩

theorem throughout_oneOfNodes {variants : List SchemaNode}
    (h : ∀ variant ∈ variants, variant.Throughout (ListsAs given)) :
    (oneOfNodes variants).Throughout (ListsAs given) :=
  throughout_iff.2 ⟨listsAs_of_none rfl, fun _ hpart => h _ hpart.mem_of_oneOfNodes⟩

theorem Throughout.collapsed (h : node.Throughout (ListsAs given)) :
    node.collapsed.Throughout (ListsAs given) := by
  unfold SchemaNode.collapsed
  split
  · exact h
  · rename_i items hitems
    exact ((throughout_iff.1 h).2 items (.item hitems)).withKeywords rfl rfl

end SchemaNode

namespace Ontology

variable {ontology : Ontology} {configuration : Configuration} {prefixes : NameMap String}

/-- Values are listed by the ontology: a class equals the list, or the filler of a restriction has
the list among its parts. -/
inductive Enumerates (ontology : Ontology) (values : List Json) : Prop
  | equivalence {statement : EquivalenceAxiom} : statement ∈ ontology.equivalences →
      statement.expression.enumeration? = some values → Enumerates ontology values
  | filler {part filler expression : ClassExpression} {annotations : List Annotation} :
      ontology.Restricts part annotations → part.filler? = some filler →
        ClassExpression.Within ClassExpression.OpensAll expression filler →
          expression.enumeration? = some values → Enumerates ontology values

/-- The schema of a filler lists the values of an enumeration, and has the type of the first one. -/
theorem listsAs_of_fillerSchema? {filler : ClassExpression} {value : SchemaNode}
    (h : filler.fillerSchema? ontology = .ok (some value)) :
    value.ListsAs fun values => filler.enumeration? = some values := by
  cases fills_of_fillerSchema? h with
  | individuals individuals =>
    intro values hvalues
    obtain rfl := Option.some.inj hvalues
    exact ⟨rfl, congrArg some (SchemaType.ofValues_individualValues individuals).symm⟩
  | literals literals =>
    intro values hvalues
    obtain rfl := Option.some.inj hvalues
    exact ⟨rfl, rfl⟩
  | reference | datatype | variants | parts => exact SchemaNode.listsAs_of_none rfl

theorem throughout_of_filler {part filler : ClassExpression} {annotations : List Annotation}
    (hpart : ontology.Restricts part annotations) (hfiller : part.filler? = some filler)
    {value : SchemaNode} (h : filler.fillerSchema? ontology = .ok (some value)) :
    value.Throughout (SchemaNode.ListsAs ontology.Enumerates) := by
  refine throughout_of_fillerSchema? h fun expression inner hwithin hschema values hvalues => ?_
  obtain ⟨hlisted, htype⟩ := listsAs_of_fillerSchema? hschema values hvalues
  exact ⟨.filler hpart hfiller hwithin hlisted, htype⟩

variable {given : List Json → Prop}

theorem Offers.throughout {declaration : Option (Role × PropertyDeclaration)} {node : SchemaNode}
    (h : Offers prefixes declaration node) : node.Throughout (SchemaNode.ListsAs given) := by
  cases h with
  | datatype | reference =>
    exact SchemaNode.throughout_ofKeywords (SchemaNode.listsAs_of_none rfl)

/-- The items of a property may list the value that is pinned. Apart from that, the lists inside
them come from fillers. -/
theorem FormsItems.throughout {items : SchemaNode} (h : FormsItems ontology prefixes items) :
    items.dropSingleValue.Throughout (SchemaNode.ListsAs ontology.Enumerates) := by
  induction h with
  | datatype =>
    apply SchemaNode.Throughout.dropSingleValue
    exact SchemaNode.throughout_ofKeywords (SchemaNode.listsAs_of_none rfl)
  | offered _ hoffers => exact hoffers.throughout.dropSingleValue
  | choice _ _ hoffers =>
    exact (SchemaNode.throughout_oneOfNodes fun variant hm =>
      (hoffers variant hm).throughout).dropSingleValue
  | filler hpart hfiller hschema =>
    exact (throughout_of_filler hpart hfiller hschema).dropSingleValue
  | @pinned items value fallback _ _ ih =>
    refine SchemaNode.throughout_iff.2 ⟨SchemaNode.listsAs_of_none rfl, fun child hpart => ?_⟩
    have hpart : items.HasPart child := @SchemaNode.HasPart.of_withoutVariants items child _ hpart
    exact (SchemaNode.throughout_iff.1 ih).2 child hpart.dropSingleValue

theorem HoldsItems.settle {node : SchemaNode} (h : HoldsItems ontology prefixes node) :
    node.settle.Throughout (SchemaNode.ListsAs ontology.Enumerates) := by
  unfold SchemaNode.settle
  split
  · rename_i items hitems
    refine SchemaNode.throughout_iff.2 ⟨SchemaNode.listsAs_of_none h.bare, fun child hpart => ?_⟩
    rw [h.flat] at hpart
    rw [hpart.eq_of_items]
    exact (h.items items hitems).2.throughout
  · rename_i hitems
    have hflat := h.flat
    rw [hitems] at hflat
    rw [hflat]
    split
    · exact SchemaNode.throughout_ofKeywords (SchemaNode.listsAs_of_none h.bare)
    · exact SchemaNode.throughout_ofKeywords (SchemaNode.listsAs_of_none h.bare)

theorem enumerates_of_enumeration? {iri : String} {values : List Json}
    (h : ontology.enumeration? iri = some values) : ontology.Enumerates values := by
  obtain ⟨statement, hmem, hvalues⟩ := List.exists_of_findSome?_eq_some h
  exact .equivalence (List.mem_filter.1 hmem).1 hvalues

end Ontology

namespace ClassBuild

variable {ontology : Ontology} {prefixes : NameMap String} {configuration : Configuration}
  {inflector : Inflector} {iri : String} {build : ClassBuild}

/-- A visit makes the schema itself a list of values only if the class equals an enumeration. -/
theorem listsAs_of_visit (hprefixes : ontology.prefixes? = some prefixes)
    (hvisit : (ontology.firstBuild prefixes configuration.schema iri).visit ontology
      configuration = .ok build) : build.schema.ListsAs ontology.Enumerates := by
  cases hclass : ontology.enumeration? iri with
  | none =>
    obtain ⟨visited, hvisit', hgrows⟩ := grows_of_visit configuration hprefixes hclass
    obtain rfl : visited = build := Except.ok.inj (hvisit'.symm.trans hvisit)
    exact SchemaNode.listsAs_of_none (congrArg (fun node => node.enumValues) hgrows.shell)
  | some values =>
    rw [visit_of_enumeration hclass] at hvisit
    obtain rfl := Except.ok.inj hvisit
    intro other hother
    obtain rfl := Option.some.inj hother
    exact ⟨Ontology.enumerates_of_enumeration? hclass, rfl⟩

/-- The stages leave no lists but those of the ontology. -/
theorem throughout_staged (inflector : Inflector) (hprefixes : ontology.prefixes? = some prefixes)
    (hvisited : build.Visited ontology prefixes configuration iri)
    (hroot : build.schema.ListsAs ontology.Enumerates) :
    (build.staged ontology prefixes configuration inflector).schema.Throughout
      (SchemaNode.ListsAs ontology.Enumerates) := by
  have hproperties : ∀ entry ∈ (build.converted configuration inflector).schema.properties,
      entry.2.Throughout (SchemaNode.ListsAs ontology.Enumerates) :=
    converted_induction hvisited.ordered
      (fun entry hm => ((hvisited.formed entry hm).holdsItems hprefixes).settle)
      (fun _ _ h => h.withKeywords rfl rfl) fun _ => .collapsed
  refine SchemaNode.throughout_iff.2 ⟨?_, fun child hpart => ?_⟩
  · obtain ⟨_, _, _, _, _, hconverted⟩ := exists_converted_eq configuration inflector build
    rw [schema_staged, hconverted]
    exact hroot
  · rcases part_of_staged hvisited hpart with ⟨entry, hm, rfl⟩ | ⟨other, _, rfl⟩ | rfl
    · exact hproperties entry hm
    · exact SchemaNode.throughout_ofKeywords (SchemaNode.listsAs_of_none rfl)
    · exact SchemaNode.throughout_ofKeywords (SchemaNode.listsAs_of_none rfl)

end ClassBuild

namespace Ontology

variable {ontology : Ontology} {configuration : Configuration} {inflector : Inflector}
  {iri : String} {compiled : ClassSchema}

/-- A node at any depth of a compiled schema that lists values has a list of the ontology, and the
type of the first value. It accepts all of its own values just when they are of one kind. -/
theorem listed_accepted_iff
    (hcompile : ontology.compileClass configuration inflector iri = .ok compiled)
    {node : SchemaNode} (hnode : Relation.ReflTransGen SchemaNode.HasPart compiled.schema node)
    {values : List Json} (hvalues : node.enumValues = some values) :
    ontology.Enumerates values ∧ node.type = some (.ofValues values) ∧
      ((∀ value ∈ values, (SchemaType.ofValues values).admits value = true) ↔ OneKind values) := by
  obtain ⟨prefixes, visited, hprefixes, _, hvisit, hvisited, _, hschema⟩ :=
    exists_stages_of_compileClass hcompile
  rw [hschema] at hnode
  obtain ⟨hlisted, htype⟩ := ClassBuild.throughout_staged inflector hprefixes hvisited
    (ClassBuild.listsAs_of_visit hprefixes hvisit) node hnode values hvalues
  exact ⟨hlisted, htype, SchemaType.admits_ofValues_iff⟩

/-- The number four and a half. -/
def fourAndHalf : Json := .number (.real ⟨0x4012000000000000⟩)

/-- Shoes have the width 4.5 or 5, and the widths are 4, 4.5 and 5. -/
def shoes : Ontology where
  iri := "e"
  prefixes := some (.ofList [("", "e#")])
  classes := [{ iri := "e#Shoe" }, { iri := "e#Width" }]
  subclassAxioms := [
    { sub := "e#Shoe"
      sup := .quantified .data .universal "e#width" (.oneOfLiterals [fourAndHalf, Json.ofNat 5]) }]
  equivalences := [
    { subject := "e#Width"
      expression := .oneOfLiterals [Json.ofNat 4, fourAndHalf, Json.ofNat 5] }]

/-- The widths of shoes begin with a number that is no integer, so both of them are accepted. -/
theorem listed_accepted_shoes :
    ∃ compiled node, shoes.compileClass {} .english "e#Shoe" = .ok compiled ∧
      Relation.ReflTransGen SchemaNode.HasPart compiled.schema node ∧
      node.enumValues = some [fourAndHalf, Json.ofNat 5] ∧ node.type = some .number ∧
      ∀ value ∈ [fourAndHalf, Json.ofNat 5], SchemaType.number.admits value = true := by
  have hprefixes : shoes.prefixes? = some (.ofList [("", "e#")]) := rfl
  obtain ⟨_, compiled, _, _, hcompile, _⟩ := exists_compileClass hprefixes {} .english "e#Shoe"
  have hread : (shoes.compileClass {} .english "e#Shoe").map (fun compiled =>
      (compiled.schema.property? "width").bind fun property =>
        property.items.map fun items => items.enumValues) =
      .ok (some (some [fourAndHalf, Json.ofNat 5])) := by decide +kernel
  rw [hcompile] at hread
  obtain ⟨property, hproperty, hread⟩ := Option.bind_eq_some_iff.1 (Except.ok.inj hread)
  obtain ⟨node, hitems, hvalues⟩ := Option.map_eq_some_iff.1 hread
  have hnode : Relation.ReflTransGen SchemaNode.HasPart compiled.schema node :=
    .head (.property (Entries.mem_of_get? hproperty)) (.single (.item hitems))
  obtain ⟨_, htype, haccepts⟩ := listed_accepted_iff hcompile hnode hvalues
  have hkind : OneKind [fourAndHalf, Json.ofNat 5] := by
    refine .inr (.inr ⟨?_, ?_⟩)
    · simp [fourAndHalf, Json.ofNat]
    · simp [fourAndHalf]
  exact ⟨compiled, node, hcompile, hnode, hvalues, htype, haccepts.2 hkind⟩

/-- The list of all widths begins with an integer, and the width 4.5 is rejected. -/
theorem width_rejected :
    ∃ compiled, shoes.compileClass {} .english "e#Width" = .ok compiled ∧
      compiled.schema.enumValues = some [Json.ofNat 4, fourAndHalf, Json.ofNat 5] ∧
      compiled.schema.type = some .integer ∧
      SchemaType.integer.admits fourAndHalf = false := by
  refine ⟨_, rfl, rfl, rfl, ?_⟩
  decide +kernel

end Ontology

end OntoSchema
