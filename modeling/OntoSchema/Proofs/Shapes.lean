import Mathlib.Logic.Relation
import OntoSchema.Proofs.Compilation
import OntoSchema.Proofs.Steady

/-!
# Arrays in compiled schemas

A property under visit may be an array of anything, yet whatever stands inside it is the schema of a
value, at any depth: `ValuesInside` holds of every property a visit can produce, and the stages keep
it. The first stage settles the property itself. So in a compiled schema the arrays are exactly the
nodes with items, and after a conversion none of them is for a single value.
-/

namespace OntoSchema

namespace SchemaNode

/-- A node and everything inside it satisfy a condition. -/
def Throughout (holds : SchemaNode → Prop) (node : SchemaNode) : Prop :=
  ∀ inner, Relation.ReflTransGen HasPart node inner → holds inner

theorem throughout_iff {holds : SchemaNode → Prop} {node : SchemaNode} :
    node.Throughout holds ↔ holds node ∧ ∀ child, node.HasPart child → child.Throughout holds := by
  constructor
  · exact fun h => ⟨h node .refl, fun child hpart inner hinner => h inner (.head hpart hinner)⟩
  · rintro ⟨hnode, hinside⟩ inner hinner
    rcases hinner.cases_head with rfl | ⟨child, hpart, hrest⟩
    · exact hnode
    · exact hinside child hpart inner hrest

/-- A node and everything inside it are schemas of values. -/
def AllValues (node : SchemaNode) : Prop :=
  ∀ inner, Relation.ReflTransGen HasPart node inner → inner.IsValue

/-- Everything inside a node is the schema of a value. -/
def ValuesInside (node : SchemaNode) : Prop :=
  ∀ child, node.HasPart child → child.AllValues

/-- A node is an array just when it has items. -/
def IsShaped (node : SchemaNode) : Prop :=
  node.type = some .array ↔ node.items.isSome

variable {node : SchemaNode}

theorem allValues_iff : node.AllValues ↔ node.IsValue ∧ node.ValuesInside := throughout_iff

theorem valuesInside_ofKeywords (keywords : Keywords) :
    ValuesInside { toKeywords := keywords } :=
  fun _ hpart => absurd hpart not_hasPart_ofKeywords

theorem IsValue.allValues {keywords : Keywords} (h : IsValue { toKeywords := keywords }) :
    AllValues { toKeywords := keywords } :=
  allValues_iff.2 ⟨h, valuesInside_ofKeywords keywords⟩

theorem ValuesInside.withKeywords (h : node.ValuesInside) (keywords : Keywords) :
    ValuesInside { node with toKeywords := keywords } :=
  fun child hpart => h child hpart.of_withKeywords

/-- A node with given items, and whatever keywords. -/
theorem ValuesInside.replaceItems (h : node.ValuesInside) {items : SchemaNode}
    (hitems : items.AllValues) (keywords : Keywords) :
    ValuesInside { node with toKeywords := keywords, items := some items } := by
  intro child hpart
  rcases hpart.of_replaceItems with rfl | hpart
  · exact hitems
  · exact h child hpart

theorem AllValues.dropSingleValue (h : node.AllValues) : node.dropSingleValue.AllValues := by
  obtain ⟨hvalue, hinside⟩ := allValues_iff.1 h
  refine allValues_iff.2 ⟨hvalue.dropSingleValue, ?_⟩
  rcases node.dropSingleValue_cases with hsame | ⟨_, hdropped⟩
  · rwa [hsame]
  · rw [hdropped]
    exact hinside.withKeywords _

theorem ValuesInside.settle (h : node.ValuesInside) : node.settle.ValuesInside := by
  unfold SchemaNode.settle
  split
  · rename_i items hitems
    exact h.replaceItems (h items (.item hitems)).dropSingleValue _
  · split
    · exact h.withKeywords _
    · exact h

theorem ValuesInside.collapsed (h : node.ValuesInside) : node.collapsed.ValuesInside := by
  unfold SchemaNode.collapsed
  split
  · exact h
  · rename_i items hitems
    exact (allValues_iff.1 (h items (.item hitems))).2.withKeywords _

theorem IsValue.isShaped (h : node.IsValue) : node.IsShaped := by
  have hne : node.type ≠ some .array := beq_eq_false_iff_ne.1 h.isArray
  unfold IsShaped
  rw [h.items]
  exact iff_of_false hne Bool.false_ne_true

/-- A settled property is an array just when it holds values. -/
theorem HoldsValues.isShaped (h : node.HoldsValues) (hsettled : node.settle = node) :
    node.IsShaped := by
  constructor
  · intro htype
    by_contra hnone
    have hitems : node.items = none := by simpa using hnone
    have hopen : node.isUnresolved = true := by simp [isUnresolved, isArray, htype]
    rw [settle_of_unresolved hitems hopen] at hsettled
    have hobject := congrArg (fun node => node.type) hsettled
    rw [htype] at hobject
    cases hobject
  · intro hsome
    obtain ⟨items, hitems⟩ := Option.isSome_iff_exists.1 hsome
    simpa [isArray] using (h items hitems).1

end SchemaNode

namespace Ontology

variable {ontology : Ontology} {configuration : Configuration} {prefixes : NameMap String}

/-- What stands directly inside the schema of a filler is the schema of an operand. -/
theorem exists_operand_of_hasPart {filler : ClassExpression} {value child : SchemaNode}
    (h : filler.fillerSchema? ontology = .ok (some value)) (hpart : value.HasPart child) :
    ∃ role connective operands, filler = .combination role connective operands ∧
      ∃ operand ∈ operands, operand.fillerSchema? ontology = .ok (some child) := by
  cases fills_of_fillerSchema? h with
  | reference | datatype | individuals | literals =>
    exact absurd hpart SchemaNode.not_hasPart_ofKeywords
  | variants _ hschemas =>
    exact ⟨_, _, _, rfl, exists_operand_of_fillerSchemas hschemas hpart.mem_of_oneOfNodes⟩
  | parts _ hschemas =>
    exact ⟨_, _, _, rfl, exists_operand_of_fillerSchemas hschemas hpart.mem_of_allOfNodes⟩

/-- Every node in the schema of a filler is the schema of a part of the filler. -/
theorem throughout_of_fillerSchema? {holds : SchemaNode → Prop} {filler : ClassExpression}
    {value : SchemaNode} (h : filler.fillerSchema? ontology = .ok (some value))
    (hparts : ∀ part inner, ClassExpression.Within ClassExpression.OpensAll part filler →
      part.fillerSchema? ontology = .ok (some inner) → holds inner) :
    value.Throughout holds := by
  intro inner hinner
  induction hinner using Relation.ReflTransGen.head_induction_on generalizing filler with
  | refl => exact hparts filler inner (.whole filler) h
  | head hpart _ ih =>
    obtain ⟨role, connective, operands, rfl, operand, hoperand, hschema⟩ :=
      exists_operand_of_hasPart h hpart
    exact ih hschema fun part inner hwithin hpart =>
      hparts part inner (.operand trivial hoperand hwithin) hpart

theorem allValues_of_fillerSchema? {filler : ClassExpression} {value : SchemaNode}
    (h : filler.fillerSchema? ontology = .ok (some value)) : value.AllValues :=
  throughout_of_fillerSchema? h fun _ _ _ hschema => isValue_of_fillerSchema? hschema

theorem Offers.allValues {declaration : Option (Role × PropertyDeclaration)} {node : SchemaNode}
    (h : Offers prefixes declaration node) : node.AllValues := by
  have hvalue := h.isValue
  cases h with
  | datatype | reference => exact hvalue.allValues

theorem FormsItems.allValues {items : SchemaNode} (h : FormsItems ontology prefixes items) :
    items.AllValues := by
  induction h with
  | datatype hne => exact (SchemaNode.isValue_datatype _ hne).allValues
  | offered _ hoffers => exact hoffers.allValues
  | choice _ hne hoffers =>
    exact SchemaNode.allValues_iff.2 ⟨SchemaNode.isValue_oneOfNodes hne,
      fun _ hpart => (hoffers _ hpart.mem_of_oneOfNodes).allValues⟩
  | filler _ _ hschema => exact allValues_of_fillerSchema? hschema
  | pinned value hne hitems ih =>
    -- A value that is pinned takes away the variants of the items.
    exact SchemaNode.allValues_iff.2 ⟨hitems.isValue.pinnedTo value hne,
      fun child hpart => (SchemaNode.allValues_iff.1 ih).2 child hpart.of_withoutVariants⟩

/-- Everything inside a property that a visit can produce is the schema of a value. -/
theorem Formed.valuesInside (hprefixes : ontology.prefixes? = some prefixes) {name : String}
    {node : SchemaNode} (h : ontology.Formed configuration name node) : node.ValuesInside := by
  intro child hpart
  have hholds := h.holdsItems hprefixes
  exact (hholds.items child (hholds.eq_items_of_hasPart hpart)).2.allValues

end Ontology

namespace ClassBuild

variable {ontology : Ontology} {prefixes : NameMap String} {configuration : Configuration}
  {inflector : Inflector} {iri : String} {build : ClassBuild}

/-- Whatever a visit meets, the schema itself becomes no array. -/
theorem isArray_of_visit (hprefixes : ontology.prefixes? = some prefixes)
    (hvisit : (ontology.firstBuild prefixes configuration.schema iri).visit ontology
      configuration = .ok build) : build.schema.isArray = false := by
  cases hclass : ontology.enumeration? iri with
  | none =>
    obtain ⟨visited, hvisit', hgrows⟩ := grows_of_visit configuration hprefixes hclass
    obtain rfl : visited = build := Except.ok.inj (hvisit'.symm.trans hvisit)
    exact congrArg SchemaNode.isArray hgrows.shell
  | some values =>
    rw [visit_of_enumeration hclass] at hvisit
    obtain rfl := Except.ok.inj hvisit
    exact beq_eq_false_iff_ne.2 fun htype =>
      SchemaType.ofValues_ne_array values (Option.some.inj htype)

/-- The stages shape every node at any depth of a schema. -/
theorem isShaped_staged (inflector : Inflector) (hprefixes : ontology.prefixes? = some prefixes)
    (hvisited : build.Visited ontology prefixes configuration iri)
    (hroot : build.schema.isArray = false) {node : SchemaNode}
    (hnode : Relation.ReflTransGen SchemaNode.HasPart
      (build.staged ontology prefixes configuration inflector).schema node) : node.IsShaped := by
  have hinside : ∀ entry ∈ (build.converted configuration inflector).schema.properties,
      entry.2.ValuesInside :=
    converted_induction hvisited.ordered
      (fun entry hm => ((hvisited.formed entry hm).valuesInside hprefixes).settle)
      (fun _ _ h => h.withKeywords _) fun _ => .collapsed
  have hsteady : (build.converted configuration inflector).Steady configuration.schema :=
    (hvisited.toUnstaged.steady_prepared configuration).convertArrays
  rcases hnode.cases_head with rfl | ⟨child, hpart, hrest⟩
  · obtain ⟨_, _, hshell⟩ := hvisited.shell
    have hitems : build.schema.items = none := congrArg SchemaNode.items hshell
    obtain ⟨_, _, _, _, _, hconverted⟩ := exists_converted_eq configuration inflector build
    rw [schema_staged, hconverted]
    refine iff_of_false (fun htype => ?_) (fun hsome => ?_)
    · have harray : build.schema.isArray = true := beq_iff_eq.2 htype
      rw [hroot] at harray
      cases harray
    · have hsome : build.schema.items.isSome = true := hsome
      rw [hitems] at hsome
      cases hsome
  · rcases part_of_staged hvisited hpart with ⟨entry, hm, rfl⟩ | ⟨other, _, rfl⟩ | rfl
    · rcases hrest.cases_head with rfl | ⟨inner, hinner, hdeep⟩
      · exact (hsteady.values entry hm).isShaped (hsteady.settled entry hm)
      · exact (hinside entry hm inner hinner node hdeep).isShaped
    · exact ((SchemaNode.isValue_referenceTo _).allValues node hrest).isShaped
    · have hobject : (SchemaNode.ofType .object).IsValue :=
        SchemaNode.isValue_of_type rfl nofun rfl rfl
      exact (hobject.allValues node hrest).isShaped

/-- A conversion leaves no array for a single value. -/
theorem Steady.several_of_array {options : SchemaOptions} (h : build.Steady options)
    (harrays : options.alwaysGenerateArrays = false) {name : String} {node : SchemaNode}
    (hmem : (name, node) ∈ (build.convertArrays options inflector).schema.properties)
    (htype : node.type = some .array) :
    name ∉ (build.convertArrays options inflector).functional ∧
      name ∉ (build.convertArrays options inflector).enumerated ∧ node.maxItems ≠ some 1 := by
  have hsteady : (build.convertArrays options inflector).Steady options := h.convertArrays
  have hitems : node.items.isSome :=
    ((hsteady.values _ hmem).isShaped (hsteady.settled _ hmem)).1 htype
  have hkept : (build.convertArrays options inflector).collapses name node = false := by
    have hconverted := hmem
    rw [convertArrays_eq harrays] at hconverted
    obtain ⟨conversion, hc, heq⟩ := (mem_convertedProperties_iff h.nodup).1 hconverted
    obtain ⟨rfl, rfl⟩ := Prod.mk.inj heq
    exact collapses_result h harrays hc
  have harray : node.isArray = true := beq_iff_eq.2 htype
  rw [collapses, harray, hitems, Bool.and_self, Bool.true_and, Bool.or_eq_false_iff,
    Bool.or_eq_false_iff, beq_eq_false_iff_ne] at hkept
  obtain ⟨⟨hfunctional, henumerated⟩, hmax⟩ := hkept
  refine ⟨fun hm => ?_, fun hm => ?_, hmax⟩
  · rw [NameSet.contains_iff.2 hm] at hfunctional
    cases hfunctional
  · rw [NameSet.contains_iff.2 hm] at henumerated
    cases henumerated

end ClassBuild

namespace Ontology

variable {ontology : Ontology} {configuration : Configuration} {inflector : Inflector}
  {iri : String} {compiled : ClassSchema}

/-- The arrays at any depth of a compiled schema are exactly the nodes with items. Unless all arrays
are to stay, no property that is an array is functional, enumerated or for one item at most. -/
theorem arrays_have_items_of_compileClass
    (hcompile : ontology.compileClass configuration inflector iri = .ok compiled) :
    ∃ schema visited built,
      ontology.baseSchema configuration.schema iri = .ok schema ∧
      (ClassBuild.start iri schema).visit ontology configuration = .ok visited ∧
      visited.runStages ontology configuration inflector = .ok built ∧
      compiled.schema = built.schema ∧
      (∀ node, Relation.ReflTransGen SchemaNode.HasPart compiled.schema node →
        (node.type = some .array ↔ node.items.isSome)) ∧
      (configuration.schema.alwaysGenerateArrays = false →
        ∀ name node, (name, node) ∈ compiled.schema.properties → node.type = some .array →
          name ∉ built.functional ∧ name ∉ built.enumerated ∧ node.maxItems ≠ some 1) := by
  obtain ⟨prefixes, visited, hprefixes, hbase, hvisit, hvisited, hstages, hschema⟩ :=
    exists_stages_of_compileClass hcompile
  refine ⟨_, visited, _, hbase, hvisit, hstages, hschema, fun node hnode => ?_, ?_⟩
  · rw [hschema] at hnode
    exact ClassBuild.isShaped_staged inflector hprefixes hvisited
      (ClassBuild.isArray_of_visit hprefixes hvisit) hnode
  · intro harrays name node hmem htype
    obtain ⟨hfunctional, henumerated, _, _, hproperties⟩ :=
      ClassBuild.frame_staged ontology prefixes configuration inflector visited
    rw [hschema, hproperties] at hmem
    rw [hfunctional, henumerated]
    exact (hvisited.toUnstaged.steady_prepared configuration).several_of_array harrays hmem htype

/-- A shelf has a code, and it holds books and closed boxes. -/
def shelves : Ontology where
  iri := "e"
  prefixes := some (.ofList [("", "e#")])
  classes := [{ iri := "e#Shelf" }, { iri := "e#Book" }, { iri := "e#Box" }, { iri := "e#Closed" }]
  dataProperties := [{ iri := "e#codes", domains := ["e#Shelf"], functional := true }]
  subclassAxioms := [
    { sub := "e#Shelf"
      sup := .quantified .object .universal "e#content" (.combination .object .union
        [.named "e#Book",
          .combination .object .intersection [.named "e#Box", .named "e#Closed"]]) }]

/-- Properties of single values are no arrays; all properties keep their names. -/
def sparing : Configuration where
  schema := { alwaysGenerateArrays := false, defaultProperties := false }

/-- The codes collapse. The content stays an array; its items are a choice. -/
theorem arrays_have_items_of_compileClass_shelves :
    sparing.schema.alwaysGenerateArrays = false ∧
      ∃ compiled, shelves.compileClass sparing .english "e#Shelf" = .ok compiled ∧
        compiled.schema.propertyNames = ["codes", "content"] ∧
        ∃ node, ("content", node) ∈ compiled.schema.properties ∧ node.type = some .array ∧
          node.items.isSome ∧ node.maxItems ≠ some 1 := by
  have hprefixes : shelves.prefixes? = some (.ofList [("", "e#")]) := rfl
  obtain ⟨_, compiled, _, _, hcompile, _⟩ :=
    exists_compileClass hprefixes sparing .english "e#Shelf"
  obtain ⟨_, _, _, _, _, _, _, hshaped, hseveral⟩ := arrays_have_items_of_compileClass hcompile
  have hread : (shelves.compileClass sparing .english "e#Shelf").map (fun compiled =>
      compiled.schema.properties.map fun entry : String × SchemaNode =>
        (entry.1, entry.2.type)) =
      .ok [("codes", some .string), ("content", some .array)] := by decide +kernel
  rw [hcompile] at hread
  have hproperties : compiled.schema.properties.map (fun entry => (entry.1, entry.2.type)) =
      [("codes", some .string), ("content", some .array)] := Except.ok.inj hread
  have hnames := congrArg (List.map Prod.fst) hproperties
  rw [List.map_map] at hnames
  have hcontent : ("content", some SchemaType.array) ∈
      compiled.schema.properties.map fun entry => (entry.1, entry.2.type) :=
    hproperties ▸ .tail _ (.head _)
  obtain ⟨⟨name, node⟩, hmem, heq⟩ := List.mem_map.1 hcontent
  obtain ⟨rfl, htype⟩ := Prod.mk.inj heq
  exact ⟨rfl, compiled, hcompile, hnames, node, hmem, htype,
    (hshaped node (.single (.property hmem))).1 htype, (hseveral rfl _ _ hmem htype).2.2⟩

end Ontology

end OntoSchema
