import OntoSchema.Proofs.Compilation
import OntoSchema.Proofs.Steady

/-!
# The required properties of a class

Cardinalities are read once, on the properties as a visit leaves them. Collapsing a property drops
its least number of values, and properties get new names, yet what was read goes with every
property: `required_iff_of_compileClass` says of the compiled class which properties are required
and which are nullable, in terms of the visit.
-/

namespace OntoSchema

theorem SchemaNode.minItems_settle (node : SchemaNode) : node.settle.minItems = node.minItems := by
  unfold settle
  split
  · rfl
  · split <;> rfl

namespace ClassBuild

variable {configuration : Configuration} {options : SchemaOptions} {inflector : Inflector}
  {build : ClassBuild} {name : String} {node : SchemaNode}

/-- The first stages keep the least number of values of every property. -/
theorem exists_prepared_property (configuration : Configuration)
    (hmem : (name, node) ∈ build.schema.properties) :
    ∃ settled, (name, settled) ∈ (build.prepared configuration).schema.properties ∧
      settled.minItems = node.minItems := by
  have hclean : (name, node.settle) ∈ build.cleanup.schema.properties :=
    List.mem_map_of_mem (f := fun entry : String × SchemaNode => (entry.1, entry.2.settle)) hmem
  have hmin := node.minItems_settle
  unfold prepared applyRequiredness
  dsimp only
  split
  · exact ⟨_, hclean, hmin⟩
  · split
    · exact ⟨_, SchemaNode.mem_generateRequired.2 ⟨_, hclean, rfl⟩, hmin⟩
    · exact ⟨_, hclean, hmin⟩

/-- A property without a least number of values of its own demands one if it is mandatory. -/
theorem demandsValue_of_unstaged (h : build.Unstaged) {settled : SchemaNode}
    (hmin : settled.minItems = node.minItems) :
    settled.demandsValue (build.prepared configuration).mandatory name =
      decide (0 < node.minItems.getD 0) := by
  obtain ⟨_, _, hmandatory, _⟩ := frame_prepared configuration build
  have hnone : (∅ : NameSet).contains name = false :=
    decide_eq_false (NameSet.not_mem_empty name)
  rw [SchemaNode.demandsValue, hmandatory, h.mandatory, hnone, Bool.or_false, hmin]

/-- What the cardinalities of a visited property say. -/
theorem Unstaged.exists_prepared (h : build.Unstaged)
    (hderives : configuration.schema.requiredFromCardinality = true)
    (hmem : (name, node) ∈ build.schema.properties) :
    ∃ settled, (name, settled) ∈ (build.prepared configuration).schema.properties ∧
      settled.nullable = some (!decide (0 < node.minItems.getD 0)) ∧
      (name ∈ (build.prepared configuration).schema.required ↔
        0 < node.minItems.getD 0 ∨ name ∈ build.functional) := by
  have hsteady := h.steady_prepared configuration
  obtain ⟨settled, hsettled, hmin⟩ := exists_prepared_property configuration hmem
  have hdemands : settled.demandsValue (build.prepared configuration).mandatory name =
      decide (0 < node.minItems.getD 0) := demandsValue_of_unstaged h hmin
  refine ⟨settled, hsettled, ?_, ?_⟩
  · rw [hsteady.nullable hderives _ hsettled, hdemands]
  · obtain ⟨hfunctional, _⟩ := frame_prepared configuration build
    have hrequired : settled.isRequired (build.prepared configuration).functional
        (build.prepared configuration).mandatory name = true ↔
          0 < node.minItems.getD 0 ∨ name ∈ build.functional := by
      rw [SchemaNode.isRequired, hdemands, hfunctional, Bool.or_eq_true, decide_eq_true_eq,
        NameSet.contains_iff]
    rw [hsteady.demanded hderives, ← hrequired]
    constructor
    · rintro ⟨other, hother, hdemanded⟩
      rwa [Entries.value_unique hsteady.ordered hsettled hother]
    · exact fun hdemanded => ⟨settled, hsettled, hdemanded⟩

/-- A conversion keeps the nullability of a property that goes by its new name. -/
theorem Steady.exists_renamed (h : build.Steady options) (inflector : Inflector)
    (hderives : options.requiredFromCardinality = true)
    (hmem : (name, node) ∈ build.schema.properties) :
    ∃ result, (build.renamed options inflector name, result) ∈
        (build.convertArrays options inflector).schema.properties ∧
      result.nullable = node.nullable := by
  cases harrays : options.alwaysGenerateArrays with
  | true =>
    rw [convertArrays_of_always harrays, renamed_of_always harrays]
    exact ⟨node, hmem, rfl⟩
  | false =>
    obtain ⟨conversion, hm, rfl⟩ :=
      exists_conversion options inflector (Entries.mem_names_of_mem hmem)
    obtain rfl := Entries.value_unique h.ordered hmem (mem_conversionsFrom hm).1
    refine ⟨conversion.result, ?_, nullable_result h hderives hm⟩
    rw [renamed_source harrays h.nodup hm, convertArrays_eq harrays]
    exact (mem_convertedProperties_iff h.nodup).2 ⟨conversion, hm, rfl⟩

end ClassBuild

namespace Ontology

variable {ontology : Ontology} {configuration : Configuration} {inflector : Inflector}
  {iri : String} {compiled : ClassSchema}

/-- A property of a compiled class is required just when the visit left it with a positive least
number of values or as a functional one, and it is nullable just when it has no such number. The
renaming of the conversion tells which property it was. Nothing else is required. -/
theorem required_iff_of_compileClass
    (hderives : configuration.schema.requiredFromCardinality = true)
    (hcompile : ontology.compileClass configuration inflector iri = .ok compiled) :
    ∃ schema visited built,
      ontology.baseSchema configuration.schema iri = .ok schema ∧
      (ClassBuild.start iri schema).visit ontology configuration = .ok visited ∧
      visited.runStages ontology configuration inflector = .ok built ∧
      compiled.schema = built.schema ∧
      Set.BijOn ((visited.prepared configuration).renamed configuration.schema inflector)
        {name | name ∈ visited.schema.propertyNames}
        {name | name ∈ compiled.schema.propertyNames} ∧
      (∀ name node, (name, node) ∈ visited.schema.properties →
        ∃ result,
          ((visited.prepared configuration).renamed configuration.schema inflector name, result) ∈
            compiled.schema.properties ∧
          ((visited.prepared configuration).renamed configuration.schema inflector name ∈
              compiled.schema.required ↔
            0 < node.minItems.getD 0 ∨ name ∈ visited.functional) ∧
          result.nullable = some (!decide (0 < node.minItems.getD 0))) ∧
      (∀ name ∈ compiled.schema.required, name ∈ compiled.schema.propertyNames) ∧
      built.required = compiled.schema.required := by
  obtain ⟨prefixes, visited, _, hbase, hvisit, hvisited, hstages, hschema⟩ :=
    exists_stages_of_compileClass hcompile
  obtain ⟨_, _, hsynced, hrequired, hproperties⟩ :=
    ClassBuild.frame_staged ontology prefixes configuration inflector visited
  have hsteady := hvisited.toUnstaged.steady_prepared configuration
  have hconverted : (visited.converted configuration inflector).Steady configuration.schema :=
    hsteady.convertArrays
  have hnames : (visited.staged ontology prefixes configuration inflector).schema.propertyNames =
      (visited.converted configuration inflector).schema.propertyNames :=
    congrArg Entries.names hproperties
  refine ⟨_, visited, _, hbase, hvisit, hstages, hschema, ?_, ?_, ?_, ?_⟩
  · rw [hschema, hnames, ← ClassBuild.propertyNames_prepared configuration visited]
    exact ClassBuild.bijOn_renamed hsteady.nodup
  · intro name node hmem
    obtain ⟨settled, hsettled, hnullable, hdemanded⟩ :=
      hvisited.toUnstaged.exists_prepared hderives hmem
    obtain ⟨result, hresult, hkept⟩ := hsteady.exists_renamed inflector hderives hsettled
    rw [hschema, hproperties, hrequired]
    refine ⟨result, hresult, ?_, hkept.trans hnullable⟩
    exact (ClassBuild.renamed_mem_required_iff hsteady.nodup hsteady.required
      (Entries.mem_names_of_mem hsettled)).trans hdemanded
  · rw [hschema, hrequired, hnames]
    exact hconverted.required
  · rw [hschema, hrequired, hsynced]
    exact hconverted.synced

/-- A band has one leader, and up to three prizes. -/
def bands : Ontology where
  iri := "e"
  prefixes := some (.ofList [("", "e#")])
  classes := [{ iri := "e#Band" }, { iri := "e#Person" }]
  subclassAxioms := [
    { sub := "e#Band", sup :=
        .cardinality .object .exact "e#leaders" 1 (some (.named "e#Person")) },
    { sub := "e#Band", sup := .cardinality .object .max "e#prizes" 3 none }]

/-- Properties collapse after their cardinalities are read. -/
def requiring : Configuration where
  schema := { alwaysGenerateArrays := false, fixPropertyNames := true,
              requiredFromCardinality := true, defaultProperties := false }

/-- The leader collapses and is required by the new name; the prizes are not required. -/
theorem required_iff_of_compileClass_bands :
    requiring.schema.requiredFromCardinality = true ∧
      ∃ compiled, bands.compileClass requiring .english "e#Band" = .ok compiled ∧
        "leader" ∈ compiled.schema.required ∧ "prizes" ∉ compiled.schema.required := by
  have hprefixes : bands.prefixes? = some (.ofList [("", "e#")]) := rfl
  obtain ⟨_, compiled, _, _, hcompile, _⟩ :=
    exists_compileClass hprefixes requiring .english "e#Band"
  obtain ⟨schema, visited, _, hbase, hvisit, _, _, _, hproperties, _⟩ :=
    required_iff_of_compileClass rfl hcompile
  rw [baseSchema_eq hprefixes] at hbase
  obtain rfl := Except.ok.inj hbase
  have hread : (((ClassBuild.start "e#Band" (bands.baseNode (.ofList [("", "e#")])
      requiring.schema "e#Band")).visit bands requiring).map fun visited =>
      visited.schema.properties.map fun entry : String × SchemaNode =>
        ((visited.prepared requiring).renamed requiring.schema .english entry.1,
          decide (0 < entry.2.minItems.getD 0 ∨ entry.1 ∈ visited.functional))) =
      .ok [("leader", true), ("prizes", false)] := by decide +kernel
  rw [hvisit] at hread
  have hrequired : ∀ read ∈ [("leader", true), ("prizes", false)],
      read.1 ∈ compiled.schema.required ↔ read.2 = true := by
    intro read hmem
    rw [← Except.ok.inj hread] at hmem
    obtain ⟨⟨name, node⟩, hproperty, rfl⟩ := List.mem_map.1 hmem
    obtain ⟨_, _, hiff, _⟩ := hproperties name node hproperty
    rw [hiff, decide_eq_true_eq]
  refine ⟨rfl, compiled, hcompile, (hrequired _ (.head _)).2 rfl, fun hmem => ?_⟩
  exact Bool.false_ne_true ((hrequired _ (.tail _ (.head _))).1 hmem)

end Ontology

end OntoSchema
