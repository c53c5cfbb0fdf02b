import OntoSchema.Proofs.Stages

/-!
# Builds that the first stages leave alone

`Steady` holds of a build whose properties have settled shapes and whose required names agree with
the rest of it. The first stages lead there, and change nothing there. The conversion of arrays
keeps it: a collapsed property loses its least number of values, and its name goes to the mandatory
ones.
-/

namespace OntoSchema

namespace SchemaNode

variable {node : SchemaNode}

theorem dropSingleValue_cases (node : SchemaNode) :
    node.dropSingleValue = node ∨
      node.defaultValue.isSome ∧ node.dropSingleValue = { node with enumValues := none } := by
  unfold dropSingleValue
  split
  · rename_i hdefault
    exact .inr ⟨by rw [hdefault]; rfl, rfl⟩
  · exact .inl rfl

theorem IsValue.dropSingleValue (h : node.IsValue) : node.dropSingleValue.IsValue := by
  rcases node.dropSingleValue_cases with hsame | ⟨hdefault, hdropped⟩
  · rwa [hsame]
  · rw [hdropped]
    refine ⟨h.items, h.minItems, ?_, h.typed⟩
    have htype : node.type.isSome := h.typed hdefault
    have harray : node.isArray = false := h.isArray
    unfold isUnresolved
    rw [Bool.or_eq_false_iff]
    refine ⟨harray, ?_⟩
    cases htype' : node.type with
    | none => rw [htype'] at htype; cases htype
    | some type => rfl

theorem dropSingleValue_dropSingleValue (node : SchemaNode) :
    node.dropSingleValue.dropSingleValue = node.dropSingleValue := by
  rcases node.dropSingleValue_cases with hsame | ⟨_, hdropped⟩
  · rw [hsame, hsame]
  · rw [hdropped]
    rfl

theorem settle_of_items {items : SchemaNode} (h : node.items = some items) :
    node.settle = { node with items := some items.dropSingleValue } := by
  unfold settle
  rw [h]

theorem settle_of_unresolved (hitems : node.items = none) (h : node.isUnresolved = true) :
    node.settle = { node with type := some .object } := by
  unfold settle
  rw [hitems]
  dsimp only
  rw [if_pos h]

theorem settle_of_resolved (hitems : node.items = none) (h : node.isUnresolved = false) :
    node.settle = node := by
  unfold settle
  rw [hitems]
  dsimp only
  rw [if_neg (Bool.not_eq_true _ ▸ h)]

theorem HoldsValues.settle (h : node.HoldsValues) : node.settle.HoldsValues := by
  cases hitems : node.items with
  | some items =>
    rw [settle_of_items hitems]
    obtain ⟨harray, hvalue⟩ := h items hitems
    intro other hother
    obtain rfl := Option.some.inj hother
    exact ⟨harray, hvalue.dropSingleValue⟩
  | none =>
    cases hresolved : node.isUnresolved with
    | false => rwa [settle_of_resolved hitems hresolved]
    | true =>
      rw [settle_of_unresolved hitems hresolved]
      intro items hsome
      rw [hitems] at hsome
      cases hsome

theorem settle_settle (node : SchemaNode) : node.settle.settle = node.settle := by
  cases hitems : node.items with
  | some items =>
    rw [settle_of_items hitems]
    refine (settle_of_items rfl).trans ?_
    rw [dropSingleValue_dropSingleValue]
  | none =>
    cases hresolved : node.isUnresolved with
    | false => rw [settle_of_resolved hitems hresolved, settle_of_resolved hitems hresolved]
    | true =>
      rw [settle_of_unresolved hitems hresolved]
      exact settle_of_resolved hitems rfl

theorem settle_nullable (node : SchemaNode) (nullable : Option Bool) :
    SchemaNode.settle { node with nullable } = { node.settle with nullable } := by
  obtain hitems | ⟨items, hitems⟩ := Option.eq_none_or_eq_some node.items
  · cases hresolved : node.isUnresolved with
    | false =>
      rw [settle_of_resolved hitems hresolved]
      exact settle_of_resolved hitems hresolved
    | true =>
      rw [settle_of_unresolved hitems hresolved]
      exact settle_of_unresolved hitems hresolved
  · rw [settle_of_items hitems]
    exact settle_of_items hitems

/-- The schema of a value that stood behind an array is settled. -/
theorem settle_collapsed (h : node.HoldsValues) (hsettled : node.settle = node) :
    node.collapsed.settle = node.collapsed := by
  unfold SchemaNode.collapsed
  split
  · exact hsettled
  · rename_i items hitems
    obtain ⟨_, hvalue⟩ := h items hitems
    exact settle_of_resolved hvalue.items hvalue.resolved

end SchemaNode

namespace SchemaNode

variable {functional mandatory : NameSet} {schema : SchemaNode}

theorem mem_generateRequired {name : String} {property : SchemaNode} :
    (name, property) ∈ (schema.generateRequired functional mandatory).properties ↔
      ∃ node, (name, node) ∈ schema.properties ∧
        { node with nullable := some (!node.demandsValue mandatory name) } = property := by
  constructor
  · intro h
    obtain ⟨⟨_, node⟩, hold, heq⟩ := List.mem_map.1 h
    obtain ⟨rfl, rfl⟩ := Prod.mk.inj heq
    exact ⟨node, hold, rfl⟩
  · rintro ⟨node, hmem, rfl⟩
    exact List.mem_map.2 ⟨(name, node), hmem, rfl⟩

theorem mem_required_generateRequired {name : String} :
    name ∈ (schema.generateRequired functional mandatory).required ↔
      ∃ node, (name, node) ∈ schema.properties ∧
        node.isRequired functional mandatory name = true := by
  have hrequired : (schema.generateRequired functional mandatory).required =
      NameSet.ofList (Entries.names (schema.properties.filter fun entry =>
        entry.2.isRequired functional mandatory entry.1)) := rfl
  rw [hrequired, NameSet.mem_ofList, Entries.names, List.mem_map]
  constructor
  · rintro ⟨entry, hm, rfl⟩
    obtain ⟨hm, hdemanded⟩ := List.mem_filter.1 hm
    exact ⟨entry.2, hm, hdemanded⟩
  · rintro ⟨node, hm, hdemanded⟩
    exact ⟨(name, node), List.mem_filter.2 ⟨hm, hdemanded⟩, rfl⟩

end SchemaNode

namespace ClassBuild

variable {configuration : Configuration} {options : SchemaOptions} {inflector : Inflector}
  {build : ClassBuild}

/-- A build on which the first stages have nothing left to do. -/
structure Steady (options : SchemaOptions) (build : ClassBuild) : Prop where
  ordered : Entries.Ordered build.schema.properties
  functional : ∀ name ∈ build.functional, name ∈ build.schema.propertyNames
  enumerated : ∀ name ∈ build.enumerated, name ∈ build.schema.propertyNames
  mandatory : ∀ name ∈ build.mandatory, name ∈ build.schema.propertyNames
  required : ∀ name ∈ build.schema.required, name ∈ build.schema.propertyNames
  bare : build.schema.isEnum = true → build.schema.properties = []
  synced : build.required = build.schema.required
  values : ∀ entry ∈ build.schema.properties, entry.2.HoldsValues
  settled : ∀ entry ∈ build.schema.properties, entry.2.settle = entry.2
  nullable : options.requiredFromCardinality = true → ∀ entry ∈ build.schema.properties,
    entry.2.nullable = some (!entry.2.demandsValue build.mandatory entry.1)
  demanded : options.requiredFromCardinality = true → ∀ name, name ∈ build.schema.required ↔
    ∃ node, (name, node) ∈ build.schema.properties ∧
      node.isRequired build.functional build.mandatory name = true

theorem Steady.nodup (h : build.Steady options) : build.schema.propertyNames.Nodup :=
  Entries.nodup_names h.ordered

theorem syncRequired_self (h : build.required = build.schema.required) :
    build.syncRequired = build := by
  unfold syncRequired
  rw [← h]

theorem withSchema_self (build : ClassBuild) {schema : SchemaNode} (h : schema = build.schema) :
    { build with schema } = build := by
  rw [h]

theorem Steady.cleanup_eq (h : build.Steady options) : build.cleanup = build := by
  have hproperties : Entries.mapValues (fun _ property => SchemaNode.settle property)
      build.schema.properties = build.schema.properties := Entries.mapValues_eq_self h.settled
  unfold cleanup
  rw [hproperties]
  exact withSchema_self build (by cases build.schema; rfl)

theorem Steady.generateRequired_eq (h : build.Steady options)
    (hderives : options.requiredFromCardinality = true) : build.generateRequired = build := by
  have hproperties : (build.schema.generateRequired build.functional build.mandatory).properties =
      build.schema.properties := by
    unfold SchemaNode.generateRequired
    dsimp only
    refine Entries.mapValues_eq_self fun entry hm => ?_
    rw [← h.nullable hderives entry hm]
    cases entry.2
    rfl
  have hrequired : (build.schema.generateRequired build.functional build.mandatory).required =
      build.schema.required := by
    refine NameSet.ext_mem fun name => ?_
    rw [SchemaNode.mem_required_generateRequired, h.demanded hderives]
  refine withSchema_self build ?_
  have hshape : ∀ node : SchemaNode, node.properties = build.schema.properties →
      node.required = build.schema.required →
      { build.schema with properties := node.properties, required := node.required } =
        build.schema := by
    intro node hp hr
    rw [hp, hr]
    cases build.schema
    rfl
  exact hshape _ hproperties hrequired

/-- The first stages change nothing on a steady build. -/
theorem Steady.prepared_eq (h : build.Steady configuration.schema) :
    build.prepared configuration = build := by
  unfold prepared applyRequiredness
  rw [h.cleanup_eq]
  dsimp only
  split
  · rename_i henum
    have hnone : build.schema.required = ∅ := by
      refine NameSet.ext_mem fun name => iff_of_false (fun hm => ?_) (NameSet.not_mem_empty name)
      have hname := h.required name hm
      rw [SchemaNode.propertyNames, h.bare henum] at hname
      exact List.not_mem_nil hname
    have hschema : { build.schema with required := ∅ } = build.schema := by
      rw [← hnone]
      cases build.schema
      rfl
    rw [withSchema_self build hschema]
    exact syncRequired_self h.synced
  · split
    · rename_i hderives
      rw [h.generateRequired_eq hderives]
      exact syncRequired_self h.synced
    · exact syncRequired_self h.synced

theorem prepared_cases (configuration : Configuration) (build : ClassBuild) :
    (build.schema.isEnum = true ∧ (build.prepared configuration).schema.required = ∅) ∨
      (configuration.schema.requiredFromCardinality = true ∧
        build.prepared configuration = build.cleanup.generateRequired.syncRequired) ∨
      (configuration.schema.requiredFromCardinality = false ∧
        build.prepared configuration = build.cleanup.syncRequired) := by
  unfold prepared applyRequiredness
  dsimp only
  split
  · exact .inl ⟨‹_›, rfl⟩
  · split
    · exact .inr (.inl ⟨‹_›, rfl⟩)
    · exact .inr (.inr ⟨Bool.not_eq_true _ ▸ ‹_›, rfl⟩)

theorem frame_prepared (configuration : Configuration) (build : ClassBuild) :
    (build.prepared configuration).functional = build.functional ∧
      (build.prepared configuration).enumerated = build.enumerated ∧
      (build.prepared configuration).mandatory = build.mandatory ∧
      (build.prepared configuration).schema.isEnum = build.schema.isEnum := by
  obtain ⟨_, _, heq⟩ := exists_prepared_eq configuration build
  rw [heq]
  exact ⟨rfl, rfl, rfl, rfl⟩

theorem Unstaged.properties_prepared (h : build.Unstaged) (configuration : Configuration)
    (henum : build.schema.isEnum = true) :
    (build.prepared configuration).schema.properties = [] := by
  have hnone : (build.prepared configuration).schema.propertyNames = [] := by
    rw [propertyNames_prepared, SchemaNode.propertyNames, h.bare henum]
    rfl
  exact List.map_eq_nil_iff.1 hnone

theorem Unstaged.shapes_prepared (h : build.Unstaged) (configuration : Configuration) :
    ∀ entry ∈ (build.prepared configuration).schema.properties,
      entry.2.HoldsValues ∧ entry.2.settle = entry.2 := by
  refine prepared_induction (motive := fun node => node.HoldsValues ∧ node.settle = node) ?_ ?_
  · exact fun entry hm => ⟨(h.values entry hm).settle, entry.2.settle_settle⟩
  · rintro node nullable ⟨hvalues, hsettled⟩
    refine ⟨fun items hitems => hvalues items hitems, ?_⟩
    rw [SchemaNode.settle_nullable, hsettled]

/-- The first stages lead to a steady build. -/
theorem Unstaged.steady_prepared (h : build.Unstaged) (configuration : Configuration) :
    (build.prepared configuration).Steady configuration.schema := by
  have hnames := propertyNames_prepared configuration build
  obtain ⟨hfunctional, henumerated, hmandatory, henum⟩ := frame_prepared configuration build
  have hbare : build.schema.isEnum = true →
      (build.prepared configuration).schema.properties = [] := h.properties_prepared configuration
  have hshapes := h.shapes_prepared configuration
  have hclean : build.cleanup.schema.required = ∅ := h.required
  refine {
    ordered := ordered_prepared configuration h.ordered
    functional := fun name hm => hnames ▸ h.functional name (hfunctional ▸ hm)
    enumerated := fun name hm => hnames ▸ h.enumerated name (henumerated ▸ hm)
    mandatory := fun name hm => ?_
    required := fun name hm => ?_
    bare := fun he => hbare (henum ▸ he)
    synced := rfl
    values := fun entry hm => (hshapes entry hm).1
    settled := fun entry hm => (hshapes entry hm).2
    nullable := fun hderives entry hm => ?_
    demanded := fun hderives name => ?_ }
  · rw [hmandatory, h.mandatory] at hm
    exact absurd hm (NameSet.not_mem_empty name)
  · rcases prepared_cases configuration build with ⟨_, hnone⟩ | ⟨_, heq⟩ | ⟨_, heq⟩
    · rw [hnone] at hm
      exact absurd hm (NameSet.not_mem_empty name)
    · rw [heq] at hm ⊢
      obtain ⟨node, hnode, _⟩ := SchemaNode.mem_required_generateRequired.1 hm
      have hname := Entries.mem_names_of_mem hnode
      rwa [← SchemaNode.propertyNames, ← SchemaNode.propertyNames_generateRequired] at hname
    · rw [heq] at hm
      have hm : name ∈ build.cleanup.schema.required := hm
      rw [hclean] at hm
      exact absurd hm (NameSet.not_mem_empty name)
  · rcases prepared_cases configuration build with ⟨he, _⟩ | ⟨_, heq⟩ | ⟨hnot, _⟩
    · rw [hbare he] at hm
      cases hm
    · obtain ⟨name, property⟩ := entry
      rw [heq] at hm ⊢
      obtain ⟨node, _, rfl⟩ := SchemaNode.mem_generateRequired.1 hm
      rfl
    · rw [hderives] at hnot
      cases hnot
  · rcases prepared_cases configuration build with ⟨he, hnone⟩ | ⟨_, heq⟩ | ⟨hnot, _⟩
    · rw [hnone, hbare he]
      refine iff_of_false (NameSet.not_mem_empty name) ?_
      rintro ⟨_, hm, _⟩
      cases hm
    · rw [heq]
      refine SchemaNode.mem_required_generateRequired.trans ⟨?_, ?_⟩
      · rintro ⟨node, hnode, hdemanded⟩
        exact ⟨_, SchemaNode.mem_generateRequired.2 ⟨node, hnode, rfl⟩, hdemanded⟩
      · rintro ⟨_, hm, hdemanded⟩
        obtain ⟨node, hnode, rfl⟩ := SchemaNode.mem_generateRequired.1 hm
        exact ⟨node, hnode, hdemanded⟩
    · rw [hderives] at hnot
      cases hnot

variable {conversion : Conversion}

theorem exists_items_of_collapses (h : build.Steady options)
    (hmem : conversion ∈ build.conversions options inflector)
    (hcollapses : conversion.collapses = true) :
    ∃ items, conversion.node.items = some items ∧ items.IsValue := by
  rw [(records_of_mem hmem).collapses, collapses, Bool.and_eq_true, Bool.and_eq_true] at hcollapses
  obtain ⟨items, hitems⟩ := Option.isSome_iff_exists.1 hcollapses.1.2
  exact ⟨items, hitems, (h.values _ (mem_conversionsFrom hmem).1 items hitems).2⟩

/-- A property demands a value after the conversion just when it did before. -/
theorem demandsValue_result (h : build.Steady options)
    (hmem : conversion ∈ build.conversions options inflector) :
    conversion.result.demandsValue
        (build.moved options inflector (build.mandatorySources options inflector))
        conversion.target =
      conversion.node.demandsValue build.mandatory conversion.source := by
  have hmoved : conversion.target ∈
      build.moved options inflector (build.mandatorySources options inflector) ↔
        conversion.wasMandatory = true ∨ conversion.source ∈ build.mandatory := by
    rw [target_mem_moved_iff h.nodup (mandatorySources_subset h.mandatory) hmem,
      source_mem_mandatorySources_iff h.nodup hmem]
  rw [Bool.eq_iff_iff]
  unfold SchemaNode.demandsValue
  rw [Bool.or_eq_true, Bool.or_eq_true, NameSet.contains_iff, NameSet.contains_iff, hmoved]
  cases hcollapses : conversion.collapses with
  | false =>
    rw [result_of_not_collapses hcollapses, Conversion.wasMandatory, hcollapses]
    simp
  | true =>
    obtain ⟨items, hitems, hvalue⟩ := exists_items_of_collapses h hmem hcollapses
    have hnone : conversion.result.minItems = none := by
      rw [result_of_collapses hcollapses, SchemaNode.collapsed, hitems]
      exact hvalue.minItems
    rw [hnone, Conversion.wasMandatory, hcollapses]
    simp

theorem isRequired_result (h : build.Steady options)
    (hmem : conversion ∈ build.conversions options inflector) :
    conversion.result.isRequired (build.moved options inflector build.functional)
        (build.moved options inflector (build.mandatorySources options inflector))
        conversion.target =
      conversion.node.isRequired build.functional build.mandatory conversion.source := by
  have hfunctional : (build.moved options inflector build.functional).contains conversion.target =
      build.functional.contains conversion.source := by
    rw [Bool.eq_iff_iff, NameSet.contains_iff, NameSet.contains_iff,
      target_mem_moved_iff h.nodup h.functional hmem]
  unfold SchemaNode.isRequired
  rw [demandsValue_result h hmem, hfunctional]

theorem nullable_result (h : build.Steady options)
    (hderives : options.requiredFromCardinality = true)
    (hmem : conversion ∈ build.conversions options inflector) :
    conversion.result.nullable = conversion.node.nullable := by
  cases hcollapses : conversion.collapses with
  | false => rw [result_of_not_collapses hcollapses]
  | true =>
    obtain ⟨items, hitems, _⟩ := exists_items_of_collapses h hmem hcollapses
    have hnode := h.nullable hderives _ (mem_conversionsFrom hmem).1
    rw [result_of_collapses hcollapses, SchemaNode.collapsed, hitems]
    dsimp only at hnode ⊢
    rw [hnode, Option.some_or]

/-- What a conversion makes of a property is settled, and its items are values. -/
theorem result_settled (h : build.Steady options)
    (hmem : conversion ∈ build.conversions options inflector) :
    conversion.result.HoldsValues ∧ conversion.result.settle = conversion.result := by
  have hnode := (mem_conversionsFrom hmem).1
  have hvalues := h.values _ hnode
  have hsettled := h.settled _ hnode
  cases hcollapses : conversion.collapses with
  | false =>
    rw [result_of_not_collapses hcollapses]
    exact ⟨hvalues, hsettled⟩
  | true =>
    obtain ⟨items, hitems, hvalue⟩ := exists_items_of_collapses h hmem hcollapses
    rw [result_of_collapses hcollapses]
    refine ⟨fun inner hinner => ?_, SchemaNode.settle_collapsed hvalues hsettled⟩
    rw [SchemaNode.collapsed, hitems] at hinner
    have hnone : items.items = some inner := hinner
    rw [hvalue.items] at hnone
    cases hnone

/-- The conversion of arrays leads from a steady build to a steady one. -/
theorem Steady.convertArrays (h : build.Steady options) :
    (build.convertArrays options inflector).Steady options := by
  cases harrays : options.alwaysGenerateArrays with
  | true => rwa [convertArrays_of_always harrays]
  | false =>
    rw [convertArrays_eq harrays]
    exact {
      ordered := Entries.ordered_ofList _
      functional := moved_subset h.nodup h.functional
      enumerated := moved_subset h.nodup h.enumerated
      mandatory := moved_subset h.nodup (mandatorySources_subset h.mandatory)
      required := moved_subset h.nodup h.required
      bare := fun henum => by
        have hnone : build.conversions options inflector = [] := by
          unfold conversions
          rw [h.bare henum]
          rfl
        have hproperties : build.convertedProperties options inflector = [] := by
          unfold convertedProperties
          rw [hnone]
          rfl
        exact hproperties
      synced := rfl
      values := fun entry hm => by
        obtain ⟨conversion, hc, rfl⟩ := (mem_convertedProperties_iff h.nodup).1 hm
        exact (result_settled h hc).1
      settled := fun entry hm => by
        obtain ⟨conversion, hc, rfl⟩ := (mem_convertedProperties_iff h.nodup).1 hm
        exact (result_settled h hc).2
      nullable := fun hderives entry hm => by
        obtain ⟨conversion, hc, rfl⟩ := (mem_convertedProperties_iff h.nodup).1 hm
        have hnode := h.nullable hderives _ (mem_conversionsFrom hc).1
        exact (nullable_result h hderives hc).trans
          (hnode.trans (congrArg (fun demands => some !demands) (demandsValue_result h hc).symm))
      demanded := fun hderives name => by
        refine (mem_moved_iff h.nodup h.required).trans ⟨?_, ?_⟩
        · rintro ⟨conversion, hc, rfl, hsource⟩
          obtain ⟨node, hnode, hrequired⟩ := (h.demanded hderives _).1 hsource
          obtain rfl := Entries.value_unique h.ordered hnode (mem_conversionsFrom hc).1
          refine ⟨conversion.result, (mem_convertedProperties_iff h.nodup).2 ⟨_, hc, rfl⟩, ?_⟩
          exact (isRequired_result h hc).trans hrequired
        · rintro ⟨node, hm, hrequired⟩
          obtain ⟨conversion, hc, heq⟩ := (mem_convertedProperties_iff h.nodup).1 hm
          obtain ⟨rfl, rfl⟩ := Prod.mk.inj heq
          refine ⟨conversion, hc, rfl, ?_⟩
          refine (h.demanded hderives _).2 ⟨_, (mem_conversionsFrom hc).1, ?_⟩
          exact (isRequired_result h hc).symm.trans hrequired }

theorem isArray_result_of_collapses (h : build.Steady options)
    (hmem : conversion ∈ build.conversions options inflector)
    (hcollapses : conversion.collapses = true) : conversion.result.isArray = false := by
  obtain ⟨items, hitems, hvalue⟩ := exists_items_of_collapses h hmem hcollapses
  rw [result_of_collapses hcollapses, SchemaNode.collapsed, hitems]
  exact hvalue.isArray

/-- No converted property collapses again. -/
theorem collapses_result (h : build.Steady options) (harrays : options.alwaysGenerateArrays = false)
    (hmem : conversion ∈ build.conversions options inflector) :
    (build.convertArrays options inflector).collapses conversion.target conversion.result =
      false := by
  rw [convertArrays_eq harrays]
  unfold collapses
  dsimp only
  cases hcollapses : conversion.collapses with
  | true =>
    rw [isArray_result_of_collapses h hmem hcollapses]
    rfl
  | false =>
    have hsame : ∀ {set : NameSet}, (∀ name ∈ set, name ∈ build.schema.propertyNames) →
        (build.moved options inflector set).contains conversion.target =
          set.contains conversion.source := by
      intro set hset
      rw [Bool.eq_iff_iff, NameSet.contains_iff, NameSet.contains_iff,
        target_mem_moved_iff h.nodup hset hmem]
    rw [hsame h.functional, hsame h.enumerated, result_of_not_collapses hcollapses, ← hcollapses,
      (records_of_mem hmem).collapses]
    rfl

end ClassBuild

end OntoSchema
