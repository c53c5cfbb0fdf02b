import OntoSchema.Proofs.ConvertedProperties
import OntoSchema.Proofs.ExampleNotes
import OntoSchema.Proofs.ExampleProblems
import OntoSchema.Proofs.Numerals

/-!
# Examples of compiled properties

The stages keep the example of every property, and what they leave of a property has no parts beyond
its items. A check is only relied on to go by types where there is nothing else to go by
(`ValueCheck.ChecksTypes`). So whether an example fits a value schema with nothing but a type
depends on the type that the annotation found: `Ontology.example_accepted_iff`.
-/

namespace OntoSchema

/-- Neither an array nor an object. -/
def Json.IsScalar : Json → Prop
  | .array _ | .object _ => False
  | .null | .bool _ | .number _ | .string _ => True

namespace SchemaNode

/-- A schema with a type that lists no values, combines no other schemas, and refers to none. -/
structure IsPlain (type : SchemaType) (node : SchemaNode) : Prop where
  type : node.type = some type
  reference : node.reference = none
  enumValues : node.enumValues = none
  oneOf : node.oneOf = []
  allOf : node.allOf = []

/-- A property holds at most items. These have neither properties nor items nor an example. -/
structure HoldsBareItems (node : SchemaNode) : Prop where
  properties : node.properties = []
  items : ∀ items, node.items = some items → node.isArray = true ∧
    items.properties = [] ∧ items.items = none ∧ items.exampleValue = none

section Plain

variable {node items : SchemaNode} {type : SchemaType} {value : Json}

theorem HoldsBareItems.settle (h : node.HoldsBareItems) : node.settle.HoldsBareItems := by
  cases hitems : node.items with
  | none =>
    have hnone : ∀ items, node.items ≠ some items := fun items hsome => by
      rw [hitems] at hsome
      cases hsome
    cases hresolved : node.isUnresolved with
    | false => rwa [settle_of_resolved hitems hresolved]
    | true =>
      rw [settle_of_unresolved hitems hresolved]
      exact ⟨h.properties, fun items hsome => absurd hsome (hnone items)⟩
  | some items =>
    rw [settle_of_items hitems]
    refine ⟨h.properties, fun other hother => ?_⟩
    obtain rfl := Option.some.inj hother
    obtain ⟨harray, hbare⟩ := h.items items hitems
    refine ⟨harray, ?_⟩
    rcases items.dropSingleValue_cases with hsame | ⟨_, hdropped⟩
    · rwa [hsame]
    · rw [hdropped]
      exact hbare

theorem HoldsBareItems.collapsed (h : node.HoldsBareItems) : node.collapsed.HoldsBareItems := by
  unfold SchemaNode.collapsed
  split
  · exact h
  · rename_i items hitems
    obtain ⟨_, hproperties, hnone, _⟩ := h.items items hitems
    refine ⟨hproperties, fun inner hinner => ?_⟩
    have hinner : items.items = some inner := hinner
    rw [hnone] at hinner
    cases hinner

theorem exampleValue_settle (node : SchemaNode) :
    node.settle.exampleValue = node.exampleValue := by
  unfold settle
  split
  · rfl
  · split <;> rfl

theorem exampleValue_collapsed (h : ∀ items, node.items = some items → items.exampleValue = none) :
    node.collapsed.exampleValue = node.exampleValue := by
  unfold collapsed
  split
  · rfl
  · rename_i items hitems
    dsimp only
    rw [h items hitems, Option.or_none]

/-- The value schema of a property has no parts but variants. -/
theorem HoldsBareItems.valueSchema (h : node.HoldsBareItems) :
    node.valueSchema.properties = [] ∧ node.valueSchema.items = none ∧
      (node.valueSchema.exampleValue = none ∨
        node.valueSchema.exampleValue = node.exampleValue) := by
  unfold SchemaNode.valueSchema
  cases hitems : node.items with
  | none => exact ⟨h.properties, hitems, .inr rfl⟩
  | some items =>
    obtain ⟨harray, hproperties, hnone, hexample⟩ := h.items items hitems
    dsimp only
    rw [if_pos harray]
    exact ⟨hproperties, hnone, .inl hexample⟩

/-- A plain schema mentions the key of references only in its example and its default. -/
theorem IsPlain.mentions_toJson_iff (h : node.IsPlain type) (hproperties : node.properties = [])
    (hitems : node.items = none) : node.toJson.mentions "$ref" = true ↔
      node.exampleValue.any (Json.mentions "$ref") = true ∨
        node.defaultValue.any (Json.mentions "$ref") = true := by
  rw [mentions_toJson_cases, usesKey_iff, exists_part_iff, h.reference, h.enumValues, h.oneOf,
    h.allOf, hproperties, hitems]
  unfold propertyNames
  rw [hproperties]
  simp [Entries.names, Json.itemsMention]

end Plain

end SchemaNode

/-- A check goes by the types of schemas: where no other keyword has a say on a scalar, nothing is
wrong with it just when it has the type. -/
structure ValueCheck.ChecksTypes (check : ValueCheck) : Prop where
  exists_iff : ∀ {node : SchemaNode} {type : SchemaType} {value : Json}, node.IsPlain type →
    node.properties = [] → node.items = none → node.toJson.mentions "$ref" = false →
      value.IsScalar → ∃ messages, check node.toJson value = .ok messages ∧
        (messages = [] ↔ type.admits value = true)

section Keywords
open KeywordCheck SchemaNode

variable {key : String} {value : Json} {type : SchemaType}

theorem SchemaType.ofText?_text (type : SchemaType) : ofText? type.text = some type := by
  cases type <;> decide

theorem typeTexts_eq_nil_iff : typeTexts type.text value = [] ↔ type.admits value = true := by
  unfold typeTexts
  rw [SchemaType.ofText?_text]
  simp

theorem fieldTexts_append (first second : List (String × Json)) :
    fieldTexts (first ++ second) value = fieldTexts first value ++ fieldTexts second value := by
  induction first with
  | nil => rfl
  | cons field rest ih => rw [List.cons_append, fieldTexts, fieldTexts, ih, List.append_assoc]

/-- A keyword that says nothing does so whether or not it is written. -/
theorem fieldTexts_field? {α : Type} {write : α → Json} (found : Option α)
    (h : ∀ found, keywordTexts (key, write found) value = []) :
    fieldTexts (field? key write found) value = [] := by
  cases found with
  | none => rfl
  | some found =>
    exact (List.append_nil _).trans (h found)

theorem fieldTexts_listField? (items : List Json)
    (h : ∀ items, keywordTexts (key, .array items) value = []) :
    fieldTexts (listField? key .array items) value = [] := by
  cases items with
  | nil => rfl
  | cons item rest => exact (List.append_nil _).trans (h (item :: rest))

theorem fieldTexts_headFields (keywords : Keywords) :
    fieldTexts (headFields keywords) value =
      fieldTexts (field? "type" (fun type => .string type.text) keywords.type) value := by
  unfold headFields
  rw [fieldTexts_append, fieldTexts_append, fieldTexts_append,
    fieldTexts_field? keywords.reference fun _ => rfl,
    fieldTexts_field? keywords.format fun _ => rfl,
    fieldTexts_field? keywords.description fun _ => rfl, List.append_nil, List.append_nil]
  rfl

/-- Sizes and required names are about arrays and objects. -/
theorem keywordTexts_of_isScalar (h : value.IsScalar) :
    (∀ names, keywordTexts ("required", .array names) value = []) ∧
      (∀ limit, keywordTexts ("minItems", .ofNat limit) value = []) ∧
      ∀ limit, keywordTexts ("maxItems", .ofNat limit) value = [] := by
  cases value with
  | null | bool | number | string => exact ⟨fun _ => rfl, fun _ => rfl, fun _ => rfl⟩
  | array | object => exact h.elim

theorem fieldTexts_middleFields {keywords : Keywords} (h : value.IsScalar)
    (henum : keywords.enumValues = none) : fieldTexts (middleFields keywords) value = [] := by
  obtain ⟨hrequired, _⟩ := keywordTexts_of_isScalar h
  unfold middleFields
  rw [henum, fieldTexts_append, fieldTexts_listField? _ hrequired]
  rfl

theorem fieldTexts_tailFields (keywords : Keywords) (h : value.IsScalar) :
    fieldTexts (tailFields keywords) value = [] := by
  obtain ⟨_, hfewest, hmost⟩ := keywordTexts_of_isScalar h
  unfold tailFields
  simp only [fieldTexts_append, fieldTexts_field? _ fun _ => hfewest _,
    fieldTexts_field? _ fun _ => hmost _, List.append_nil]
  rw [fieldTexts_field? keywords.nullable fun _ => rfl,
    fieldTexts_field? keywords.readOnly fun _ => rfl,
    fieldTexts_field? keywords.writeOnly fun _ => rfl,
    fieldTexts_field? keywords.exampleValue fun _ => rfl,
    fieldTexts_field? keywords.defaultValue fun _ => rfl]
  rfl

theorem keywordCheck_checksTypes : keywordCheck.ChecksTypes where
  exists_iff {node type value} hplain hproperties hitems _ hvalue := by
    obtain ⟨keywords, properties, allOf, oneOf, items⟩ := node
    obtain ⟨htype, _, henum, hone, hall⟩ := hplain
    dsimp only at htype henum hone hall hproperties hitems
    subst hone hall hproperties hitems
    have htexts : texts (toJson ⟨keywords, [], [], [], none⟩) value =
        typeTexts type.text value := by
      rw [toJson, texts]
      simp only [fieldTexts_append, fieldTexts_headFields, htype,
        fieldTexts_middleFields hvalue henum, fieldTexts_tailFields keywords hvalue,
        writtenProperties, writtenParts, writtenItems, List.append_nil]
      simp [listField?, propertyFields, fieldTexts, field?, keywordTexts, plainTexts]
    exact ⟨_, rfl, by rw [htexts, typeTexts_eq_nil_iff]⟩

end Keywords

theorem SchemaType.isScalar_of_parse? {type : SchemaType} {text : String} {value : Json}
    (h : type.parse? text = some value) : value.IsScalar := by
  cases type with
  | integer | number =>
    rw [parse?] at h
    obtain ⟨_, _, rfl⟩ := Option.map_eq_some_iff.1 h
    trivial
  | boolean =>
    rw [parse?] at h
    split at h
    · obtain rfl := Option.some.inj h
      trivial
    · split at h
      · obtain rfl := Option.some.inj h
        trivial
      · cases h
  | object | array | string => cases h

namespace ExampleNote

variable {note : ExampleNote} {type : SchemaType}

theorem isScalar_value (note : ExampleNote) : note.value.IsScalar := by
  unfold value
  cases hread : note.read? with
  | none => trivial
  | some found =>
    obtain ⟨type, _, hfound⟩ := Option.bind_eq_some_iff.1 hread
    exact SchemaType.isScalar_of_parse? hfound

/-- Where a text reads as a value of a type, the example has this type just when the text was read
as a value at all. -/
theorem admits_value_iff (htype : (type.parse? note.text).isSome) :
    type.admits note.value = true ↔ note.read?.isSome := by
  unfold value
  cases hread : note.read? with
  | none =>
    refine iff_of_false ?_ (by decide)
    cases type with
    | object | array | string => cases htype
    | integer | number | boolean => exact Bool.false_ne_true
  | some found =>
    obtain ⟨earlier, _, hfound⟩ := Option.bind_eq_some_iff.1 hread
    exact iff_of_true (SchemaType.admits_of_parse? hfound htype) rfl

end ExampleNote

/-- Scalars have no keys. -/
theorem Json.IsScalar.mentions {value : Json} (h : value.IsScalar) (key : String) :
    value.mentions key = false := by
  cases value <;> first | rfl | cases h

/-- What a check that goes by types says about an example that an annotation gave. -/
theorem SchemaNode.HoldsBareItems.exists_exampleMessages {check : ValueCheck} {node : SchemaNode}
    {note : ExampleNote} {type : SchemaType} (hcheck : check.ChecksTypes)
    (hbare : node.HoldsBareItems) (hexample : node.exampleValue = some note.value)
    (hplain : node.valueSchema.IsPlain type) (htype : (type.parse? note.text).isSome) :
    ∃ messages, node.exampleMessages check = .ok messages ∧
      (messages = [] ↔ note.read?.isSome ∨
        node.valueSchema.defaultValue.any (Json.mentions "$ref") = true) := by
  obtain ⟨hproperties, hitems, hvalue⟩ := hbare.valueSchema
  have hscalar : node.valueSchema.exampleValue.any (Json.mentions "$ref") = false := by
    rcases hvalue with hnone | hsame
    · rw [hnone]
      rfl
    · rw [hsame, hexample]
      exact note.isScalar_value.mentions "$ref"
  have hmentions : node.valueSchema.toJson.mentions "$ref" = true ↔
      node.valueSchema.defaultValue.any (Json.mentions "$ref") = true := by
    rw [hplain.mentions_toJson_iff hproperties hitems, hscalar]
    simp
  unfold SchemaNode.exampleMessages
  rw [hexample]
  dsimp only
  split
  · rename_i hpassed
    exact ⟨[], rfl, iff_of_true rfl (.inr (hmentions.1 hpassed))⟩
  · rename_i hchecked
    obtain ⟨messages, hmessages, hnil⟩ := hcheck.exists_iff hplain hproperties hitems
      (Bool.not_eq_true _ ▸ hchecked) note.isScalar_value
    refine ⟨messages, hmessages, ?_⟩
    rw [hnil, ExampleNote.admits_value_iff htype]
    exact (or_iff_left fun hdefault => hchecked (hmentions.2 hdefault)).symm

namespace Ontology

variable {ontology : Ontology} {configuration : Configuration} {prefixes : NameMap String}

theorem FormsItems.bare {items : SchemaNode} (h : FormsItems ontology prefixes items) :
    items.properties = [] ∧ items.items = none ∧ items.exampleValue = none := by
  induction h with
  | datatype => exact ⟨rfl, rfl, rfl⟩
  | offered _ hoffers => cases hoffers <;> exact ⟨rfl, rfl, rfl⟩
  | choice => exact ⟨rfl, rfl, rfl⟩
  | filler _ _ hschema => cases fills_of_fillerSchema? hschema <;> exact ⟨rfl, rfl, rfl⟩
  | pinned _ _ _ ih => exact ih

theorem HoldsItems.holdsBareItems {node : SchemaNode} (h : HoldsItems ontology prefixes node) :
    node.HoldsBareItems where
  properties := congrArg SchemaNode.properties h.flat
  items items hitems := ⟨(h.items items hitems).1, (h.items items hitems).2.bare⟩

end Ontology

namespace ClassBuild

variable {ontology : Ontology} {prefixes : NameMap String} {configuration : Configuration}
  {inflector : Inflector} {iri name : String} {build : ClassBuild} {node : SchemaNode}

/-- The first stages settle a property and keep its example. -/
theorem exists_of_mem_prepared
    (hmem : (name, node) ∈ (build.prepared configuration).schema.properties) :
    ∃ old, (name, old) ∈ build.schema.properties ∧ node.exampleValue = old.exampleValue ∧
      node.items = old.settle.items := by
  have hclean : ∀ {settled : SchemaNode}, (name, settled) ∈ build.cleanup.schema.properties →
      ∃ old, (name, old) ∈ build.schema.properties ∧ settled.exampleValue = old.exampleValue ∧
        settled.items = old.settle.items := by
    intro settled hm
    obtain ⟨⟨_, old⟩, hold, heq⟩ := List.mem_map.1 hm
    obtain ⟨rfl, rfl⟩ := Prod.mk.inj heq
    exact ⟨old, hold, old.exampleValue_settle, rfl⟩
  unfold prepared applyRequiredness at hmem
  dsimp only at hmem
  split at hmem
  · exact hclean hmem
  · split at hmem
    · obtain ⟨settled, hm, rfl⟩ := SchemaNode.mem_generateRequired.1 hmem
      obtain ⟨old, hold, hexample, hitems⟩ := hclean hm
      exact ⟨old, hold, hexample, hitems⟩
    · exact hclean hmem

/-- A conversion leaves the node of every property, or collapses it. -/
theorem exists_of_mem_convertArrays {options : SchemaOptions}
    (hnodup : build.schema.propertyNames.Nodup)
    (hmem : (name, node) ∈ (build.convertArrays options inflector).schema.properties) :
    ∃ source old, (source, old) ∈ build.schema.properties ∧
      build.renamed options inflector source = name ∧ (node = old ∨ node = old.collapsed) := by
  cases harrays : options.alwaysGenerateArrays with
  | true =>
    rw [convertArrays_of_always harrays] at hmem
    exact ⟨name, node, hmem, renamed_of_always harrays name, .inl rfl⟩
  | false =>
    rw [convertArrays_eq harrays] at hmem
    obtain ⟨conversion, hc, heq⟩ := (mem_convertedProperties_iff hnodup).1 hmem
    obtain ⟨rfl, rfl⟩ := Prod.mk.inj heq
    refine ⟨conversion.source, conversion.node, (mem_conversionsFrom hc).1,
      renamed_source harrays hnodup hc, ?_⟩
    cases hcollapses : conversion.collapses with
    | true => exact .inr (result_of_collapses hcollapses)
    | false => exact .inl (result_of_not_collapses hcollapses)

/-- A converted property has the example of the property that it comes from. -/
theorem exists_of_mem_converted (hprefixes : ontology.prefixes? = some prefixes)
    (hvisited : build.Visited ontology prefixes configuration iri)
    (hmem : (name, node) ∈ (build.converted configuration inflector).schema.properties) :
    ∃ source old, (source, old) ∈ build.schema.properties ∧
      (build.prepared configuration).renamed configuration.schema inflector source = name ∧
      node.exampleValue = old.exampleValue := by
  have hnodup := Entries.nodup_names (ordered_prepared configuration hvisited.ordered)
  obtain ⟨source, settled, hm, hrenamed, hnode⟩ := exists_of_mem_convertArrays hnodup hmem
  obtain ⟨old, hold, hexample, hitems⟩ := exists_of_mem_prepared hm
  refine ⟨source, old, hold, hrenamed, ?_⟩
  have hbare := ((hvisited.formed _ hold).holdsItems hprefixes).holdsBareItems.settle
  rcases hnode with rfl | rfl
  · exact hexample
  · rw [← hexample]
    refine SchemaNode.exampleValue_collapsed fun items hsome => ?_
    exact (hbare.items items (hitems.symm.trans hsome)).2.2.2

theorem holdsBareItems_converted (hprefixes : ontology.prefixes? = some prefixes)
    (hvisited : build.Visited ontology prefixes configuration iri) :
    ∀ entry ∈ (build.converted configuration inflector).schema.properties,
      entry.2.HoldsBareItems :=
  converted_induction hvisited.ordered
    (fun entry hm => ((hvisited.formed entry hm).holdsItems hprefixes).holdsBareItems.settle)
    (fun _ _ h => ⟨h.properties, h.items⟩) fun _ h => h.collapsed

end ClassBuild

namespace Ontology

variable {ontology : Ontology} {configuration : Configuration} {inflector : Inflector}
  {iri name : String} {compiled : ClassSchema} {node : SchemaNode}

/-- A property of a compiled class has the example of the last annotation that gives one to the
property it comes from. If the value schema is plain and the text reads as a value of its type, then
nothing is wrong with the example exactly if the text read as a value of the type that the
annotation found, or if the default of the value schema mentions the key of references. In these
cases no validation of the schema reports the property. -/
theorem example_accepted_iff {check : ValueCheck} (hcheck : check.ChecksTypes)
    (hcompile : ontology.compileClass configuration inflector iri = .ok compiled)
    (hmem : (name, node) ∈ compiled.schema.properties) :
    ∃ visited source, ontology.VisitsTo configuration iri visited ∧
      source ∈ visited.schema.propertyNames ∧
      (visited.prepared configuration).renamed configuration.schema inflector source = name ∧
      node.exampleValue =
        (ontology.exampleNote? configuration iri source).map ExampleNote.value ∧
      ∀ note type, ontology.exampleNote? configuration iri source = some note →
        node.valueSchema.IsPlain type → (type.parse? note.text).isSome →
          ∃ messages, node.exampleMessages check = .ok messages ∧
            (messages = [] ↔ note.read?.isSome ∨
              node.valueSchema.defaultValue.any (Json.mentions "$ref") = true) ∧
            (messages = [] → ∀ schemaName error,
              compiled.schema.validateExamples check schemaName = .error error →
                ¬ error.PointsAt (propertyPath schemaName name)) := by
  obtain ⟨prefixes, visited, hprefixes, hbase, hvisit, hvisited, _, hschema⟩ :=
    exists_stages_of_compileClass hcompile
  have hvisits : ontology.VisitsTo configuration iri visited := (visitsTo_iff hprefixes).2 hvisit
  obtain ⟨_, _, _, _, hproperties⟩ :=
    ClassBuild.frame_staged ontology prefixes configuration inflector visited
  have hordered : Entries.Ordered compiled.schema.properties := by
    rw [hschema]
    exact ClassBuild.ordered_staged hvisited.ordered
  have hlisted := hmem
  rw [hschema, hproperties] at hmem
  obtain ⟨source, old, hold, hrenamed, hkept⟩ :=
    ClassBuild.exists_of_mem_converted hprefixes hvisited hmem
  have hexample : node.exampleValue =
      (ontology.exampleNote? configuration iri source).map ExampleNote.value := by
    have hget : visited.schema.property? source = some old :=
      (Entries.get?_eq_some_iff hvisited.ordered).2 hold
    cases hclass : ontology.enumeration? iri with
    | some values =>
      rw [hvisits.property?_eq_none hprefixes hclass] at hget
      cases hget
    | none =>
      rw [hkept, ← hvisits.exampleValue_eq hprefixes hclass source, hget]
      rfl
  refine ⟨visited, source, hvisits, Entries.mem_names_of_mem hold, hrenamed, hexample, ?_⟩
  intro note type hnote hplain htype
  rw [hnote, Option.map_some] at hexample
  obtain ⟨messages, hmessages, hnil⟩ :=
    (ClassBuild.holdsBareItems_converted hprefixes hvisited _ hmem).exists_exampleMessages
      hcheck hexample hplain htype
  exact ⟨messages, hmessages, hnil, fun hnone schemaName error herror =>
    SchemaNode.not_pointsAt hordered hlisted (hnone ▸ hmessages) herror⟩

/-- The age of a person has no range, but only integers are allowed; the height is a decimal. Both
have examples. -/
def persons : Ontology where
  iri := "e"
  prefixes := some (.ofList [("", "e#")])
  classes := [{ iri := "e#Person" }]
  dataProperties := [
    { iri := "e#age", domains := ["e#Person"], annotations := [⟨"example", "42"⟩] },
    { iri := "e#height", domains := ["e#Person"], ranges := ["xsd#decimal"]
      annotations := [⟨"example", " 2 "⟩] }]
  subclassAxioms := [
    { sub := "e#Person", sup := .quantified .data .universal "e#age" (.datatype "xsd#integer") },
    { sub := "e#Person", sup := .cardinality .data .max "e#height" 1 none }]

/-- There are no properties but those of the ontology. -/
def exemplary : Configuration where
  schema := { defaultProperties := false }

/-- The height is a number from its declaration on, and so is its example. -/
theorem example_accepted_height :
    keywordCheck.ChecksTypes ∧
      ∃ compiled node, persons.compileClass exemplary .english "e#Person" = .ok compiled ∧
        ("height", node) ∈ compiled.schema.properties ∧ node.valueSchema.IsPlain .number ∧
        node.exampleValue.isSome ∧ node.exampleMessages keywordCheck = .ok [] ∧
        ∀ error, compiled.schema.validateExamples keywordCheck "Person" = .error error →
          ¬ error.PointsAt (propertyPath "Person" "height") := by
  have hprefixes : persons.prefixes? = some (.ofList [("", "e#")]) := rfl
  obtain ⟨_, compiled, _, _, hcompile, _⟩ :=
    exists_compileClass hprefixes exemplary .english "e#Person"
  have hread : (persons.compileClass exemplary .english "e#Person").map (fun compiled =>
      (compiled.schema.property? "height").map (·.valueSchema)) =
        .ok (some (SchemaNode.ofFormat .number "double")) := by decide +kernel
  rw [hcompile] at hread
  have hheight : (compiled.schema.property? "height").map (·.valueSchema) =
      some (SchemaNode.ofFormat .number "double") := Except.ok.inj hread
  obtain ⟨node, hnode, hvalue⟩ := Option.map_eq_some_iff.1 hheight
  have hmem : ("height", node) ∈ compiled.schema.properties := Entries.mem_of_get? hnode
  obtain ⟨visited, source, _, _, hrenamed, hexample, haccepted⟩ :=
    example_accepted_iff keywordCheck_checksTypes hcompile hmem
  rw [ClassBuild.renamed_of_always rfl] at hrenamed
  subst hrenamed
  have hnote : persons.exampleNote? exemplary "e#Person" "height" = some ⟨some .number, " 2 "⟩ := by
    decide +kernel
  have hplain : node.valueSchema.IsPlain .number := by
    rw [hvalue]
    exact ⟨rfl, rfl, rfl, rfl, rfl⟩
  rw [hnote, Option.map_some] at hexample
  obtain ⟨messages, hmessages, hnil, hpasses⟩ :=
    haccepted _ .number hnote hplain (by decide +kernel)
  obtain rfl := hnil.2 (.inl (by decide +kernel))
  exact ⟨keywordCheck_checksTypes, compiled, node, hcompile, hmem, hplain, by rw [hexample]; rfl,
    hmessages, hpasses rfl "Person"⟩

/-- The age is an array of strings when its example is typed, and one of integers afterwards. -/
theorem age_rejected :
    keywordCheck.ChecksTypes ∧ SchemaType.integer.parse? "42" = some (Json.ofNat 42) ∧
      ∃ compiled node message, persons.compileClass exemplary .english "e#Person" = .ok compiled ∧
        ("age", node) ∈ compiled.schema.properties ∧ node.valueSchema.IsPlain .integer ∧
        node.exampleValue = some (.string "42") ∧
        compiled.schema.validateExamples keywordCheck "Person" =
          .error (.invalid [⟨propertyPath "Person" "age", message⟩]) := by
  have hprefixes : persons.prefixes? = some (.ofList [("", "e#")]) := rfl
  obtain ⟨_, compiled, _, _, hcompile, _⟩ :=
    exists_compileClass hprefixes exemplary .english "e#Person"
  have hread : (persons.compileClass exemplary .english "e#Person").map (fun compiled =>
      (compiled.schema.property? "age").map fun node =>
        (node.valueSchema, node.exampleValue)) =
      .ok (some (SchemaNode.ofFormat .integer "int64", some (.string "42"))) := by decide +kernel
  have hvalidated : (persons.compileClass exemplary .english "e#Person").map (fun compiled =>
      compiled.schema.validateExamples keywordCheck "Person") =
      .ok (.error (.invalid [⟨propertyPath "Person" "age",
        "\"42\" is not of type \"integer\""⟩])) := by decide +kernel
  rw [hcompile] at hread hvalidated
  have hage : (compiled.schema.property? "age").map (fun node =>
        (node.valueSchema, node.exampleValue)) =
      some (SchemaNode.ofFormat .integer "int64", some (.string "42")) := Except.ok.inj hread
  obtain ⟨node, hnode, heq⟩ := Option.map_eq_some_iff.1 hage
  obtain ⟨hvalue, hexample⟩ := Prod.mk.inj heq
  refine ⟨keywordCheck_checksTypes, by decide +kernel, compiled, node, _, hcompile,
    Entries.mem_of_get? hnode, ?_, hexample, Except.ok.inj hvalidated⟩
  rw [hvalue]
  exact ⟨rfl, rfl, rfl, rfl, rfl⟩

end Ontology

end OntoSchema
