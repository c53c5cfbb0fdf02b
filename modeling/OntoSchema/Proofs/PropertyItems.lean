import OntoSchema.Proofs.Formation

/-!
# Items of properties

A property under visit has keywords and items and nothing else. `FormsItems` lists the ways in which
its items come about, and `Formed.holdsItems` says that there are no others; what is proved of all
items is proved from these ways. The first such fact is `Formed.holdsValues`: a property with items
is an array of values, and the schema of a value is no array itself.
-/

namespace OntoSchema

namespace SchemaNode

/-- A schema stands directly inside another one. -/
inductive HasPart (node : SchemaNode) : SchemaNode → Prop
  | property {name : String} {child : SchemaNode} :
      (name, child) ∈ node.properties → HasPart node child
  | item {child : SchemaNode} : node.items = some child → HasPart node child
  | variant {child : SchemaNode} : child ∈ node.oneOf → HasPart node child
  | part {child : SchemaNode} : child ∈ node.allOf → HasPart node child

section Parts

variable {node child items : SchemaNode} {nodes : List SchemaNode} {keywords : Keywords}

theorem not_hasPart_ofKeywords : ¬ HasPart { toKeywords := keywords } child := by
  rintro (h | h | h | h) <;> cases h

theorem HasPart.eq_of_items (h : HasPart { toKeywords := keywords, items := some items } child) :
    child = items := by
  rcases h with h | h | h | h
  · cases h
  · exact (Option.some.inj h).symm
  · cases h
  · cases h

theorem HasPart.mem_of_oneOfNodes (h : (oneOfNodes nodes).HasPart child) : child ∈ nodes := by
  rcases h with h | h | h | h
  · cases h
  · cases h
  · exact h
  · cases h

theorem HasPart.mem_of_allOfNodes (h : (allOfNodes nodes).HasPart child) : child ∈ nodes := by
  rcases h with h | h | h | h
  · cases h
  · cases h
  · cases h
  · exact h

/-- Keywords are no parts. -/
theorem HasPart.of_withKeywords (h : HasPart { node with toKeywords := keywords } child) :
    node.HasPart child := by
  rcases h with h | h | h | h
  · exact .property h
  · exact .item h
  · exact .variant h
  · exact .part h

theorem HasPart.of_withoutVariants
    (h : HasPart { node with toKeywords := keywords, oneOf := [] } child) :
    node.HasPart child := by
  rcases h with h | h | h | h
  · exact .property h
  · exact .item h
  · cases h
  · exact .part h

/-- Where the items are replaced, everything else was there before. -/
theorem HasPart.of_replaceItems
    (h : HasPart { node with toKeywords := keywords, items := some items } child) :
    child = items ∨ node.HasPart child := by
  rcases h with h | h | h | h
  · exact .inr (.property h)
  · exact .inl (Option.some.inj h).symm
  · exact .inr (.variant h)
  · exact .inr (.part h)

end Parts

/-- The schema of a single value. It is no array, something describes it, and a default comes with a
type. -/
structure IsValue (node : SchemaNode) : Prop where
  items : node.items = none
  minItems : node.minItems = none
  resolved : node.isUnresolved = false
  typed : node.defaultValue.isSome → node.type.isSome

theorem IsValue.isArray {node : SchemaNode} (h : node.IsValue) : node.isArray = false :=
  (Bool.or_eq_false_iff.1 h.resolved).1

/-- Items make a property an array of values. -/
def HoldsValues (node : SchemaNode) : Prop :=
  ∀ items, node.items = some items → node.isArray = true ∧ items.IsValue

theorem isValue_of_type {node : SchemaNode} {type : SchemaType} (htype : node.type = some type)
    (hne : type ≠ .array) (hitems : node.items = none) (hmin : node.minItems = none) :
    node.IsValue where
  items := hitems
  minItems := hmin
  resolved := by simp [isUnresolved, isArray, htype, hne]
  typed _ := by rw [htype]; rfl

theorem isValue_referenceTo (component : String) : (referenceTo component).IsValue :=
  ⟨rfl, rfl, rfl, nofun⟩

theorem isValue_oneOfNodes {variants : List SchemaNode} (h : variants ≠ []) :
    (oneOfNodes variants).IsValue where
  items := rfl
  minItems := rfl
  resolved := by simp [oneOfNodes, isUnresolved, isArray, h]
  typed := nofun

theorem isValue_allOfNodes {parts : List SchemaNode} (h : parts ≠ []) :
    (allOfNodes parts).IsValue where
  items := rfl
  minItems := rfl
  resolved := by simp [allOfNodes, isUnresolved, isArray, h]
  typed := nofun

theorem isValue_datatype (datatype : Datatype) (h : datatype.type ≠ .array) :
    datatype.schema.IsValue :=
  isValue_of_type rfl h rfl rfl

theorem isValue_ofValues {type : SchemaType} (values : List Json) (h : type ≠ .array) :
    (ofValues type values).IsValue :=
  isValue_of_type rfl h rfl rfl

/-- Items pinned to one value, which is their only value and their default. -/
def pinnedTo (items : SchemaNode) (value : Json) (fallback : SchemaType) : SchemaNode :=
  { items with
    reference := none
    oneOf := []
    type := items.type.or (some fallback)
    enumValues := some [value]
    defaultValue := some value }

theorem IsValue.pinnedTo {items : SchemaNode} (h : items.IsValue) (value : Json)
    {fallback : SchemaType} (hne : fallback ≠ .array) :
    (items.pinnedTo value fallback).IsValue := by
  cases htype : items.type with
  | none =>
    have hpinned : (items.pinnedTo value fallback).type = some fallback :=
      congrArg (fun type : Option SchemaType => type.or (some fallback)) htype
    exact isValue_of_type hpinned hne h.items h.minItems
  | some type =>
    have hpinned : (items.pinnedTo value fallback).type = some type :=
      congrArg (fun type : Option SchemaType => type.or (some fallback)) htype
    refine isValue_of_type hpinned ?_ h.items h.minItems
    rintro rfl
    have harray := h.isArray
    simp [SchemaNode.isArray, htype] at harray

end SchemaNode

theorem SchemaType.ofJson_ne_array (value : Json) : SchemaType.ofJson value ≠ .array := by
  unfold SchemaType.ofJson
  split <;> exact nofun

theorem SchemaType.ofValues_ne_array (values : List Json) :
    SchemaType.ofValues values ≠ .array := by
  cases values with
  | nil => exact nofun
  | cons value _ => exact ofJson_ne_array value

theorem Datatype.type_ne_array (name : String) : (Datatype.ofName name).type ≠ .array := by
  unfold Datatype.ofName
  repeat' split
  all_goals exact nofun

namespace Ontology

variable {ontology : Ontology} {configuration : Configuration} {prefixes : NameMap String}

theorem exists_operand_of_fillerSchemas {operands : List ClassExpression}
    {schemas : List SchemaNode}
    (h : ClassExpression.fillerSchemas ontology operands = .ok schemas) {schema : SchemaNode}
    (hmem : schema ∈ schemas) :
    ∃ operand ∈ operands, operand.fillerSchema? ontology = .ok (some schema) := by
  induction operands generalizing schemas with
  | nil => cases h; cases hmem
  | cons operand rest ih =>
    rw [ClassExpression.fillerSchemas] at h
    obtain ⟨first, hfirst, h⟩ := bind_eq_ok_iff.1 h
    obtain ⟨others, hothers, h⟩ := bind_eq_ok_iff.1 h
    obtain rfl := Except.ok.inj h
    rcases List.mem_append.1 hmem with hmem | hmem
    · have heq : first = some schema := by simpa using hmem
      exact ⟨operand, List.mem_cons_self, heq ▸ hfirst⟩
    · obtain ⟨other, ho, hschema⟩ := ih hothers hmem
      exact ⟨other, List.mem_cons_of_mem _ ho, hschema⟩

/-- How the schema of a filler comes about. -/
inductive Fills (ontology : Ontology) : ClassExpression → SchemaNode → Prop
  | reference {iri name : String} : iri ≠ owlThing → ontology.schemaName iri = .ok name →
      Fills ontology (.named iri) (.referenceTo name)
  | datatype (iri : String) : Fills ontology (.datatype iri) (.ofDatatype iri)
  | individuals (individuals : List String) : Fills ontology (.oneOfIndividuals individuals)
      (.ofValues .string (ClassExpression.individualValues individuals))
  | literals (values : List Json) :
      Fills ontology (.oneOfLiterals values) (.ofValues (.ofValues values) values)
  | variants {role : Role} {operands : List ClassExpression} {schemas : List SchemaNode} :
      schemas ≠ [] → ClassExpression.fillerSchemas ontology operands = .ok schemas →
        Fills ontology (.combination role .union operands) (.oneOfNodes schemas)
  | parts {role : Role} {operands : List ClassExpression} {schemas : List SchemaNode} :
      schemas ≠ [] → ClassExpression.fillerSchemas ontology operands = .ok schemas →
        Fills ontology (.combination role .intersection operands) (.allOfNodes schemas)

theorem fills_of_fillerSchema? {filler : ClassExpression} {value : SchemaNode}
    (h : filler.fillerSchema? ontology = .ok (some value)) : Fills ontology filler value := by
  cases filler with
  | named iri =>
    rw [ClassExpression.fillerSchema?] at h
    split at h
    · cases h
    · rename_i hne
      cases hname : ontology.schemaName iri with
      | error error => rw [hname] at h; cases h
      | ok name =>
        rw [hname] at h
        cases h
        exact .reference hne hname
  | datatype iri => cases h; exact .datatype iri
  | oneOfIndividuals individuals => cases h; exact .individuals individuals
  | oneOfLiterals values => cases h; exact .literals values
  | combination role connective operands =>
    have hjoined := h
    rw [ClassExpression.fillerSchema?] at hjoined
    obtain ⟨schemas, hschemas, _⟩ := bind_eq_ok_iff.1 hjoined
    rw [ClassExpression.fillerSchema?_combination hschemas] at h
    cases schemas with
    | nil => cases h
    | cons first rest =>
      have hne : first :: rest ≠ [] := List.cons_ne_nil first rest
      cases connective with
      | union => cases h; exact .variants hne hschemas
      | intersection => cases h; exact .parts hne hschemas
  | _ => cases h

theorem isValue_of_fillerSchema? {filler : ClassExpression} {value : SchemaNode}
    (h : filler.fillerSchema? ontology = .ok (some value)) : value.IsValue := by
  cases fills_of_fillerSchema? h with
  | reference => exact SchemaNode.isValue_referenceTo _
  | datatype => exact SchemaNode.isValue_datatype _ (Datatype.type_ne_array _)
  | individuals => exact SchemaNode.isValue_ofValues _ (by decide)
  | literals values => exact SchemaNode.isValue_ofValues _ (SchemaType.ofValues_ne_array values)
  | variants hne => exact SchemaNode.isValue_oneOfNodes hne
  | parts hne => exact SchemaNode.isValue_allOfNodes hne

/-- Items that a restriction gives are the schema of its filler. -/
theorem exists_filler_of_givesItems {part : ClassExpression} {value : SchemaNode}
    (h : ontology.GivesItems part (some value)) :
    ∃ filler, part.filler? = some filler ∧ filler.fillerSchema? ontology = .ok (some value) := by
  unfold GivesItems at h
  split at h
  · cases h
  · exact ⟨_, ‹_›, h⟩

theorem mem_distinct_datatypes {ranges : List String} {datatype : Datatype}
    (h : datatype ∈ Datatype.distinct ranges) : ∃ range, datatype = Datatype.ofIri range := by
  suffices hfold : ∀ found : List Datatype,
      (∀ known ∈ found, ∃ range, known = Datatype.ofIri range) →
      ∀ known ∈ ranges.foldl (fun found range => if found.contains (Datatype.ofIri range) then found
        else found ++ [Datatype.ofIri range]) found, ∃ range, known = Datatype.ofIri range from
    hfold [] (fun _ hm => absurd hm List.not_mem_nil) datatype h
  clear h
  induction ranges with
  | nil => exact fun _ h => h
  | cons range rest ih =>
    intro found hfound
    rw [List.foldl_cons]
    apply ih
    split
    · exact hfound
    · intro known hm
      rcases List.mem_append.1 hm with hm | hm
      · exact hfound known hm
      · exact ⟨range, List.mem_singleton.1 hm⟩

/-- A schema that the declaration of a property offers for its items. -/
inductive Offers (prefixes : NameMap String) (declaration : Option (Role × PropertyDeclaration)) :
    SchemaNode → Prop
  | datatype {datatype : Datatype} :
      datatype.type ≠ .array → Offers prefixes declaration datatype.schema
  | reference {declared : PropertyDeclaration} {iri : String} :
      declaration = some (.object, declared) → iri ∈ declared.rangeClasses →
        Offers prefixes declaration (.referenceTo (qualifiedName prefixes iri))

theorem exists_dataSchema_eq (declaration : PropertyDeclaration) :
    ∃ datatypes : List Datatype,
      declaration.dataSchema = arrayOfVariants (datatypes.map Datatype.schema) ∧
        ∀ datatype ∈ datatypes, datatype.type ≠ .array := by
  have hdistinct : ∀ datatype ∈ Datatype.distinct declaration.ranges,
      datatype.type ≠ .array := by
    intro datatype hm
    obtain ⟨range, rfl⟩ := mem_distinct_datatypes hm
    exact Datatype.type_ne_array _
  unfold PropertyDeclaration.dataSchema
  split
  · exact ⟨[⟨.string, none⟩], rfl, List.forall_mem_singleton.2 (by decide)⟩
  · rename_i datatype heq
    exact ⟨[datatype], rfl, heq ▸ hdistinct⟩
  · rename_i hne hone
    refine ⟨Datatype.distinct declaration.ranges, ?_, hdistinct⟩
    generalize Datatype.distinct declaration.ranges = datatypes at hne hone
    match datatypes with
    | [] => exact absurd rfl hne
    | [datatype] => exact absurd rfl (hone datatype)
    | _ :: _ :: _ => rfl

/-- The schema of a property from its declaration is an array of what the declaration offers. -/
theorem exists_variants_of_propertySchema (hprefixes : ontology.prefixes? = some prefixes)
    {declaration : Option (Role × PropertyDeclaration)} {node : SchemaNode}
    (h : ontology.propertySchema declaration = .ok node) :
    ∃ variants, node = arrayOfVariants variants ∧
      ∀ variant ∈ variants, Offers prefixes declaration variant := by
  rcases declaration with _ | ⟨_ | _, declared⟩
  · cases h
    exact ⟨[], rfl, nofun⟩
  · rw [propertySchema, objectSchema_eq hprefixes] at h
    cases h
    exact ⟨_, rfl, List.forall_mem_map.2 fun iri hiri => .reference rfl hiri⟩
  · cases h
    obtain ⟨datatypes, hschema, hdatatypes⟩ := exists_dataSchema_eq declared
    exact ⟨_, hschema, List.forall_mem_map.2 fun datatype hm => .datatype (hdatatypes datatype hm)⟩

theorem Offers.isValue {declaration : Option (Role × PropertyDeclaration)} {node : SchemaNode}
    (h : Offers prefixes declaration node) : node.IsValue := by
  cases h with
  | datatype htype => exact SchemaNode.isValue_datatype _ htype
  | reference => exact SchemaNode.isValue_referenceTo _

/-- The catalog has arrays of datatypes, and the identifier. -/
theorem cases_of_mem_catalog {name : String} {node : SchemaNode}
    (h : (name, node) ∈ Catalog.entries) :
    (∃ (datatype : Datatype) (text : String), datatype.type ≠ .array ∧
      node = Catalog.nullableArray datatype.schema text) ∨ node = Catalog.identifier := by
  simp only [Catalog.entries, List.mem_cons, Prod.mk.injEq, List.not_mem_nil, or_false] at h
  rcases h with ⟨_, rfl⟩ | ⟨_, rfl⟩ | ⟨_, rfl⟩ | ⟨_, rfl⟩ | ⟨_, rfl⟩ | ⟨_, rfl⟩ | ⟨_, rfl⟩
  · exact .inl ⟨⟨.string, none⟩, _, by decide, rfl⟩
  · exact .inl ⟨⟨.string, some "date-time"⟩, _, by decide, rfl⟩
  · exact .inr rfl
  · exact .inl ⟨⟨.boolean, none⟩, _, by decide, rfl⟩
  · exact .inl ⟨⟨.string, none⟩, _, by decide, rfl⟩
  · exact .inl ⟨⟨.number, some "float"⟩, _, by decide, rfl⟩
  · exact .inl ⟨⟨.string, none⟩, _, by decide, rfl⟩

/-- What a visit can make the items of a property: a datatype, what the declaration of the property
offers, a choice among that, the schema of a filler, or any of them with a value pinned. -/
inductive FormsItems (ontology : Ontology) (prefixes : NameMap String) : SchemaNode → Prop
  | datatype {datatype : Datatype} : datatype.type ≠ .array →
      FormsItems ontology prefixes datatype.schema
  | offered {iri : String} {declaration : Option (Role × PropertyDeclaration)}
      {items : SchemaNode} : ontology.Declares iri declaration →
        Offers prefixes declaration items → FormsItems ontology prefixes items
  | choice {iri : String} {declaration : Option (Role × PropertyDeclaration)}
      {variants : List SchemaNode} : ontology.Declares iri declaration → variants ≠ [] →
        (∀ variant ∈ variants, Offers prefixes declaration variant) →
        FormsItems ontology prefixes (.oneOfNodes variants)
  | filler {part filler : ClassExpression} {annotations : List Annotation} {items : SchemaNode} :
      ontology.Restricts part annotations → part.filler? = some filler →
        filler.fillerSchema? ontology = .ok (some items) → FormsItems ontology prefixes items
  | pinned {items : SchemaNode} (value : Json) {fallback : SchemaType} :
      fallback ≠ .array → FormsItems ontology prefixes items →
        FormsItems ontology prefixes (items.pinnedTo value fallback)

/-- A property under visit has keywords and items only. It is an array if it has items, and it is
neither a reference nor a list of values. -/
structure HoldsItems (ontology : Ontology) (prefixes : NameMap String) (node : SchemaNode) :
    Prop where
  flat : node = { toKeywords := node.toKeywords, items := node.items }
  bare : node.enumValues = none
  reference : node.reference = none
  items : ∀ items, node.items = some items →
    node.isArray = true ∧ FormsItems ontology prefixes items

namespace HoldsItems

variable {node : SchemaNode} {keywords : Keywords}

theorem eq_items_of_hasPart (h : HoldsItems ontology prefixes node) {child : SchemaNode}
    (hpart : node.HasPart child) : node.items = some child := by
  rw [h.flat] at hpart
  cases hitems : node.items with
  | none =>
    rw [hitems] at hpart
    exact absurd hpart SchemaNode.not_hasPart_ofKeywords
  | some items =>
    rw [hitems] at hpart
    rw [hpart.eq_of_items]

theorem ofKeywords (hvalues : keywords.enumValues = none) (href : keywords.reference = none) :
    HoldsItems ontology prefixes { toKeywords := keywords } := ⟨rfl, hvalues, href, nofun⟩

theorem arrayOf {items : SchemaNode} (h : FormsItems ontology prefixes items) :
    HoldsItems ontology prefixes (.arrayOf items) :=
  ⟨rfl, rfl, rfl, fun _ hitems => ⟨rfl, Option.some.inj hitems ▸ h⟩⟩

/-- Keywords other than the type, the values and the reference do not matter. -/
theorem withKeywords (h : HoldsItems ontology prefixes node)
    (hvalues : keywords.enumValues = node.enumValues) (href : keywords.reference = node.reference)
    (htype : keywords.type = node.type) :
    HoldsItems ontology prefixes { node with toKeywords := keywords } where
  flat := congrArg (fun other : SchemaNode => { other with toKeywords := keywords }) h.flat
  bare := hvalues.trans h.bare
  reference := href.trans h.reference
  items items hitems :=
    ⟨(congrArg (· == some SchemaType.array) htype).trans (h.items items hitems).1,
      (h.items items hitems).2⟩

theorem withItems (h : HoldsItems ontology prefixes node) {items : Option SchemaNode}
    (hitems : ∀ value, items = some value → FormsItems ontology prefixes value) :
    HoldsItems ontology prefixes (node.withItems items) := by
  cases items with
  | none => exact h
  | some value =>
    exact {
      flat := congrArg (fun other : SchemaNode => other.withItems (some value)) h.flat
      bare := h.bare
      reference := h.reference
      items := fun _ hsome => ⟨rfl, Option.some.inj hsome ▸ hitems value rfl⟩ }

theorem pin (h : HoldsItems ontology prefixes node) (value : Json) {fallback : SchemaType}
    (hne : fallback ≠ .array) : HoldsItems ontology prefixes (node.pin value fallback) := by
  have hitems : FormsItems ontology prefixes (node.items.getD (.ofType fallback)) := by
    cases hitems : node.items with
    | none => exact @FormsItems.datatype ontology prefixes ⟨fallback, none⟩ hne
    | some items => exact (h.items items hitems).2
  exact h.withItems fun _ hsome => Option.some.inj hsome ▸ .pinned value hne hitems

theorem restrict (h : HoldsItems ontology prefixes node) {items : Option SchemaNode}
    (hitems : ∀ value, items = some value → FormsItems ontology prefixes value)
    (restriction : ClassExpression) :
    HoldsItems ontology prefixes (node.restrict restriction items) := by
  have hwith := h.withItems hitems
  unfold SchemaNode.restrict
  dsimp only
  split
  · exact hwith.withKeywords rfl rfl rfl
  · exact hwith.withKeywords rfl rfl rfl
  · exact hwith.withKeywords rfl rfl rfl
  · exact hwith.pin _ nofun
  · exact hwith.pin _ (SchemaType.ofJson_ne_array _)
  · exact hwith

theorem arrayOfVariants {iri : String} {declaration : Option (Role × PropertyDeclaration)}
    (hdeclares : ontology.Declares iri declaration) {variants : List SchemaNode}
    (h : ∀ variant ∈ variants, Offers prefixes declaration variant) :
    HoldsItems ontology prefixes (Ontology.arrayOfVariants variants) := by
  match variants with
  | [] => exact .ofKeywords rfl rfl
  | [variant] => exact .arrayOf (.offered hdeclares (h variant List.mem_cons_self))
  | _ :: _ :: _ => exact .arrayOf (.choice hdeclares (List.cons_ne_nil _ _) h)

end HoldsItems

/-- The items of every property that a visit can produce come about in these ways. -/
theorem Formed.holdsItems (hprefixes : ontology.prefixes? = some prefixes) {name : String}
    {node : SchemaNode} (h : ontology.Formed configuration name node) :
    HoldsItems ontology prefixes node := by
  induction h with
  | @catalog name node hmem =>
    rcases cases_of_mem_catalog hmem with ⟨datatype, text, htype, rfl⟩ | rfl
    · exact (HoldsItems.arrayOf (.datatype htype)).withKeywords rfl rfl rfl
    · exact .ofKeywords rfl rfl
  | @fresh iri declaration node hdeclares hschema =>
    obtain ⟨d, r, w, e, hannotated⟩ := annotateProperty_eq ontology configuration iri node
    rw [hannotated]
    obtain ⟨variants, rfl, hoffers⟩ := exists_variants_of_propertySchema hprefixes hschema
    exact (HoldsItems.arrayOfVariants hdeclares hoffers).withKeywords rfl rfl rfl
  | @refined name node part annotations items _ _ hpart hgives ih =>
    obtain ⟨r, w, e, hannotated⟩ := SchemaNode.annotateFromAxiom_eq configuration part annotations
      (node.restrict part items)
    rw [hannotated]
    refine (ih.restrict ?_ part).withKeywords rfl rfl rfl
    rintro value rfl
    obtain ⟨filler, hfiller, hschema⟩ := exists_filler_of_givesItems hgives
    exact .filler hpart hfiller hschema

theorem FormsItems.isValue {items : SchemaNode} (h : FormsItems ontology prefixes items) :
    items.IsValue := by
  induction h with
  | datatype hne => exact SchemaNode.isValue_datatype _ hne
  | offered _ hoffers => exact hoffers.isValue
  | choice _ hne => exact SchemaNode.isValue_oneOfNodes hne
  | filler _ _ hschema => exact isValue_of_fillerSchema? hschema
  | pinned value hne _ ih => exact ih.pinnedTo value hne

/-- Every property that a visit can produce is an array of values or has no items. -/
theorem Formed.holdsValues (hprefixes : ontology.prefixes? = some prefixes) {name : String}
    {node : SchemaNode} (h : ontology.Formed configuration name node) : node.HoldsValues :=
  fun items hitems => ((h.holdsItems hprefixes).items items hitems).imp_right FormsItems.isValue

end Ontology

end OntoSchema
