import OntoSchema.Proofs.Conversion

/-!
# Every property through a conversion

A conversion moves every property to a name of its own, and tells which node stands there then.
`convertArrays_moves` puts this together for one renaming: it takes the properties one to one to
those after the conversion, the sets of names follow it, and a property that can hold one value
only is replaced by what its items and the property say about that value.
-/

namespace OntoSchema

/-- A set holds the names that a renaming gives to the members of another set. -/
def NameSet.IsImage (moved : String → String) (source target : NameSet) : Prop :=
  ∀ name, name ∈ target ↔ ∃ other ∈ source, moved other = name

namespace ClassBuild

variable {options : SchemaOptions} {inflector : Inflector} {build : ClassBuild} {name : String}
  {node : SchemaNode}

/-- A property is an array with items that can hold one value only. -/
def HoldsOne (build : ClassBuild) (name : String) (node : SchemaNode) : Prop :=
  node.type = some .array ∧ node.items.isSome ∧
    (name ∈ build.functional ∨ name ∈ build.enumerated ∨ node.maxItems = some 1)

/-- The properties are in order, and the sets of property names hold names of properties. -/
structure NamesKnown (build : ClassBuild) : Prop where
  ordered : Entries.Ordered build.schema.properties
  functional : ∀ name ∈ build.functional, name ∈ build.schema.propertyNames
  enumerated : ∀ name ∈ build.enumerated, name ∈ build.schema.propertyNames
  mandatory : ∀ name ∈ build.mandatory, name ∈ build.schema.propertyNames
  required : ∀ name ∈ build.schema.required, name ∈ build.schema.propertyNames

theorem NamesKnown.nodup (h : build.NamesKnown) : build.schema.propertyNames.Nodup :=
  Entries.nodup_names h.ordered

theorem collapses_iff : build.collapses name node = true ↔ build.HoldsOne name node := by
  unfold collapses HoldsOne SchemaNode.isArray
  simp only [Bool.and_eq_true, Bool.or_eq_true, NameSet.contains_iff, beq_iff_eq, and_assoc,
    or_assoc]

theorem wantedName_cases (options : SchemaOptions) (inflector : Inflector) (build : ClassBuild)
    (name : String) (node : SchemaNode) :
    build.wantedName options inflector name node = name ∨
      build.wantedName options inflector name node = inflector.pluralize name ∨
      build.wantedName options inflector name node = inflector.singularize name := by
  unfold wantedName
  split
  · split
    · exact .inr (.inr rfl)
    · split
      · exact .inr (.inl rfl)
      · exact .inl rfl
  · exact .inl rfl

/-- Names stay where they are not to be changed. -/
theorem wantedName_of_fixed
    (hfixed : options.fixPropertyNames = false ∨ Catalog.contains name = true) :
    build.wantedName options inflector name node = name := by
  unfold wantedName
  rw [if_neg]
  rw [Bool.and_eq_true, Bool.not_eq_true']
  rintro ⟨hfix, hcatalog⟩
  rcases hfixed with h | h
  · rw [hfix] at h
    cases h
  · rw [hcatalog] at h
    cases h

theorem target_eq_of_wanted {conversion : Conversion}
    (hmem : conversion ∈ build.conversions options inflector)
    (hwanted : build.wantedName options inflector conversion.source conversion.node =
      conversion.source) : conversion.target = conversion.source := by
  have hrecords := records_of_mem hmem
  exact hrecords.target.elim id fun h => h.1.trans (hrecords.wanted.trans hwanted)

/-- A property gets no other name than its own, its plural or its singular. -/
theorem target_cases {conversion : Conversion}
    (hmem : conversion ∈ build.conversions options inflector) :
    conversion.target = conversion.source ∨
      conversion.target = inflector.pluralize conversion.source ∨
      conversion.target = inflector.singularize conversion.source := by
  have hrecords := records_of_mem hmem
  rcases hrecords.target with h | ⟨h, _⟩
  · exact .inl h
  · rw [h, hrecords.wanted]
    exact wantedName_cases options inflector build _ _

theorem renamed_cases (harrays : options.alwaysGenerateArrays = false)
    (hnodup : build.schema.propertyNames.Nodup) (hname : name ∈ build.schema.propertyNames) :
    build.renamed options inflector name = name ∨
      build.renamed options inflector name = inflector.pluralize name ∨
      build.renamed options inflector name = inflector.singularize name := by
  obtain ⟨conversion, hm, rfl⟩ := exists_conversion options inflector hname
  rw [renamed_source harrays hnodup hm]
  exact target_cases hm

theorem renamed_of_fixed (harrays : options.alwaysGenerateArrays = false)
    (hnodup : build.schema.propertyNames.Nodup) (hname : name ∈ build.schema.propertyNames)
    (hfixed : options.fixPropertyNames = false ∨ Catalog.contains name = true) :
    build.renamed options inflector name = name := by
  obtain ⟨conversion, hm, rfl⟩ := exists_conversion options inflector hname
  rw [renamed_source harrays hnodup hm]
  exact target_eq_of_wanted hm (wantedName_of_fixed hfixed)

/-- A set of property names is moved as a whole. -/
theorem isImage_moved (harrays : options.alwaysGenerateArrays = false)
    (hnodup : build.schema.propertyNames.Nodup) {set : NameSet}
    (hset : ∀ name ∈ set, name ∈ build.schema.propertyNames) :
    NameSet.IsImage (build.renamed options inflector) set (build.moved options inflector set) := by
  intro name
  rw [mem_moved_iff hnodup hset]
  constructor
  · rintro ⟨conversion, hm, rfl, hsource⟩
    exact ⟨conversion.source, hsource, renamed_source harrays hnodup hm⟩
  · rintro ⟨source, hsource, rfl⟩
    obtain ⟨conversion, hm, rfl⟩ := exists_conversion options inflector (hset source hsource)
    exact ⟨conversion, hm, (renamed_source harrays hnodup hm).symm, hsource⟩

/-- The mandatory properties before the renames: those there were, and those that collapse with a
positive least number of values. -/
theorem mem_mandatorySources_iff (hordered : Entries.Ordered build.schema.properties) :
    name ∈ build.mandatorySources options inflector ↔
      name ∈ build.mandatory ∨ ∃ node, (name, node) ∈ build.schema.properties ∧
        build.HoldsOne name node ∧ 0 < node.minItems.getD 0 := by
  have hwas : ∀ conversion ∈ build.conversions options inflector,
      (conversion.wasMandatory = true ↔ build.HoldsOne conversion.source conversion.node ∧
        0 < conversion.node.minItems.getD 0) := by
    intro conversion hm
    rw [← collapses_iff, ← (records_of_mem hm).collapses, Conversion.wasMandatory,
      Bool.and_eq_true, decide_eq_true_eq]
  rw [mandatorySources, NameSet.mem_insertAll, or_comm, List.mem_map]
  refine or_congr_right ⟨?_, ?_⟩
  · rintro ⟨conversion, hm, rfl⟩
    obtain ⟨hm, hmandatory⟩ := List.mem_filter.1 hm
    exact ⟨conversion.node, (mem_conversionsFrom hm).1, (hwas conversion hm).1 hmandatory⟩
  · rintro ⟨node, hnode, hmandatory⟩
    obtain ⟨conversion, hm, rfl⟩ :=
      exists_conversion options inflector (Entries.mem_names_of_mem hnode)
    obtain rfl := Entries.value_unique hordered hnode (mem_conversionsFrom hm).1
    exact ⟨conversion, List.mem_filter.2 ⟨hm, (hwas conversion hm).2 hmandatory⟩, rfl⟩

/-- The node of a property after a conversion, under the new name. -/
theorem exists_converted (harrays : options.alwaysGenerateArrays = false)
    (hordered : Entries.Ordered build.schema.properties)
    (hmem : (name, node) ∈ build.schema.properties) :
    ∃ result, (build.renamed options inflector name, result) ∈
        build.convertedProperties options inflector ∧
      (build.HoldsOne name node → result = node.collapsed) ∧
      (¬ build.HoldsOne name node → result = node) := by
  have hnodup := Entries.nodup_names hordered
  obtain ⟨conversion, hm, rfl⟩ :=
    exists_conversion options inflector (Entries.mem_names_of_mem hmem)
  obtain rfl := Entries.value_unique hordered hmem (mem_conversionsFrom hm).1
  refine ⟨conversion.result, ?_, fun hone => ?_, fun hmany => ?_⟩
  · rw [renamed_source harrays hnodup hm]
    exact (mem_convertedProperties_iff hnodup).2 ⟨conversion, hm, rfl⟩
  · rw [← collapses_iff, ← (records_of_mem hm).collapses] at hone
    exact result_of_collapses hone
  · rw [← collapses_iff, ← (records_of_mem hm).collapses, Bool.not_eq_true] at hmany
    exact result_of_not_collapses hmany

/-- What a conversion makes of a build, told by one renaming of the properties. -/
structure MovedBy (options : SchemaOptions) (inflector : Inflector) (moved : String → String)
    (build next : ClassBuild) : Prop where
  bijOn : Set.BijOn moved {name | name ∈ build.schema.propertyNames}
    {name | name ∈ next.schema.propertyNames}
  ordered : Entries.Ordered next.schema.properties
  cases : ∀ name ∈ build.schema.propertyNames, moved name = name ∨
    moved name = inflector.pluralize name ∨ moved name = inflector.singularize name
  fixed : ∀ name ∈ build.schema.propertyNames,
    options.fixPropertyNames = false ∨ Catalog.contains name = true → moved name = name
  /-- What the property says comes before what its items say, except for the description. -/
  collapsed : ∀ name node, (name, node) ∈ build.schema.properties → build.HoldsOne name node →
    ∃ items, node.items = some items ∧ (moved name, { items with
      description := items.description.or node.description
      nullable := node.nullable.or items.nullable
      readOnly := node.readOnly.or items.readOnly
      writeOnly := node.writeOnly.or items.writeOnly
      exampleValue := node.exampleValue.or items.exampleValue }) ∈ next.schema.properties
  kept : ∀ name node, (name, node) ∈ build.schema.properties → ¬ build.HoldsOne name node →
    (moved name, node) ∈ next.schema.properties
  functional : NameSet.IsImage moved build.functional next.functional
  enumerated : NameSet.IsImage moved build.enumerated next.enumerated
  required : NameSet.IsImage moved build.schema.required next.schema.required
  synced : next.required = next.schema.required
  mandatory : ∀ name, name ∈ next.mandatory ↔ ∃ other, moved other = name ∧
    (other ∈ build.mandatory ∨ ∃ node, (other, node) ∈ build.schema.properties ∧
      build.HoldsOne other node ∧ 0 < node.minItems.getD 0)

/-- The conversion of arrays loses no property, lets no two of them coincide and makes up none. Of
its renaming follow the names of all properties, their nodes and all sets of names. -/
theorem convertArrays_moves (inflector : Inflector) (hknown : build.NamesKnown)
    (harrays : options.alwaysGenerateArrays = false) :
    ∃ moved, MovedBy options inflector moved build (build.convertArrays options inflector) := by
  have hbijOn : Set.BijOn (build.renamed options inflector)
      {name | name ∈ build.schema.propertyNames}
      {name | name ∈ (build.convertArrays options inflector).schema.propertyNames} :=
    bijOn_renamed hknown.nodup
  have hsources : ∀ name ∈ build.mandatorySources options inflector,
      name ∈ build.schema.propertyNames := mandatorySources_subset hknown.mandatory
  rw [convertArrays_eq harrays] at hbijOn ⊢
  refine ⟨build.renamed options inflector, {
    bijOn := hbijOn
    ordered := Entries.ordered_ofList _
    cases := fun _ hname => renamed_cases harrays hknown.nodup hname
    fixed := fun _ hname => renamed_of_fixed harrays hknown.nodup hname
    collapsed := ?_
    kept := ?_
    functional := isImage_moved harrays hknown.nodup hknown.functional
    enumerated := isImage_moved harrays hknown.nodup hknown.enumerated
    required := isImage_moved harrays hknown.nodup hknown.required
    synced := rfl
    mandatory := ?_ }⟩
  · intro name node hmem hone
    obtain ⟨result, hresult, hcollapsed, _⟩ := exists_converted harrays hknown.ordered hmem
    obtain ⟨items, hitems⟩ := Option.isSome_iff_exists.1 hone.2.1
    rw [hcollapsed hone, SchemaNode.collapsed, hitems] at hresult
    exact ⟨items, hitems, hresult⟩
  · intro name node hmem hmany
    obtain ⟨result, hresult, _, hkept⟩ := exists_converted harrays hknown.ordered hmem
    rwa [hkept hmany] at hresult
  · intro name
    rw [isImage_moved harrays hknown.nodup hsources name]
    refine exists_congr fun other => ?_
    rw [mem_mandatorySources_iff hknown.ordered, and_comm]

/-- A book has authors and at least one, a label and some pages. -/
def book : ClassBuild where
  subject := "e#Book"
  schema := { SchemaNode.ofType .object with
    properties := [
      ("authors", { SchemaNode.arrayOf (.ofType .string) with
        nullable := some false, minItems := some 1 }),
      ("label", { SchemaNode.arrayOf (.ofType .string) with maxItems := some 1 }),
      ("page", .arrayOf (.ofType .integer))]
    required := .ofList ["authors"] }
  functional := .ofList ["authors"]

/-- Arrays of one value collapse and names follow. -/
def collapsing : SchemaOptions := { alwaysGenerateArrays := false, fixPropertyNames := true }

/-- The authors become an author, who is required and mandatory. -/
theorem convertArrays_moves_book :
    book.NamesKnown ∧ collapsing.alwaysGenerateArrays = false ∧
      ∃ moved, MovedBy collapsing .english moved book (book.convertArrays collapsing .english) ∧
        moved "authors" = "author" ∧
        "author" ∈ (book.convertArrays collapsing .english).schema.required ∧
        "author" ∈ (book.convertArrays collapsing .english).mandatory := by
  have hknown : book.NamesKnown := {
    ordered := by unfold Entries.Ordered; decide
    functional := by decide
    enumerated := by decide
    mandatory := by decide
    required := by decide }
  obtain ⟨moved, hmoved⟩ : ∃ moved,
      MovedBy collapsing .english moved book (book.convertArrays collapsing .english) :=
    convertArrays_moves .english hknown rfl
  have hsource : "authors" ∈ book.schema.propertyNames := by decide
  have hgone : "authors" ∉ (book.convertArrays collapsing .english).schema.propertyNames := by
    decide +kernel
  have htarget : moved "authors" = "author" := by
    have hin := hmoved.bijOn.mapsTo hsource
    rcases hmoved.cases "authors" hsource with h | h | h
    · exact absurd (h ▸ hin) hgone
    · have hplural : Inflector.english.pluralize "authors" = "authors" := by decide
      exact absurd (hplural ▸ h ▸ hin) hgone
    · exact h
  refine ⟨hknown, rfl, moved, hmoved, htarget, ?_, ?_⟩
  · exact (hmoved.required "author").2 ⟨"authors", by decide, htarget⟩
  · exact (hmoved.mandatory "author").2 ⟨"authors", htarget, .inr ⟨_, List.mem_cons_self,
      ⟨rfl, rfl, .inl (by decide)⟩, by decide⟩⟩

end ClassBuild

end OntoSchema
