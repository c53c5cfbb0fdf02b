import Mathlib.Data.List.Nodup
import Mathlib.Data.Set.Function
import OntoSchema.ClassBuild.Arrays
import OntoSchema.Proofs.Entries

/-!
# The renaming of a conversion

The conversions of a build give every property a name, and no two properties the same one. A new
name is none that a property had before. So the renames of a conversion, made one after the other,
move every set of property names as one function from sources to targets does
(`mem_moved_iff`), and the converted schema has as many properties as before. That function is
`renamed`, which takes the properties before a conversion one to one to those after it.
-/

namespace OntoSchema

namespace ClassBuild

variable {options : SchemaOptions} {inflector : Inflector} {build : ClassBuild}

theorem map_conversionsFrom (taken : List String) (entries : List (String × SchemaNode)) :
    (build.conversionsFrom options inflector taken entries).map
      (fun conversion => (conversion.source, conversion.node)) = entries := by
  induction entries generalizing taken with
  | nil => rfl
  | cons entry rest ih =>
    obtain ⟨name, property⟩ := entry
    rw [conversionsFrom, List.map_cons, ih]

/-- What a conversion records about its property, given the names that are taken. -/
structure Records (options : SchemaOptions) (inflector : Inflector) (build : ClassBuild)
    (taken : String → Prop) (conversion : Conversion) : Prop where
  wanted : conversion.wanted = build.wantedName options inflector conversion.source conversion.node
  collapses : conversion.collapses = build.collapses conversion.source conversion.node
  target : conversion.target = conversion.source ∨
    conversion.target = conversion.wanted ∧ conversion.target ∉ build.schema.propertyNames
  refused : conversion.target ≠ conversion.wanted →
    conversion.wanted ∈ build.schema.propertyNames ∨ taken conversion.wanted

theorem Records.mono {taken taken' : String → Prop} {conversion : Conversion}
    (h : Records options inflector build taken conversion)
    (htaken : ∀ name, taken name → taken' name) :
    Records options inflector build taken' conversion where
  wanted := h.wanted
  collapses := h.collapses
  target := h.target
  refused hne := (h.refused hne).imp id (htaken _)

variable (options inflector build) in
/-- The conversion of the first of some properties. -/
theorem records_first (taken : List String) (name : String) (property : SchemaNode) :
    ∃ target,
      (∀ rest, build.conversionsFrom options inflector taken ((name, property) :: rest) =
        ⟨name, build.wantedName options inflector name property, target, property,
          build.collapses name property⟩ ::
          build.conversionsFrom options inflector (target :: taken) rest) ∧
      Records options inflector build (· ∈ taken)
        ⟨name, build.wantedName options inflector name property, target, property,
          build.collapses name property⟩ ∧
      (target = name ∨ target ∉ taken) := by
  refine ⟨_, fun rest => rfl, ⟨rfl, rfl, ?_, ?_⟩, ?_⟩
  · dsimp only
    split
    · exact .inl rfl
    · rename_i hfree
      by_cases hw : build.wantedName options inflector name property = name
      · exact .inl hw
      · refine .inr ⟨rfl, fun hm => hfree ?_⟩
        simp [hw, SchemaNode.hasProperty, Entries.contains_iff.2 hm]
  · dsimp only
    split
    · rename_i hblocked
      intro _
      rw [Bool.and_eq_true, Bool.or_eq_true] at hblocked
      exact hblocked.2.imp Entries.contains_iff.1 List.contains_iff_mem.1
    · exact fun hne => absurd rfl hne
  · split
    · exact .inl rfl
    · rename_i hfree
      by_cases hw : build.wantedName options inflector name property = name
      · exact .inl hw
      · refine .inr fun hm => hfree ?_
        simp [hw, hm]

theorem mem_conversionsFrom {taken : List String} {entries : List (String × SchemaNode)}
    {conversion : Conversion}
    (h : conversion ∈ build.conversionsFrom options inflector taken entries) :
    (conversion.source, conversion.node) ∈ entries ∧
      Records options inflector build
        (fun name => name ∈ taken ∨ ∃ other ∈ build.conversionsFrom options inflector taken entries,
          other.target = name) conversion := by
  induction entries generalizing taken with
  | nil => cases h
  | cons entry rest ih =>
    obtain ⟨name, property⟩ := entry
    obtain ⟨target, heq, hfirst, _⟩ := records_first options inflector build taken name
      property
    rw [heq] at h ⊢
    rcases List.mem_cons.1 h with rfl | h
    · exact ⟨List.mem_cons_self, hfirst.mono fun _ => .inl⟩
    · obtain ⟨hmem, hrecords⟩ := ih h
      refine ⟨List.mem_cons_of_mem _ hmem, hrecords.mono ?_⟩
      rintro wanted (hm | ⟨other, hm, rfl⟩)
      · rcases List.mem_cons.1 hm with rfl | hm
        · exact .inr ⟨_, List.mem_cons_self, rfl⟩
        · exact .inl hm
      · exact .inr ⟨other, List.mem_cons_of_mem _ hm, rfl⟩

/-- No two targets agree, as long as no name is taken that a property still has. -/
theorem nodup_targets_conversionsFrom {taken : List String} {entries : List (String × SchemaNode)}
    (hnodup : (Entries.names entries).Nodup)
    (hknown : ∀ name ∈ Entries.names entries, name ∈ build.schema.propertyNames)
    (htaken : ∀ name ∈ taken, name ∉ Entries.names entries) :
    ((build.conversionsFrom options inflector taken entries).map Conversion.target).Nodup ∧
      ∀ conversion ∈ build.conversionsFrom options inflector taken entries,
        conversion.target ∉ taken := by
  induction entries generalizing taken with
  | nil => exact ⟨List.Pairwise.nil, nofun⟩
  | cons entry rest ih =>
    obtain ⟨name, property⟩ := entry
    obtain ⟨target, heq, hfirst, hfree⟩ := records_first options inflector build taken name
      property
    obtain ⟨hname, hrest⟩ := List.nodup_cons.1 hnodup
    have hnot : target ∉ taken := by
      rcases hfree with rfl | hfree
      · exact fun hm => htaken _ hm List.mem_cons_self
      · exact hfree
    have hnew : target ∉ Entries.names rest := by
      rcases hfirst.target with ht | ⟨_, ht⟩
      · have ht : target = name := ht
        exact fun hm => hname (ht ▸ hm)
      · exact fun hm => ht (hknown target (List.mem_cons_of_mem _ hm))
    obtain ⟨htargets, hothers⟩ := @ih (target :: taken) hrest
      (fun other hm => hknown other (List.mem_cons_of_mem _ hm)) (by
        intro other hm
        rcases List.mem_cons.1 hm with rfl | hm
        · exact hnew
        · exact fun hr => htaken other hm (List.mem_cons_of_mem _ hr))
    rw [heq, List.map_cons]
    refine ⟨List.nodup_cons.2 ⟨fun hm => ?_, htargets⟩, fun conversion hm => ?_⟩
    · obtain ⟨other, ho, he⟩ := List.mem_map.1 hm
      exact hothers other ho (he ▸ List.mem_cons_self)
    · rcases List.mem_cons.1 hm with rfl | hm
      · exact hnot
      · exact fun ht => hothers conversion hm (List.mem_cons_of_mem _ ht)

theorem records_of_mem {conversion : Conversion}
    (h : conversion ∈ build.conversions options inflector) :
    Records options inflector build
      (fun name => ∃ other ∈ build.conversions options inflector, other.target = name)
      conversion :=
  (mem_conversionsFrom h).2.mono fun _ hm => hm.resolve_left List.not_mem_nil

variable (options inflector build) in
theorem map_source_conversions :
    (build.conversions options inflector).map Conversion.source = build.schema.propertyNames := by
  have hentries : (build.conversions options inflector).map
      (fun conversion => (conversion.source, conversion.node)) = build.schema.properties :=
    map_conversionsFrom [] _
  have hnames := congrArg (List.map Prod.fst) hentries
  rwa [List.map_map] at hnames

/-- The conversions depend on the properties and on the names of properties of one value. -/
theorem conversions_congr {next : ClassBuild} (hfunctional : next.functional = build.functional)
    (henumerated : next.enumerated = build.enumerated)
    (hproperties : next.schema.properties = build.schema.properties) :
    next.conversions options inflector = build.conversions options inflector := by
  have hcollapses : ∀ name property,
      next.collapses name property = build.collapses name property := by
    intro name property
    rw [collapses, collapses, hfunctional, henumerated]
  have hwanted : ∀ name property, next.wantedName options inflector name property =
      build.wantedName options inflector name property := by
    intro name property
    rw [wantedName, wantedName, hcollapses]
  have hhas : ∀ name, next.schema.hasProperty name = build.schema.hasProperty name := by
    intro name
    rw [SchemaNode.hasProperty, SchemaNode.hasProperty, hproperties]
  have hfrom : ∀ (taken : List String) (entries : List (String × SchemaNode)),
      next.conversionsFrom options inflector taken entries =
        build.conversionsFrom options inflector taken entries := by
    intro taken entries
    induction entries generalizing taken with
    | nil => rfl
    | cons entry rest ih =>
      obtain ⟨name, property⟩ := entry
      rw [conversionsFrom, conversionsFrom, hwanted, hcollapses, hhas, ih]
  rw [conversions, conversions, hfrom, hproperties]

theorem source_mem {conversion : Conversion}
    (h : conversion ∈ build.conversions options inflector) :
    conversion.source ∈ build.schema.propertyNames := by
  rw [← map_source_conversions options inflector build]
  exact List.mem_map_of_mem h

variable (options inflector) in
theorem exists_conversion {name : String} (h : name ∈ build.schema.propertyNames) :
    ∃ conversion ∈ build.conversions options inflector, conversion.source = name := by
  rw [← map_source_conversions options inflector build] at h
  exact List.mem_map.1 h

theorem nodup_targets (hnodup : build.schema.propertyNames.Nodup) :
    ((build.conversions options inflector).map Conversion.target).Nodup :=
  (nodup_targets_conversionsFrom hnodup (fun _ h => h) fun _ h => absurd h List.not_mem_nil).1

end ClassBuild

/-- A set of names after the renames of some conversions, one after the other. -/
def Conversion.moved (conversions : List Conversion) (set : NameSet) : NameSet :=
  conversions.foldl (fun set conversion => set.rename conversion.source conversion.target) set

/-- Renames one after the other act as one, if no target is a source and no source comes twice. -/
theorem Conversion.mem_moved_iff_of_fresh {conversions : List Conversion}
    (hnodup : (conversions.map Conversion.source).Nodup)
    (hfresh : ∀ first ∈ conversions, ∀ second ∈ conversions, first.target ≠ second.source)
    {set : NameSet} {wanted : String} :
    wanted ∈ moved conversions set ↔
      (∃ conversion ∈ conversions, conversion.target = wanted ∧ conversion.source ∈ set) ∨
        (wanted ∈ set ∧ ∀ conversion ∈ conversions, conversion.source ≠ wanted) := by
  induction conversions generalizing set with
  | nil => simp [moved]
  | cons first rest ih =>
    obtain ⟨hsource, hrest⟩ := List.nodup_cons.1 hnodup
    have hother : ∀ conversion ∈ rest, conversion.source ≠ first.source :=
      fun conversion hm he => hsource (he ▸ List.mem_map_of_mem hm)
    have htarget : ∀ conversion ∈ rest, conversion.source ≠ first.target := fun conversion hm he =>
      hfresh first List.mem_cons_self conversion (List.mem_cons_of_mem _ hm) he.symm
    have hself : first.target ≠ first.source :=
      hfresh first List.mem_cons_self first List.mem_cons_self
    have hkept : ∀ conversion ∈ rest,
        (conversion.source ∈ set.rename first.source first.target ↔ conversion.source ∈ set) := by
      intro conversion hm
      rw [NameSet.mem_rename]
      simp [htarget conversion hm, hother conversion hm]
    -- The first rename moves no name that a later one asks for, so the sets agree for the rest.
    have ih' := @ih hrest fun c hc d hd =>
      hfresh c (List.mem_cons_of_mem _ hc) d (List.mem_cons_of_mem _ hd)
    rw [moved, List.foldl_cons, ← moved, ih', List.exists_mem_cons_iff, List.forall_mem_cons,
      NameSet.mem_rename]
    have hexists : (∃ conversion ∈ rest, conversion.target = wanted ∧
        conversion.source ∈ set.rename first.source first.target) ↔
        ∃ conversion ∈ rest, conversion.target = wanted ∧ conversion.source ∈ set :=
      exists_congr fun conversion => and_congr_right fun hm =>
        and_congr_right fun _ => hkept conversion hm
    rw [hexists]
    constructor
    · rintro (h | ⟨⟨hs, rfl⟩ | ⟨hm, hs⟩, hall⟩)
      · exact .inl (.inr h)
      · exact .inl (.inl ⟨rfl, hs⟩)
      · by_cases hw : first.source = wanted
        · exact absurd (hw ▸ hm) (hs hw.symm)
        · exact .inr ⟨hm, hw, hall⟩
    · rintro ((⟨rfl, hs⟩ | h) | ⟨hm, hne, hall⟩)
      · exact .inr ⟨.inl ⟨hs, rfl⟩, htarget⟩
      · exact .inl h
      · exact .inr ⟨.inr ⟨hm, fun he => absurd he.symm hne⟩, hall⟩

namespace ClassBuild

variable (options : SchemaOptions) (inflector : Inflector) (build : ClassBuild)

/-- A set of property names after the renames of the conversion. -/
def moved (set : NameSet) : NameSet :=
  Conversion.moved ((build.conversions options inflector).filter Conversion.isRenamed) set

/-- The properties after the conversion. -/
def convertedProperties : List (String × SchemaNode) :=
  Entries.ofList ((build.conversions options inflector).map fun conversion =>
    (conversion.target, conversion.result))

/-- The mandatory properties, with those that the conversion collapses. -/
def mandatorySources : NameSet :=
  build.mandatory.insertAll
    (((build.conversions options inflector).filter Conversion.wasMandatory).map Conversion.source)

variable {options inflector build}

/-- The renames of a conversion move names of properties from the sources to the targets. -/
theorem mem_moved_iff (hnodup : build.schema.propertyNames.Nodup) {set : NameSet}
    (hset : ∀ name ∈ set, name ∈ build.schema.propertyNames) {wanted : String} :
    wanted ∈ build.moved options inflector set ↔
      ∃ conversion ∈ build.conversions options inflector,
        conversion.target = wanted ∧ conversion.source ∈ set := by
  have hsources : ((build.conversions options inflector).map Conversion.source).Nodup :=
    map_source_conversions options inflector build ▸ hnodup
  rw [moved, Conversion.mem_moved_iff_of_fresh ((List.filter_sublist.map _).nodup hsources)]
  · constructor
    · rintro (⟨conversion, hm, h⟩ | ⟨hm, hall⟩)
      · exact ⟨conversion, (List.mem_filter.1 hm).1, h⟩
      · obtain ⟨conversion, hc, rfl⟩ := exists_conversion options inflector (hset wanted hm)
        refine ⟨conversion, hc, ?_, hm⟩
        by_cases hr : conversion.isRenamed = true
        · exact absurd rfl (hall conversion (List.mem_filter.2 ⟨hc, hr⟩))
        · simpa [Conversion.isRenamed] using hr
    · rintro ⟨conversion, hc, rfl, hs⟩
      by_cases hr : conversion.isRenamed = true
      · exact .inl ⟨conversion, List.mem_filter.2 ⟨hc, hr⟩, rfl, hs⟩
      · have he : conversion.target = conversion.source := by simpa [Conversion.isRenamed] using hr
        refine .inr ⟨he ▸ hs, fun other ho hso => ?_⟩
        obtain ⟨ho, hro⟩ := List.mem_filter.1 ho
        obtain rfl := List.inj_on_of_nodup_map hsources ho hc (hso.trans he)
        exact hr hro
  · intro first hf second hs he
    obtain ⟨hf, hr⟩ := List.mem_filter.1 hf
    rcases (records_of_mem hf).target with ht | ⟨_, ht⟩
    · simp [Conversion.isRenamed, ht] at hr
    · exact ht (he ▸ source_mem (List.mem_filter.1 hs).1)

theorem foldl_rename (conversions : List Conversion) (build : ClassBuild) :
    conversions.foldl (fun build conversion => build.rename conversion.source conversion.target)
      build = { build with
        functional := Conversion.moved conversions build.functional
        enumerated := Conversion.moved conversions build.enumerated
        mandatory := Conversion.moved conversions build.mandatory
        schema := { build.schema with
          required := Conversion.moved conversions build.schema.required } } := by
  induction conversions generalizing build with
  | nil =>
    obtain ⟨subject, schema⟩ := build
    cases schema
    rfl
  | cons first rest ih =>
    rw [List.foldl_cons, ih]
    rfl

theorem convertArrays_eq (harrays : options.alwaysGenerateArrays = false) :
    build.convertArrays options inflector = { build with
      functional := build.moved options inflector build.functional
      enumerated := build.moved options inflector build.enumerated
      mandatory := build.moved options inflector (build.mandatorySources options inflector)
      required := build.moved options inflector build.schema.required
      schema := { build.schema with
        properties := build.convertedProperties options inflector
        required := build.moved options inflector build.schema.required } } := by
  unfold convertArrays
  rw [harrays]
  simp only [Bool.false_eq_true, if_false, foldl_rename]
  rfl

theorem target_mem_moved_iff (hnodup : build.schema.propertyNames.Nodup) {set : NameSet}
    (hset : ∀ name ∈ set, name ∈ build.schema.propertyNames) {conversion : Conversion}
    (hmem : conversion ∈ build.conversions options inflector) :
    conversion.target ∈ build.moved options inflector set ↔ conversion.source ∈ set := by
  rw [mem_moved_iff hnodup hset]
  constructor
  · rintro ⟨other, hother, htarget, hsource⟩
    obtain rfl := List.inj_on_of_nodup_map (nodup_targets hnodup) hother hmem htarget
    exact hsource
  · exact fun hsource => ⟨conversion, hmem, rfl, hsource⟩

theorem source_mem_mandatorySources_iff (hnodup : build.schema.propertyNames.Nodup)
    {conversion : Conversion} (hmem : conversion ∈ build.conversions options inflector) :
    conversion.source ∈ build.mandatorySources options inflector ↔
      conversion.wasMandatory = true ∨ conversion.source ∈ build.mandatory := by
  have hsources : ((build.conversions options inflector).map Conversion.source).Nodup :=
    map_source_conversions options inflector build ▸ hnodup
  rw [mandatorySources, NameSet.mem_insertAll, List.mem_map]
  refine or_congr_left ⟨?_, fun h => ⟨conversion, List.mem_filter.2 ⟨hmem, h⟩, rfl⟩⟩
  rintro ⟨other, hother, hsource⟩
  obtain ⟨hother, hmandatory⟩ := List.mem_filter.1 hother
  obtain rfl := List.inj_on_of_nodup_map hsources hother hmem hsource
  exact hmandatory

theorem mandatorySources_subset
    (hmandatory : ∀ name ∈ build.mandatory, name ∈ build.schema.propertyNames) :
    ∀ name ∈ build.mandatorySources options inflector, name ∈ build.schema.propertyNames := by
  intro name hm
  rcases NameSet.mem_insertAll.1 hm with hm | hm
  · obtain ⟨conversion, hc, rfl⟩ := List.mem_map.1 hm
    exact source_mem (List.mem_filter.1 hc).1
  · exact hmandatory name hm

theorem result_of_collapses {conversion : Conversion} (hcollapses : conversion.collapses = true) :
    conversion.result = conversion.node.collapsed := by
  unfold Conversion.result
  rw [if_pos hcollapses]

theorem result_of_not_collapses {conversion : Conversion}
    (hcollapses : conversion.collapses = false) : conversion.result = conversion.node := by
  unfold Conversion.result
  rw [if_neg (Bool.not_eq_true _ ▸ hcollapses)]

/-- A conversion that renames and collapses nothing changes nothing. -/
theorem convertArrays_of_kept (hordered : Entries.Ordered build.schema.properties)
    (hsynced : build.required = build.schema.required)
    (hkept : ∀ conversion ∈ build.conversions options inflector,
      conversion.target = conversion.source ∧ conversion.collapses = false) :
    build.convertArrays options inflector = build := by
  cases harrays : options.alwaysGenerateArrays with
  | true =>
    unfold convertArrays
    rw [if_pos harrays]
  | false =>
    have hrenames : (build.conversions options inflector).filter Conversion.isRenamed = [] :=
      List.filter_eq_nil_iff.2 fun conversion hm => by
        simp [Conversion.isRenamed, (hkept conversion hm).1]
    have hmandatory : (build.conversions options inflector).filter Conversion.wasMandatory = [] :=
      List.filter_eq_nil_iff.2 fun conversion hm => by
        simp [Conversion.wasMandatory, (hkept conversion hm).2]
    have hentries : (build.conversions options inflector).map
        (fun conversion => (conversion.target, conversion.result)) = build.schema.properties := by
      refine (List.map_congr_left fun conversion hm => ?_).trans
        (map_conversionsFrom [] build.schema.properties)
      rw [(hkept conversion hm).1, Conversion.result, (hkept conversion hm).2]
      rfl
    have hproperties : build.convertedProperties options inflector = build.schema.properties := by
      rw [convertedProperties, hentries, Entries.ofList_eq_self hordered]
    have hmoved : ∀ set, build.moved options inflector set = set := by
      intro set
      rw [moved, hrenames]
      rfl
    have hsources : build.mandatorySources options inflector = build.mandatory := by
      rw [mandatorySources, hmandatory]
      rfl
    have hschema : { build.schema with
        properties := build.schema.properties, required := build.schema.required } =
        build.schema := by
      cases build.schema
      rfl
    rw [convertArrays_eq harrays, hproperties, hsources]
    simp only [hmoved]
    rw [hschema, ← hsynced]

theorem convertArrays_of_always (harrays : options.alwaysGenerateArrays = true) :
    build.convertArrays options inflector = build := by
  unfold convertArrays
  rw [if_pos harrays]

/-- No two properties get one name, so none of them is lost. -/
theorem convertedProperties_perm (hnodup : build.schema.propertyNames.Nodup) :
    (build.convertedProperties options inflector).Perm
      ((build.conversions options inflector).map fun conversion =>
        (conversion.target, conversion.result)) := by
  apply Entries.ofList_perm
  rw [Entries.names, List.map_map]
  exact nodup_targets hnodup

theorem mem_convertedProperties_iff (hnodup : build.schema.propertyNames.Nodup)
    {entry : String × SchemaNode} :
    entry ∈ build.convertedProperties options inflector ↔
      ∃ conversion ∈ build.conversions options inflector,
        (conversion.target, conversion.result) = entry := by
  rw [(convertedProperties_perm hnodup).mem_iff, List.mem_map]

theorem mem_names_convertedProperties_iff {name : String} :
    name ∈ Entries.names (build.convertedProperties options inflector) ↔
      ∃ conversion ∈ build.conversions options inflector, conversion.target = name := by
  rw [convertedProperties, Entries.mem_names_ofList, Entries.names, List.map_map, List.mem_map]
  rfl

/-- A set of property names is moved into the names after the conversion. -/
theorem moved_subset (hnodup : build.schema.propertyNames.Nodup) {set : NameSet}
    (hset : ∀ name ∈ set, name ∈ build.schema.propertyNames) :
    ∀ name ∈ build.moved options inflector set,
      name ∈ Entries.names (build.convertedProperties options inflector) := by
  intro name hm
  obtain ⟨conversion, hc, htarget, _⟩ := (mem_moved_iff hnodup hset).1 hm
  exact mem_names_convertedProperties_iff.2 ⟨conversion, hc, htarget⟩

theorem length_conversions :
    (build.conversions options inflector).length = build.schema.properties.length := by
  have hsources := congrArg List.length (map_source_conversions options inflector build)
  rwa [List.length_map, SchemaNode.propertyNames, Entries.names, List.length_map] at hsources

theorem properties_convertArrays_congr {next : ClassBuild}
    (hfunctional : next.functional = build.functional)
    (henumerated : next.enumerated = build.enumerated)
    (hproperties : next.schema.properties = build.schema.properties) :
    (next.convertArrays options inflector).schema.properties =
      (build.convertArrays options inflector).schema.properties := by
  have hconversions : next.conversions options inflector = build.conversions options inflector :=
    conversions_congr hfunctional henumerated hproperties
  cases harrays : options.alwaysGenerateArrays with
  | true => rw [convertArrays_of_always harrays, convertArrays_of_always harrays, hproperties]
  | false =>
    rw [convertArrays_eq harrays, convertArrays_eq harrays]
    dsimp only
    rw [convertedProperties, convertedProperties, hconversions]

/-- A property goes by its new name after the conversion. -/
theorem target_mem_propertyNames (harrays : options.alwaysGenerateArrays = false)
    {conversion : Conversion} (hmem : conversion ∈ build.conversions options inflector) :
    conversion.target ∈ (build.convertArrays options inflector).schema.propertyNames := by
  rw [convertArrays_eq harrays]
  exact mem_names_convertedProperties_iff.2 ⟨conversion, hmem, rfl⟩

/-- Without changes of names a conversion keeps the names. -/
theorem mem_propertyNames_convertArrays_iff (hfix : options.fixPropertyNames = false)
    {name : String} :
    name ∈ (build.convertArrays options inflector).schema.propertyNames ↔
      name ∈ build.schema.propertyNames := by
  cases harrays : options.alwaysGenerateArrays with
  | true => rw [convertArrays_of_always harrays]
  | false =>
    have hkept : ∀ conversion ∈ build.conversions options inflector,
        conversion.target = conversion.source := by
      intro conversion hm
      have hrecords := records_of_mem hm
      have hwanted := hrecords.wanted
      rw [wantedName, hfix, Bool.false_and, if_neg Bool.false_ne_true] at hwanted
      exact hrecords.target.elim id fun htarget => htarget.1.trans hwanted
    have hnames : name ∈ (build.convertArrays options inflector).schema.propertyNames ↔
        ∃ conversion ∈ build.conversions options inflector, conversion.target = name := by
      rw [convertArrays_eq harrays]
      exact mem_names_convertedProperties_iff
    rw [hnames]
    constructor
    · rintro ⟨conversion, hm, rfl⟩
      rw [hkept conversion hm]
      exact source_mem hm
    · intro h
      obtain ⟨conversion, hm, hsource⟩ := exists_conversion options inflector h
      exact ⟨conversion, hm, (hkept conversion hm).trans hsource⟩

/-- A conversion keeps the number of properties. -/
theorem length_convertArrays (hnodup : build.schema.propertyNames.Nodup) :
    (build.convertArrays options inflector).schema.properties.length =
      build.schema.properties.length := by
  cases harrays : options.alwaysGenerateArrays with
  | true => rw [convertArrays_of_always harrays]
  | false =>
    rw [convertArrays_eq harrays, (convertedProperties_perm hnodup).length_eq, List.length_map,
      length_conversions]

theorem ordered_convertArrays (hordered : Entries.Ordered build.schema.properties) :
    Entries.Ordered (build.convertArrays options inflector).schema.properties := by
  cases harrays : options.alwaysGenerateArrays with
  | true => rwa [convertArrays_of_always harrays]
  | false =>
    rw [convertArrays_eq harrays]
    exact Entries.ordered_ofList _

variable (options inflector build) in
/-- The name that a conversion gives to a property; a name of no property stays as it is. -/
def renamed (name : String) : String :=
  if options.alwaysGenerateArrays then name
  else
    match (build.conversions options inflector).find? (·.source == name) with
    | some conversion => conversion.target
    | none => name

theorem renamed_of_always (harrays : options.alwaysGenerateArrays = true) (name : String) :
    build.renamed options inflector name = name := by
  unfold renamed
  rw [if_pos harrays]

theorem renamed_source (harrays : options.alwaysGenerateArrays = false)
    (hnodup : build.schema.propertyNames.Nodup) {conversion : Conversion}
    (hmem : conversion ∈ build.conversions options inflector) :
    build.renamed options inflector conversion.source = conversion.target := by
  have hsources : ((build.conversions options inflector).map Conversion.source).Nodup :=
    map_source_conversions options inflector build ▸ hnodup
  have hfound : (build.conversions options inflector).find? (·.source == conversion.source) =
      some conversion := by
    obtain ⟨other, hother⟩ : ∃ other, (build.conversions options inflector).find?
        (·.source == conversion.source) = some other :=
      Option.isSome_iff_exists.1 (List.find?_isSome.2 ⟨conversion, hmem, beq_self_eq_true _⟩)
    have hsame : other.source = conversion.source := by simpa using List.find?_some hother
    have hin := List.mem_of_find?_eq_some hother
    rw [hother, List.inj_on_of_nodup_map hsources hin hmem hsame]
  unfold renamed
  rw [if_neg (Bool.not_eq_true _ ▸ harrays), hfound]

/-- A conversion gives every property a name of its own, and no other names come up. -/
theorem bijOn_renamed (hnodup : build.schema.propertyNames.Nodup) :
    Set.BijOn (build.renamed options inflector) {name | name ∈ build.schema.propertyNames}
      {name | name ∈ (build.convertArrays options inflector).schema.propertyNames} := by
  cases harrays : options.alwaysGenerateArrays with
  | true =>
    rw [convertArrays_of_always harrays]
    exact (Set.bijOn_id _).congr fun name _ => (renamed_of_always harrays name).symm
  | false =>
    have hnames : ∀ name, name ∈ (build.convertArrays options inflector).schema.propertyNames ↔
        ∃ conversion ∈ build.conversions options inflector, conversion.target = name := by
      intro name
      rw [convertArrays_eq harrays]
      exact mem_names_convertedProperties_iff
    refine ⟨?_, ?_, ?_⟩
    · intro name hname
      obtain ⟨conversion, hm, rfl⟩ := exists_conversion options inflector hname
      exact (hnames _).2 ⟨conversion, hm, (renamed_source harrays hnodup hm).symm⟩
    · intro first hfirst second hsecond hsame
      obtain ⟨one, hone, rfl⟩ := exists_conversion options inflector hfirst
      obtain ⟨two, htwo, rfl⟩ := exists_conversion options inflector hsecond
      rw [renamed_source harrays hnodup hone, renamed_source harrays hnodup htwo] at hsame
      rw [List.inj_on_of_nodup_map (nodup_targets hnodup) hone htwo hsame]
    · intro name hname
      obtain ⟨conversion, hm, rfl⟩ := (hnames name).1 hname
      exact ⟨conversion.source, source_mem hm, renamed_source harrays hnodup hm⟩

/-- A property is required after a conversion just when it was before. -/
theorem renamed_mem_required_iff (hnodup : build.schema.propertyNames.Nodup)
    (hset : ∀ name ∈ build.schema.required, name ∈ build.schema.propertyNames) {name : String}
    (hname : name ∈ build.schema.propertyNames) :
    build.renamed options inflector name ∈
        (build.convertArrays options inflector).schema.required ↔
      name ∈ build.schema.required := by
  cases harrays : options.alwaysGenerateArrays with
  | true => rw [convertArrays_of_always harrays, renamed_of_always harrays]
  | false =>
    obtain ⟨conversion, hm, rfl⟩ := exists_conversion options inflector hname
    rw [renamed_source harrays hnodup hm, convertArrays_eq harrays]
    exact target_mem_moved_iff hnodup hset hm

end ClassBuild

end OntoSchema
