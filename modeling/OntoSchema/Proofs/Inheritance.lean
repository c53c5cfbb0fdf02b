import OntoSchema.Proofs.Entries
import OntoSchema.Proofs.Naming
import OntoSchema.Proofs.Hierarchy

/-!
# References to superclasses and their pruning

With namespaces both stages have a result. The references that the first one builds are in the order
of their names, so removing some of them afterwards gives the same parts as building the parts
without them (`keptParts_inheritanceParts`).
-/

namespace OntoSchema

theorem SchemaNode.referencedName?_referenceTo (component : String) :
    (SchemaNode.referenceTo component).referencedName? = some component := by
  have hprefix : componentPath.toList.isPrefixOf (componentPath ++ component).toList = true := by
    rw [String.toList_append, List.isPrefixOf_iff_prefix]
    exact List.prefix_append _ _
  have hrest : (componentPath ++ component).toList.drop componentPath.length =
      component.toList := by
    rw [String.toList_append, ← String.length_toList, List.drop_left]
  unfold SchemaNode.referencedName? SchemaNode.referenceTo
  rw [Option.bind_some, if_pos hprefix, hrest, String.ofList_toList]

theorem SchemaNode.hasProperty_iff {node : SchemaNode} {name : String} :
    node.hasProperty name = true ↔ name ∈ node.propertyNames :=
  Entries.contains_iff

namespace Ontology

variable (ontology : Ontology)

/-- A class bears something for a schema whose properties have these names. -/
def Bears (inflector : Inflector) (present : String → Prop) (iri : String) : Prop :=
  (∃ statement ∈ ontology.equivalences, statement.subject = iri) ∨
    (∃ statement ∈ ontology.subclassAxioms, statement.sub = iri ∧
      statement.sup.involvesRestriction = true) ∨
    (∃ declaration ∈ ontology.dataProperties, iri ∈ declaration.domains) ∨
    ∃ declaration ∈ ontology.objectProperties, iri ∈ declaration.ranges ∧
      (present (Iri.localName declaration.iri) ∨
        present (inflector.pluralize (Iri.localName declaration.iri)) ∨
          present (inflector.singularize (Iri.localName declaration.iri)))

/-- A superclass of a class is not a superclass of another one. -/
def Nearest (iri superclass : String) : Prop :=
  superclass ∈ ontology.superclasses iri ∧
    ∀ other ∈ ontology.superclasses iri, other ≠ superclass →
      superclass ∉ ontology.superclasses other

variable {ontology}

theorem isLoadBearing_iff {inflector : Inflector} {schema : SchemaNode} {present : String → Prop}
    (hpresent : ∀ name, name ∈ schema.propertyNames ↔ present name) {iri : String} :
    ontology.isLoadBearing inflector schema iri = true ↔ ontology.Bears inflector present iri := by
  have hequivalences : (!(ontology.equivalencesOf iri).isEmpty) = true ↔
      ∃ statement ∈ ontology.equivalences, statement.subject = iri := by
    simp [equivalencesOf]
  have hrestrictions : (ontology.subclassAxiomsOf iri).any (·.sup.involvesRestriction) = true ↔
      ∃ statement ∈ ontology.subclassAxioms, statement.sub = iri ∧
        statement.sup.involvesRestriction = true := by
    simp [subclassAxiomsOf]
  have hdata : (!(ontology.propertiesOf .data iri).isEmpty) = true ↔
      ∃ declaration ∈ ontology.dataProperties, iri ∈ declaration.domains := by
    simp [propertiesOf]
  have hlike : ∀ name, schema.hasPropertyLike inflector name = true ↔
      present name ∨ present (inflector.pluralize name) ∨
        present (inflector.singularize name) := by
    intro name
    rw [SchemaNode.hasPropertyLike, Bool.or_eq_true, Bool.or_eq_true, or_assoc]
    simp only [SchemaNode.hasProperty_iff, hpresent]
  unfold isLoadBearing Bears
  rw [Bool.or_eq_true, Bool.or_eq_true, Bool.or_eq_true, hequivalences, hrestrictions, hdata,
    or_assoc, or_assoc]
  simp only [List.any_eq_true, Bool.and_eq_true, List.contains_iff_mem, hlike]

end Ontology

namespace ClassBuild

/-- Items that are sorted by a key have ascending keys. -/
theorem pairwise_mergeSort_by {α : Type} (key : α → String) (items : List α) :
    (items.mergeSort fun a b => decide (key a ≤ key b)).Pairwise (key · ≤ key ·) := by
  have hsorted := @List.pairwise_mergeSort α (fun a b => decide (key a ≤ key b))
    (fun a b c hab hbc =>
      decide_eq_true (String.le_trans (of_decide_eq_true hab) (of_decide_eq_true hbc)))
    (fun a b => by simpa using String.le_total (key a) (key b)) items
  exact hsorted.imp of_decide_eq_true

/-- The references to some components, in ascending order. -/
def sortedReferences (names : List String) : List String :=
  (names.map (componentPath ++ ·)).mergeSort fun a b => decide (a ≤ b)

theorem sortedReferences_perm (names : List String) :
    (sortedReferences names).Perm (names.map (componentPath ++ ·)) :=
  List.mergeSort_perm _ _

theorem pairwise_sortedReferences (names : List String) :
    (sortedReferences names).Pairwise (· ≤ ·) :=
  pairwise_mergeSort_by id _

/-- Removing references and sorting them can change places. -/
theorem filter_sortedReferences (keep : String → Bool) (names : List String) :
    (sortedReferences names).filter (fun reference => keep reference) =
      sortedReferences (names.filter fun name => keep (componentPath ++ name)) := by
  have hperm : ((sortedReferences names).filter keep).Perm
      (sortedReferences (names.filter fun name => keep (componentPath ++ name))) := by
    refine ((sortedReferences_perm names).filter keep).trans ?_
    rw [List.filter_map]
    exact (sortedReferences_perm _).symm
  exact hperm.eq_of_pairwise (fun _ _ _ _ hab hba => String.le_antisymm hab hba)
    ((pairwise_sortedReferences names).filter keep) (pairwise_sortedReferences _)

theorem sortedReferences_eq_nil_iff {names : List String} :
    sortedReferences names = [] ↔ names = [] := by
  rw [← List.length_eq_zero_iff, (sortedReferences_perm names).length_eq, List.length_map,
    List.length_eq_zero_iff]

/-- A node that holds nothing but a reference. -/
def referring (reference : String) : SchemaNode := { reference := some reference }

theorem inheritanceParts_nil : inheritanceParts [] = [] := by
  simp [inheritanceParts]

theorem inheritanceParts_of_ne_nil {names : List String} (h : names ≠ []) :
    inheritanceParts names = (sortedReferences names).map referring ++ [.ofType .object] := by
  have hsorted : sortedReferences names ≠ [] := fun he => h (sortedReferences_eq_nil_iff.1 he)
  unfold inheritanceParts
  rw [← sortedReferences]
  cases hcases : sortedReferences names with
  | nil => exact absurd hcases hsorted
  | cons first rest => rfl

theorem length_inheritanceParts {names : List String} (h : names ≠ []) :
    (inheritanceParts names).length = names.length + 1 := by
  rw [inheritanceParts_of_ne_nil h, List.length_append, List.length_map,
    (sortedReferences_perm names).length_eq, List.length_map, List.length_singleton]

theorem mem_inheritanceParts {names : List String} {part : SchemaNode}
    (h : part ∈ inheritanceParts names) :
    (∃ name ∈ names, part = .referenceTo name) ∨ part = .ofType .object := by
  by_cases hnames : names = []
  · rw [hnames, inheritanceParts_nil] at h
    exact absurd h List.not_mem_nil
  · rw [inheritanceParts_of_ne_nil hnames] at h
    rcases List.mem_append.1 h with h | h
    · obtain ⟨reference, hreference, rfl⟩ := List.mem_map.1 h
      obtain ⟨name, hname, rfl⟩ :=
        List.mem_map.1 ((sortedReferences_perm names).mem_iff.1 hreference)
      exact .inl ⟨name, hname, rfl⟩
    · exact .inr (List.mem_singleton.1 h)

theorem referenceTo_mem_inheritanceParts {names : List String} {name : String} (h : name ∈ names) :
    .referenceTo name ∈ inheritanceParts names := by
  rw [inheritanceParts_of_ne_nil (List.ne_nil_of_mem h)]
  refine List.mem_append.2 (.inl (List.mem_map.2 ⟨componentPath ++ name, ?_, rfl⟩))
  exact (sortedReferences_perm names).mem_iff.2 (List.mem_map.2 ⟨name, h, rfl⟩)

/-- The parts refer to the given components and to no others. -/
theorem exists_reference_iff {names : List String} {component : String} :
    (∃ part ∈ inheritanceParts names, part.referencedName? = some component) ↔
      component ∈ names := by
  constructor
  · rintro ⟨part, hpart, hname⟩
    rcases mem_inheritanceParts hpart with ⟨name, hmem, rfl⟩ | rfl
    · rw [SchemaNode.referencedName?_referenceTo] at hname
      exact Option.some.inj hname ▸ hmem
    · cases hname
  · intro h
    exact ⟨_, referenceTo_mem_inheritanceParts h, SchemaNode.referencedName?_referenceTo _⟩

/-- Whether a part refers to none of some components. -/
def survives (stripped : List String) (part : SchemaNode) : Bool :=
  !stripped.any fun name => part.referencedName? == some name

theorem survives_referring (stripped : List String) (name : String) :
    survives stripped (referring (componentPath ++ name)) = !stripped.contains name := by
  have hname : (referring (componentPath ++ name)).referencedName? = some name :=
    SchemaNode.referencedName?_referenceTo name
  have hsame : ∀ other : String, (some name == some other) = (name == other) := fun _ => rfl
  simp only [survives, hname, hsame, List.contains_eq_any_beq]

theorem survives_ofType (stripped : List String) (type : SchemaType) :
    survives stripped (.ofType type) = true := by
  simp [survives, SchemaNode.ofType, SchemaNode.referencedName?]

/-- The parts that remain when the references to some components are removed. -/
def keptParts (stripped : List String) (parts : List SchemaNode) : List SchemaNode :=
  let kept := parts.filter (survives stripped)
  if kept.all (·.reference.isNone) then [] else kept

theorem mem_of_mem_keptParts {stripped : List String} {parts : List SchemaNode} {part : SchemaNode}
    (h : part ∈ keptParts stripped parts) : part ∈ parts := by
  unfold keptParts at h
  dsimp only at h
  split at h
  · exact absurd h List.not_mem_nil
  · exact (List.mem_filter.1 h).1

theorem keptParts_nil (stripped : List String) : keptParts stripped [] = [] := rfl

theorem filter_inheritanceParts (stripped : List String) {names : List String} (h : names ≠ []) :
    (inheritanceParts names).filter (survives stripped) =
      (sortedReferences (names.filter fun name => !stripped.contains name)).map referring ++
        [.ofType .object] := by
  have hfilter := filter_sortedReferences (fun reference => survives stripped (referring reference))
    names
  simp only [survives_referring] at hfilter
  rw [inheritanceParts_of_ne_nil h, List.filter_append, List.filter_map, ← hfilter,
    List.filter_cons_of_pos (survives_ofType _ _), List.filter_nil]
  rfl

theorem keptParts_inheritanceParts (stripped names : List String) :
    keptParts stripped (inheritanceParts names) =
      inheritanceParts (names.filter fun name => !stripped.contains name) := by
  by_cases hnames : names = []
  · rw [hnames, inheritanceParts_nil, keptParts_nil, List.filter_nil, inheritanceParts_nil]
  unfold keptParts
  dsimp only
  rw [filter_inheritanceParts stripped hnames]
  by_cases hrest : (names.filter fun name => !stripped.contains name) = []
  · rw [hrest, sortedReferences_eq_nil_iff.2 rfl, inheritanceParts_nil]
    rfl
  · rw [inheritanceParts_of_ne_nil hrest, if_neg]
    cases hcases : sortedReferences (names.filter fun name => !stripped.contains name) with
    | nil => exact absurd (sortedReferences_eq_nil_iff.1 hcases) hrest
    | cons first rest => simp [referring]

/-- Fewer references make other parts, unless there are as many. -/
theorem inheritanceParts_filter_eq_iff {α : Type} (name : α → String) {keep bear : α → Bool}
    {items : List α} (himp : ∀ item ∈ items, keep item = true → bear item = true) :
    inheritanceParts ((items.filter keep).map name) =
        inheritanceParts ((items.filter bear).map name) ↔
      ∀ item ∈ items, bear item = true → keep item = true := by
  have hsub : (items.filter keep).Sublist (items.filter bear) := by
    have hboth : items.filter keep = (items.filter bear).filter keep := by
      rw [List.filter_filter]
      refine List.filter_congr fun item hm => ?_
      cases hk : keep item with
      | false => rfl
      | true => rw [himp item hm hk, Bool.and_self]
    rw [hboth]
    exact List.filter_sublist
  constructor
  · intro heq
    have hlength := congrArg List.length heq
    have hsame : (items.filter keep).length = (items.filter bear).length := by
      by_cases hk : (items.filter keep).map name = []
      · by_cases hb : (items.filter bear).map name = []
        · rw [List.map_eq_nil_iff.1 hk, List.map_eq_nil_iff.1 hb]
        · rw [hk, inheritanceParts_nil, length_inheritanceParts hb] at hlength
          simp at hlength
      · by_cases hb : (items.filter bear).map name = []
        · rw [hb, inheritanceParts_nil, length_inheritanceParts hk] at hlength
          simp at hlength
        · rw [length_inheritanceParts hk, length_inheritanceParts hb, List.length_map,
            List.length_map] at hlength
          omega
    intro item hm hb
    have hmem : item ∈ items.filter keep :=
      hsub.eq_of_length hsame ▸ List.mem_filter.2 ⟨hm, hb⟩
    exact (List.mem_filter.1 hmem).2
  · intro hall
    have hfilter : items.filter keep = items.filter bear := List.filter_congr fun item hm =>
      Bool.eq_iff_iff.2 ⟨himp item hm, hall item hm⟩
    rw [hfilter]

variable (ontology : Ontology) (prefixes : NameMap String) (options : SchemaOptions)
  (inflector : Inflector) (build : ClassBuild)

/-- Whether the schema of a class refers to superclasses. -/
def refersToSuperclasses : Bool :=
  !build.schema.isEnum && (options.followReferences && options.useInheritanceReferences)

/-- The parts of a schema before the pruning. -/
def inheritedParts : List SchemaNode :=
  if build.refersToSuperclasses options then
    inheritanceParts ((build.nearestAncestors ontology).map (Ontology.qualifiedName prefixes))
  else build.schema.allOf

/-- The components that the pruning takes away. -/
def strippedNames : List String :=
  (build.referenced.toList.filter (!ontology.isLoadBearing inflector build.schema ·)).map
    (Ontology.qualifiedName prefixes)

/-- A build with the references to its superclasses. -/
def linked : ClassBuild :=
  { build with
    referenced := build.referenced.filter (ontology.isLoadBearing inflector build.schema)
    schema := { build.schema with
      allOf := keptParts (build.strippedNames ontology prefixes inflector)
        (build.inheritedParts ontology prefixes options) } }

variable {ontology prefixes options inflector build} {next : ClassBuild}

/-- Where a build has met all superclasses, it refers to the nearest ones. -/
theorem mem_nearestAncestors_iff {iri superclass : String}
    (hancestors : ∀ other, other ∈ build.ancestors ↔ other ∈ ontology.superclasses iri)
    (hreferenced : ∀ other ∈ ontology.superclasses iri, other ∈ build.referenced) :
    superclass ∈ build.nearestAncestors ontology ↔ ontology.Nearest iri superclass := by
  have hcovered : build.isCovered ontology superclass = true ↔
      ∃ other ∈ ontology.superclasses iri, other ≠ superclass ∧
        superclass ∈ ontology.superclasses other := by
    unfold isCovered
    simp only [List.any_eq_true, hancestors, Bool.and_eq_true, decide_eq_true_eq,
      NameSet.contains_iff]
  unfold nearestAncestors Ontology.Nearest
  rw [List.mem_filter, hancestors, Bool.and_eq_true, NameSet.contains_iff, Bool.not_eq_true',
    ← Bool.not_eq_true, hcovered]
  refine and_congr_right fun habove => ?_
  rw [and_iff_right (hreferenced superclass habove)]
  simp only [not_exists, not_and]

theorem completeType_of_type (h : build.schema.type.isSome) : build.completeType = build := by
  unfold completeType
  rw [if_neg]
  cases htype : build.schema.type with
  | none => rw [htype] at h; cases h
  | some type => simp

theorem withAllOf_self (build : ClassBuild) :
    { build with schema := { build.schema with allOf := build.schema.allOf } } = build := by
  obtain ⟨subject, schema⟩ := build
  cases schema
  rfl

/-- Where it succeeds, the first stage changes the type and the parts of the schema only. -/
theorem exists_eq_of_applyInheritance (h : build.applyInheritance ontology options = .ok next) :
    ∃ type allOf, next = { build with schema := { build.schema with type, allOf } } := by
  have hcomplete : ∀ linking : ClassBuild, ∃ type, linking.completeType =
      { linking with schema := { linking.schema with type } } := by
    intro linking
    unfold completeType
    split
    · exact ⟨_, rfl⟩
    · exact ⟨linking.schema.type, (withAllOf_self linking).symm⟩
  unfold applyInheritance at h
  split at h
  · obtain rfl := Except.ok.inj h
    exact ⟨build.schema.type, build.schema.allOf, (withAllOf_self build).symm⟩
  · split at h
    · split at h
      · cases h
      · rename_i names _
        obtain rfl := Except.ok.inj h
        obtain ⟨type, htype⟩ := hcomplete
          { build with schema := { build.schema with allOf := inheritanceParts names } }
        exact ⟨type, _, htype⟩
    · obtain rfl := Except.ok.inj h
      obtain ⟨type, htype⟩ := hcomplete build
      exact ⟨type, _, htype⟩

/-- Where it succeeds, the second stage keeps the references to classes that bear something. -/
theorem exists_eq_of_prune (h : build.prune ontology inflector = .ok next) :
    ∃ allOf, next = { build with
      referenced := build.referenced.filter (ontology.isLoadBearing inflector build.schema)
      schema := { build.schema with allOf } } := by
  unfold prune at h
  dsimp only at h
  split at h
  · cases h
  · obtain rfl := Except.ok.inj h
    exact ⟨_, rfl⟩

theorem applyInheritance_eq (hprefixes : ontology.prefixes? = some prefixes)
    (htype : build.schema.type.isSome) :
    build.applyInheritance ontology options = .ok { build with
      schema := { build.schema with
        allOf := build.inheritedParts ontology prefixes options } } := by
  have hself := completeType_of_type htype
  unfold applyInheritance inheritedParts refersToSuperclasses
  cases henum : build.schema.isEnum with
  | true => simp [withAllOf_self]
  | false =>
    by_cases hrefers : (options.followReferences && options.useInheritanceReferences) = true
    · simp only [hrefers, Ontology.mapM_schemaName hprefixes, Bool.false_eq_true, if_false, if_true,
        Bool.not_false, Bool.and_self]
      exact congrArg Except.ok (completeType_of_type htype)
    · simp only [hrefers, Bool.false_eq_true, if_false, Bool.not_false, Bool.and_false,
        withAllOf_self, hself]

theorem prune_eq (hprefixes : ontology.prefixes? = some prefixes) :
    build.prune ontology inflector = .ok { build with
      referenced := build.referenced.filter (ontology.isLoadBearing inflector build.schema)
      schema := { build.schema with
        allOf := keptParts (build.strippedNames ontology prefixes inflector)
          build.schema.allOf } } := by
  unfold prune
  dsimp only
  rw [Ontology.mapM_schemaName hprefixes]
  rfl

variable (options inflector) in
/-- Both stages together have a result. -/
theorem linked_eq (hprefixes : ontology.prefixes? = some prefixes)
    (htype : build.schema.type.isSome) :
    (build.applyInheritance ontology options >>= fun inherited =>
      inherited.prune ontology inflector) =
      .ok (build.linked ontology prefixes options inflector) := by
  rw [applyInheritance_eq hprefixes htype]
  simp only [bind, Except.bind]
  rw [prune_eq hprefixes]
  rfl

/-- The references that remain, when there were no parts before. -/
theorem allOf_linked (hparts : build.schema.allOf = []) :
    (build.linked ontology prefixes options inflector).schema.allOf =
      if build.refersToSuperclasses options then
        inheritanceParts (((build.nearestAncestors ontology).filter fun iri =>
          !(build.strippedNames ontology prefixes inflector).contains
            (Ontology.qualifiedName prefixes iri)).map (Ontology.qualifiedName prefixes))
      else [] := by
  have hallOf : (build.linked ontology prefixes options inflector).schema.allOf =
      keptParts (build.strippedNames ontology prefixes inflector)
        (build.inheritedParts ontology prefixes options) := rfl
  rw [hallOf, inheritedParts]
  by_cases hrefers : build.refersToSuperclasses options = true
  · rw [if_pos hrefers, if_pos hrefers, keptParts_inheritanceParts, List.filter_map]
    rfl
  · rw [if_neg hrefers, if_neg hrefers, hparts]
    rfl

theorem mem_strippedNames {name : String} :
    name ∈ build.strippedNames ontology prefixes inflector ↔
      ∃ iri ∈ build.referenced, ontology.isLoadBearing inflector build.schema iri = false ∧
        Ontology.qualifiedName prefixes iri = name := by
  rw [strippedNames, List.mem_map]
  refine exists_congr fun iri => ?_
  rw [List.mem_filter, ← NameSet.mem_def, Bool.not_eq_true', and_assoc]

/-- Where no other class has its name, a class loses its references just when it bears nothing. -/
theorem not_mem_strippedNames_iff {iri : String} (hreferenced : iri ∈ build.referenced)
    (hapart : ∀ other ∈ build.referenced,
      Ontology.qualifiedName prefixes other = Ontology.qualifiedName prefixes iri → other = iri) :
    Ontology.qualifiedName prefixes iri ∉ build.strippedNames ontology prefixes inflector ↔
      ontology.isLoadBearing inflector build.schema iri = true := by
  rw [mem_strippedNames]
  constructor
  · intro hnot
    by_contra hbarren
    exact hnot ⟨iri, hreferenced, Bool.not_eq_true _ ▸ hbarren, rfl⟩
  · rintro hbearing ⟨other, hother, hbarren, hname⟩
    obtain rfl := hapart other hother hname
    exact Bool.false_ne_true (hbarren.symm.trans hbearing)

/-- The components that the parts refer to. -/
theorem exists_reference_linked_iff (hparts : build.schema.allOf = [])
    (hrefers : build.refersToSuperclasses options = true) {component : String} :
    (∃ part ∈ (build.linked ontology prefixes options inflector).schema.allOf,
        part.referencedName? = some component) ↔
      ∃ iri ∈ build.nearestAncestors ontology,
        Ontology.qualifiedName prefixes iri ∉
          build.strippedNames ontology prefixes inflector ∧
        Ontology.qualifiedName prefixes iri = component := by
  rw [allOf_linked hparts, if_pos hrefers, exists_reference_iff, List.mem_map]
  refine exists_congr fun iri => ?_
  rw [List.mem_filter, and_assoc, Bool.not_eq_true', List.contains_eq_mem,
    decide_eq_false_iff_not]

/-- After the pruning, every class that is referred to bears something. -/
theorem strippedNames_linked :
    (build.linked ontology prefixes options inflector).strippedNames ontology prefixes inflector =
      [] := by
  refine List.eq_nil_iff_forall_not_mem.2 fun name hm => ?_
  obtain ⟨iri, hreferenced, hbarren, _⟩ := mem_strippedNames.1 hm
  obtain ⟨_, hbearing⟩ := NameSet.mem_filter.1 hreferenced
  exact Bool.false_ne_true (hbarren.symm.trans hbearing)

theorem nearestAncestors_linked :
    (build.linked ontology prefixes options inflector).nearestAncestors ontology =
      (build.nearestAncestors ontology).filter
        (ontology.isLoadBearing inflector build.schema) := by
  unfold nearestAncestors
  rw [List.filter_filter]
  refine List.filter_congr fun iri _ => ?_
  have hreferenced : (build.linked ontology prefixes options inflector).referenced.contains iri =
      (build.referenced.contains iri && ontology.isLoadBearing inflector build.schema iri) := by
    rw [Bool.eq_iff_iff, Bool.and_eq_true, NameSet.contains_iff, NameSet.contains_iff]
    exact NameSet.mem_filter
  have hcovered : (build.linked ontology prefixes options inflector).isCovered ontology iri =
      build.isCovered ontology iri := rfl
  rw [hreferenced, hcovered, Bool.and_right_comm, Bool.and_comm]

variable (ontology options inflector build) in
/-- No class that bears nothing shares its schema name with a superclass to refer to. -/
def PrunesApart : Prop :=
  build.refersToSuperclasses options = true →
    ∀ superclass ∈ build.nearestAncestors ontology,
      ontology.isLoadBearing inflector build.schema superclass = true →
        ∀ other ∈ build.referenced, ontology.isLoadBearing inflector build.schema other = false →
          ontology.schemaName other ≠ ontology.schemaName superclass

variable (options inflector) in
/-- References that are built and pruned a second time are the same, unless the first pruning took
one for the sake of another class of its name. -/
theorem allOf_linked_again (hprefixes : ontology.prefixes? = some prefixes)
    (hparts : build.schema.allOf = []) :
    ((build.linked ontology prefixes options inflector).linked ontology prefixes options
        inflector).schema.allOf =
      (build.linked ontology prefixes options inflector).schema.allOf ↔
        build.PrunesApart ontology options inflector := by
  have hagain : ((build.linked ontology prefixes options inflector).linked ontology prefixes options
      inflector).schema.allOf =
      keptParts ((build.linked ontology prefixes options inflector).strippedNames ontology prefixes
        inflector) ((build.linked ontology prefixes options inflector).inheritedParts ontology
          prefixes options) := rfl
  have hrefers : (build.linked ontology prefixes options inflector).refersToSuperclasses options =
      build.refersToSuperclasses options := rfl
  rw [hagain, strippedNames_linked, inheritedParts, hrefers, allOf_linked hparts]
  unfold PrunesApart
  by_cases huse : build.refersToSuperclasses options = true
  · rw [if_pos huse, if_pos huse, keptParts_inheritanceParts, nearestAncestors_linked]
    simp only [List.contains_nil, Bool.not_false, List.filter_true, huse, true_implies]
    rw [eq_comm, inheritanceParts_filter_eq_iff]
    · refine forall_congr' fun superclass => forall_congr' fun _ => forall_congr' fun _ => ?_
      rw [Bool.not_eq_true', List.contains_eq_mem, decide_eq_false_iff_not, mem_strippedNames]
      simp only [Ontology.schemaName_eq hprefixes, Except.ok.injEq, not_exists, not_and, ne_eq]
    · intro iri hm hkept
      by_contra hbarren
      have hreferenced : iri ∈ build.referenced := by
        have hnear := (List.mem_filter.1 hm).2
        rw [Bool.and_eq_true, NameSet.contains_iff] at hnear
        exact hnear.1
      rw [Bool.not_eq_true', List.contains_eq_mem, decide_eq_false_iff_not] at hkept
      rw [Bool.not_eq_true] at hbarren
      exact hkept (mem_strippedNames.2 ⟨iri, hreferenced, hbarren, rfl⟩)
  · rw [if_neg huse, if_neg huse]
    exact iff_of_true rfl fun h => absurd h huse

end ClassBuild

end OntoSchema
