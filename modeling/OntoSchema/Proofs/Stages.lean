import OntoSchema.Proofs.Conversion
import OntoSchema.Proofs.Inheritance
import OntoSchema.Proofs.PropertyItems
import OntoSchema.Proofs.Visit

/-!
# From the base schema through all stages

On an ontology with namespaces a class always gets a base schema and can be visited, and `Visited`
says what the visit leaves. On that build the stages have a result, which is `ClassBuild.staged`.
-/

namespace OntoSchema

theorem SchemaNode.propertyNames_generateRequired {functional mandatory : NameSet}
    {schema : SchemaNode} :
    (schema.generateRequired functional mandatory).propertyNames = schema.propertyNames := by
  unfold SchemaNode.propertyNames SchemaNode.generateRequired
  rw [Entries.names_mapValues]

namespace Ontology

variable {ontology : Ontology} {prefixes : NameMap String} {options : SchemaOptions} {iri : String}

variable (ontology prefixes options iri) in
/-- The base schema of a class on an ontology with namespaces. -/
def baseNode : SchemaNode :=
  { SchemaNode.ofType .object with
    name := some (qualifiedName prefixes iri)
    description := ontology.description? options iri
    properties := if options.defaultProperties then Catalog.entries else [] }

variable (ontology prefixes options iri) in
/-- The build that the visit of a class begins with. -/
def firstBuild : ClassBuild := .start iri (ontology.baseNode prefixes options iri)

theorem mem_entries_of_baseNode {entry : String × SchemaNode}
    (h : entry ∈ (ontology.baseNode prefixes options iri).properties) :
    entry ∈ Catalog.entries := by
  unfold baseNode at h
  dsimp only at h
  split at h
  · exact h
  · exact absurd h List.not_mem_nil

theorem ordered_baseNode :
    Entries.Ordered (ontology.baseNode prefixes options iri).properties := by
  unfold baseNode
  dsimp only
  split
  · exact Catalog.ordered_entries
  · exact Entries.ordered_nil

theorem baseSchema_eq (hprefixes : ontology.prefixes? = some prefixes) :
    ontology.baseSchema options iri = .ok (ontology.baseNode prefixes options iri) := by
  unfold baseSchema baseNode
  rw [schemaName_eq hprefixes]
  cases options.defaultProperties <;> rfl

theorem prefixes?_of_baseSchema {schema : SchemaNode}
    (h : ontology.baseSchema options iri = .ok schema) :
    ∃ prefixes, ontology.prefixes? = some prefixes := by
  unfold baseSchema at h
  obtain ⟨name, hname, _⟩ := bind_eq_ok_iff.1 h
  exact prefixes?_of_schemaName hname

end Ontology

namespace ClassBuild

variable {ontology : Ontology} {prefixes : NameMap String} {configuration : Configuration}
  {inflector : Inflector} {iri : String} {schema : SchemaNode} {build next : ClassBuild}

/-- A build that no stage has touched. -/
structure Unstaged (build : ClassBuild) : Prop where
  mandatory : build.mandatory = ∅
  required : build.schema.required = ∅
  allOf : build.schema.allOf = []
  type : build.schema.type.isSome
  ordered : Entries.Ordered build.schema.properties
  functional : ∀ name ∈ build.functional, name ∈ build.schema.propertyNames
  enumerated : ∀ name ∈ build.enumerated, name ∈ build.schema.propertyNames
  values : ∀ entry ∈ build.schema.properties, entry.2.HoldsValues
  /-- A list of values has no properties. -/
  bare : build.schema.isEnum = true → build.schema.properties = []

theorem Unstaged.nodup (h : build.Unstaged) : build.schema.propertyNames.Nodup :=
  Entries.nodup_names h.ordered

/-- What the visit of a class leaves. -/
structure Visited (ontology : Ontology) (prefixes : NameMap String) (configuration : Configuration)
    (iri : String) (build : ClassBuild) : Prop extends build.Unstaged where
  subject : build.subject = iri
  processed : ∀ other ∈ build.processed, other = iri ∨ other ∈ ontology.superclasses iri
  shell : ∃ type enumValues, build.schema.shell =
    { (ontology.baseNode prefixes configuration.schema iri).shell with type, enumValues }
  formed : build.AllFormed ontology configuration

/-- A build grows from the base schema of a class as a visit of the class has it. -/
abbrev GrowsFromBase (ontology : Ontology) (prefixes : NameMap String)
    (configuration : Configuration) (iri : String) (visited : ClassBuild) : Prop :=
  Grows ontology configuration
    (fun name => ∃ other ∈ ontology.contributors configuration.schema iri,
      ontology.Brings other name)
    (ontology.metSuperclasses configuration.schema iri)
    (ontology.firstBuild prefixes configuration.schema iri) visited

/-- The visit of a class that equals no enumeration succeeds and grows from the base schema. -/
theorem grows_of_visit (configuration : Configuration)
    (hprefixes : ontology.prefixes? = some prefixes) (hclass : ontology.enumeration? iri = none) :
    ∃ visited, (ontology.firstBuild prefixes configuration.schema iri).visit ontology
        configuration = .ok visited ∧ GrowsFromBase ontology prefixes configuration iri visited :=
  exists_visit hprefixes hclass rfl

theorem mem_processed_start {other : String} (h : other ∈ (start iri schema).processed) :
    other = iri :=
  List.mem_singleton.1 (NameSet.mem_ofList.1 h)

theorem Grows.visited {brought : String → Prop} (hprefixes : ontology.prefixes? = some prefixes)
    (h : Grows ontology configuration brought
      (ontology.metSuperclasses configuration.schema iri)
      (ontology.firstBuild prefixes configuration.schema iri) next) :
    next.Visited ontology prefixes configuration iri := by
  have hshell : next.schema.shell =
      (ontology.baseNode prefixes configuration.schema iri).shell := h.shell
  have hbrought : ∀ {set : NameSet}, (∀ name ∈ set, brought name ∨ name ∈ (∅ : NameSet)) →
      ∀ name ∈ set, name ∈ next.schema.propertyNames := by
    intro set hset name hm
    refine (h.names name).2 (.inl ?_)
    exact (hset name hm).resolve_right (NameSet.not_mem_empty name)
  have hformed : next.AllFormed ontology configuration :=
    h.formed fun entry hm => .catalog (Ontology.mem_entries_of_baseNode hm)
  refine {
    mandatory := h.mandatory
    required := ?_
    allOf := ?_
    type := ?_
    ordered := h.ordered Ontology.ordered_baseNode
    functional := hbrought h.functional
    enumerated := hbrought h.enumerated
    values := ?_
    bare := ?_
    subject := h.subject
    processed := ?_
    shell := ⟨_, _, hshell⟩
    formed := hformed }
  · exact congrArg (fun node => node.required) hshell
  · exact congrArg (fun node => node.allOf) hshell
  · have htype := congrArg (fun node => node.type) hshell
    exact Option.isSome_iff_exists.2 ⟨_, htype⟩
  · exact fun entry hm => (hformed entry hm).holdsValues hprefixes
  · intro henum
    have hnone : next.schema.isEnum = false := h.isEnum
    rw [hnone] at henum
    cases henum
  · intro other hm
    rcases (h.processed other).1 hm with hm | hm
    · unfold Ontology.metSuperclasses at hm
      split at hm
      · exact .inr hm
      · exact absurd hm List.not_mem_nil
    · exact .inl (mem_processed_start hm)

theorem visit_of_enumeration {values : List Json}
    (hclass : ontology.enumeration? build.subject = some values) :
    build.visit ontology configuration = .ok (build.enumerate values) := by
  unfold visit
  rw [hclass]

theorem visited_enumerate (values : List Json) :
    ((ontology.firstBuild prefixes configuration.schema iri).enumerate values).Visited ontology
      prefixes configuration iri where
  mandatory := rfl
  required := rfl
  allOf := rfl
  type := rfl
  ordered := Entries.ordered_nil
  functional _ h := absurd h (NameSet.not_mem_empty _)
  enumerated _ h := absurd h (NameSet.not_mem_empty _)
  values _ h := absurd h List.not_mem_nil
  bare _ := rfl
  subject := rfl
  processed _ h := .inl (List.mem_singleton.1 (NameSet.mem_ofList.1 h))
  shell := ⟨_, _, rfl⟩
  formed _ h := absurd h List.not_mem_nil

/-- Every class can be visited. -/
theorem exists_visited (hprefixes : ontology.prefixes? = some prefixes)
    (configuration : Configuration) (iri : String) :
    ∃ visited, (ontology.firstBuild prefixes configuration.schema iri).visit ontology
      configuration = .ok visited ∧ visited.Visited ontology prefixes configuration iri := by
  cases hclass : ontology.enumeration? iri with
  | none =>
    obtain ⟨visited, hvisit, hgrows⟩ := grows_of_visit configuration hprefixes hclass
    exact ⟨visited, hvisit, hgrows.visited hprefixes⟩
  | some values => exact ⟨_, visit_of_enumeration hclass, visited_enumerate values⟩

variable (ontology prefixes configuration inflector build) in
/-- The build as the references to superclasses find it. -/
def converted : ClassBuild :=
  (build.prepared configuration).convertArrays configuration.schema inflector

variable (ontology prefixes configuration inflector build) in
/-- The build after all stages. -/
def staged : ClassBuild :=
  ((build.converted configuration inflector).linked ontology prefixes configuration.schema
    inflector).collectMarkdown ontology configuration.annotations

theorem exists_prepared_eq (configuration : Configuration) (build : ClassBuild) :
    ∃ properties required, build.prepared configuration = { build with
      required
      schema := { build.schema with properties, required } } := by
  unfold prepared applyRequiredness
  dsimp only
  split
  · exact ⟨_, _, rfl⟩
  · split
    · exact ⟨_, _, rfl⟩
    · exact ⟨_, _, rfl⟩

/-- The first stages change properties, and names of properties. -/
theorem exists_converted_eq (configuration : Configuration) (inflector : Inflector)
    (build : ClassBuild) :
    ∃ functional enumerated mandatory required properties,
      build.converted configuration inflector = { build with
        functional, enumerated, mandatory, required
        schema := { build.schema with properties, required } } := by
  obtain ⟨properties, required, hprepared⟩ := exists_prepared_eq configuration build
  unfold converted
  rw [hprepared]
  cases harrays : configuration.schema.alwaysGenerateArrays with
  | true =>
    rw [convertArrays_of_always harrays]
    exact ⟨_, _, _, _, _, rfl⟩
  | false =>
    rw [convertArrays_eq harrays]
    exact ⟨_, _, _, _, _, rfl⟩

/-- The references to superclasses are chosen among all of them. -/
theorem mem_ancestors_converted_iff (hfollow : configuration.schema.followReferences = true)
    (h : GrowsFromBase ontology prefixes configuration iri build) {other : String} :
    other ∈ (build.converted configuration inflector).ancestors ↔
      other ∈ ontology.superclasses iri := by
  have hsame : (build.converted configuration inflector).ancestors = build.ancestors := by
    obtain ⟨_, _, _, _, _, hconverted⟩ := exists_converted_eq configuration inflector build
    rw [hconverted]
    rfl
  have hsubject : build.subject = iri := h.subject
  rw [hsame, ancestors, List.mem_filter, ← NameSet.mem_def, h.processed, hsubject,
    decide_eq_true_eq, Ontology.metSuperclasses, if_pos hfollow]
  constructor
  · rintro ⟨hother, hne⟩
    exact hother.resolve_right fun hm => hne (mem_processed_start hm)
  · intro hother
    exact ⟨.inl hother, (Ontology.mem_superclasses_iff.1 hother).1⟩

theorem referenced_converted (configuration : Configuration) (inflector : Inflector)
    (build : ClassBuild) : (build.converted configuration inflector).referenced =
      build.referenced := by
  obtain ⟨_, _, _, _, _, hconverted⟩ := exists_converted_eq configuration inflector build
  rw [hconverted]

theorem allOf_converted (configuration : Configuration) (inflector : Inflector)
    (build : ClassBuild) : (build.converted configuration inflector).schema.allOf =
      build.schema.allOf := by
  obtain ⟨_, _, _, _, _, hconverted⟩ := exists_converted_eq configuration inflector build
  rw [hconverted]

theorem isEnum_converted (configuration : Configuration) (inflector : Inflector)
    (build : ClassBuild) : (build.converted configuration inflector).schema.isEnum =
      build.schema.isEnum := by
  obtain ⟨_, _, _, _, _, hconverted⟩ := exists_converted_eq configuration inflector build
  rw [hconverted]
  rfl

/-- A class that is no enumeration refers to superclasses if both settings ask for it. -/
theorem refersToSuperclasses_converted
    (hfollow : configuration.schema.followReferences = true)
    (huse : configuration.schema.useInheritanceReferences = true)
    (h : GrowsFromBase ontology prefixes configuration iri build) :
    (build.converted configuration inflector).refersToSuperclasses configuration.schema = true := by
  have henum : (build.converted configuration inflector).schema.isEnum = false :=
    (isEnum_converted _ _ _).trans h.isEnum
  rw [refersToSuperclasses, henum, hfollow, huse]
  rfl

theorem mem_referenced_converted (hfollow : configuration.schema.followReferences = true)
    (h : GrowsFromBase ontology prefixes configuration iri build) {other : String}
    (hother : other ∈ ontology.superclasses iri) :
    other ∈ (build.converted configuration inflector).referenced := by
  rw [referenced_converted]
  apply h.referenced
  rw [Ontology.metSuperclasses, if_pos hfollow]
  exact .inl hother

theorem exists_collectMarkdown_eq (ontology : Ontology) (roles : Option AnnotationRoles)
    (build : ClassBuild) :
    ∃ markdown, build.collectMarkdown ontology roles = { build with markdown } := by
  unfold collectMarkdown
  split
  · exact ⟨build.markdown, rfl⟩
  · split
    · exact ⟨build.markdown, rfl⟩
    · exact ⟨_, rfl⟩

theorem exists_staged_eq (ontology : Ontology) (prefixes : NameMap String)
    (configuration : Configuration) (inflector : Inflector) (build : ClassBuild) :
    ∃ markdown, build.staged ontology prefixes configuration inflector =
      { (build.converted configuration inflector).linked ontology prefixes configuration.schema
          inflector with markdown } :=
  exists_collectMarkdown_eq ontology configuration.annotations _

theorem schema_staged : (build.staged ontology prefixes configuration inflector).schema =
    ((build.converted configuration inflector).linked ontology prefixes configuration.schema
      inflector).schema := by
  obtain ⟨markdown, hstaged⟩ := exists_staged_eq ontology prefixes configuration inflector build
  rw [hstaged]

variable (ontology prefixes configuration inflector build) in
/-- The last stages keep the properties and all names of properties. -/
theorem frame_staged :
    (build.staged ontology prefixes configuration inflector).functional =
        (build.converted configuration inflector).functional ∧
      (build.staged ontology prefixes configuration inflector).enumerated =
        (build.converted configuration inflector).enumerated ∧
      (build.staged ontology prefixes configuration inflector).required =
        (build.converted configuration inflector).required ∧
      (build.staged ontology prefixes configuration inflector).schema.required =
        (build.converted configuration inflector).schema.required ∧
      (build.staged ontology prefixes configuration inflector).schema.properties =
        (build.converted configuration inflector).schema.properties := by
  obtain ⟨markdown, hstaged⟩ := exists_staged_eq ontology prefixes configuration inflector build
  rw [hstaged]
  exact ⟨rfl, rfl, rfl, rfl, rfl⟩

/-- What stands directly inside a schema after all stages: a property, a reference to a superclass,
or the object that goes with such references. -/
theorem part_of_staged (hvisited : build.Visited ontology prefixes configuration iri)
    {child : SchemaNode}
    (h : (build.staged ontology prefixes configuration inflector).schema.HasPart child) :
    (∃ entry ∈ (build.converted configuration inflector).schema.properties, entry.2 = child) ∨
      (∃ other ∈ ontology.superclasses iri,
        child = .referenceTo (Ontology.qualifiedName prefixes other)) ∨
      child = .ofType .object := by
  obtain ⟨_, _, hshell⟩ := hvisited.shell
  obtain ⟨_, _, _, _, properties, hconverted⟩ := exists_converted_eq configuration inflector build
  rw [schema_staged] at h
  rw [hconverted] at h ⊢
  rcases h with hproperty | hitem | hvariant | hpart
  · exact .inl ⟨_, hproperty, rfl⟩
  · have hnone : build.schema.items = none := congrArg SchemaNode.items hshell
    exact absurd (hitem.symm.trans hnone) (Option.some_ne_none child)
  · have hnone : build.schema.oneOf = [] := congrArg SchemaNode.oneOf hshell
    exact absurd (hnone ▸ hvariant : child ∈ []) List.not_mem_nil
  · have hinherited := mem_of_mem_keptParts hpart
    unfold inheritedParts at hinherited
    split at hinherited
    · rcases mem_inheritanceParts hinherited with ⟨name, hname, rfl⟩ | rfl
      · obtain ⟨other, hother, rfl⟩ := List.mem_map.1 hname
        have hancestor := List.mem_filter.1 (List.mem_filter.1 hother).1
        have hne : other ≠ build.subject := of_decide_eq_true hancestor.2
        have habove : other ∈ ontology.superclasses iri :=
          (hvisited.processed other hancestor.1).resolve_left (hvisited.subject ▸ hne)
        exact .inr (.inl ⟨other, habove, rfl⟩)
      · exact .inr (.inr rfl)
    · exact absurd (hvisited.allOf ▸ hinherited : child ∈ []) List.not_mem_nil

/-- With namespaces the stages of a build that has a type have a result. -/
theorem runStages_eq (hprefixes : ontology.prefixes? = some prefixes)
    (htype : build.schema.type.isSome) :
    build.runStages ontology configuration inflector =
      .ok (build.staged ontology prefixes configuration inflector) := by
  have hconverted : (build.converted configuration inflector).schema.type.isSome := by
    obtain ⟨_, _, _, _, _, hconverted⟩ := exists_converted_eq configuration inflector build
    rw [hconverted]
    exact htype
  have hlinked := linked_eq configuration.schema inflector hprefixes hconverted
  unfold runStages
  rw [← bind_assoc]
  exact congrArg (· >>= fun pruned =>
    (Except.ok (pruned.collectMarkdown ontology configuration.annotations) : Attempt)) hlinked

/-- The builds that successful stages go through behind the conversion of arrays. -/
theorem exists_of_runStages (h : build.runStages ontology configuration inflector = .ok next) :
    ∃ inherited pruned,
      (build.converted configuration inflector).applyInheritance ontology configuration.schema =
        .ok inherited ∧
      inherited.prune ontology inflector = .ok pruned ∧
      next = pruned.collectMarkdown ontology configuration.annotations := by
  unfold runStages at h
  obtain ⟨inherited, hinherited, h⟩ := bind_eq_ok_iff.1 h
  obtain ⟨pruned, hpruned, h⟩ := bind_eq_ok_iff.1 h
  exact ⟨inherited, pruned, hinherited, hpruned, (Except.ok.inj h).symm⟩

theorem propertyNames_prepared (configuration : Configuration) (build : ClassBuild) :
    (build.prepared configuration).schema.propertyNames = build.schema.propertyNames := by
  have hclean : build.cleanup.schema.propertyNames = build.schema.propertyNames := by
    unfold SchemaNode.propertyNames cleanup
    rw [Entries.names_mapValues]
  unfold prepared applyRequiredness
  dsimp only
  split
  · exact hclean
  · split
    · exact SchemaNode.propertyNames_generateRequired.trans hclean
    · exact hclean

theorem ordered_prepared (configuration : Configuration)
    (hordered : Entries.Ordered build.schema.properties) :
    Entries.Ordered (build.prepared configuration).schema.properties := by
  have hnames := propertyNames_prepared configuration build
  unfold SchemaNode.propertyNames at hnames
  rw [Entries.ordered_iff_names] at hordered ⊢
  rwa [hnames]

theorem ordered_converted (hordered : Entries.Ordered build.schema.properties) :
    Entries.Ordered (build.converted configuration inflector).schema.properties :=
  ordered_convertArrays (ordered_prepared configuration hordered)

theorem ordered_staged (hordered : Entries.Ordered build.schema.properties) :
    Entries.Ordered (build.staged ontology prefixes configuration inflector).schema.properties := by
  rw [schema_staged]
  exact ordered_converted hordered

theorem mem_propertyNames_converted_iff (hfix : configuration.schema.fixPropertyNames = false)
    {name : String} :
    name ∈ (build.converted configuration inflector).schema.propertyNames ↔
      name ∈ build.schema.propertyNames := by
  rw [← propertyNames_prepared configuration build]
  exact mem_propertyNames_convertArrays_iff hfix

/-- The stages keep the number of properties. -/
theorem length_staged (hordered : Entries.Ordered build.schema.properties) :
    (build.staged ontology prefixes configuration inflector).schema.propertyNames.length =
      build.schema.propertyNames.length := by
  have hnodup := Entries.nodup_names (ordered_prepared configuration hordered)
  have hconverted : (build.converted configuration inflector).schema.properties.length =
      (build.prepared configuration).schema.properties.length := length_convertArrays hnodup
  have hprepared := congrArg List.length (propertyNames_prepared configuration build)
  rw [← hprepared, schema_staged]
  unfold SchemaNode.propertyNames Entries.names
  rw [List.length_map, List.length_map, ← hconverted]
  rfl

/-- What settled shapes have and setting nullability keeps holds of the prepared properties. -/
theorem prepared_induction {motive : SchemaNode → Prop}
    (settled : ∀ entry ∈ build.schema.properties, motive entry.2.settle)
    (nullable : ∀ node nullable, motive node → motive { node with nullable }) :
    ∀ entry ∈ (build.prepared configuration).schema.properties, motive entry.2 := by
  have hclean : ∀ entry ∈ build.cleanup.schema.properties, motive entry.2 := by
    intro entry hm
    obtain ⟨old, hold, rfl⟩ := List.mem_map.1 hm
    exact settled old hold
  unfold prepared applyRequiredness
  dsimp only
  split
  · exact hclean
  · split
    · intro entry hm
      obtain ⟨old, hold, rfl⟩ := List.mem_map.1 hm
      exact nullable _ _ (hclean old hold)
    · exact hclean

/-- What settled shapes have and setting nullability and collapsing keep holds of the converted
properties. -/
theorem converted_induction {motive : SchemaNode → Prop}
    (hordered : Entries.Ordered build.schema.properties)
    (settled : ∀ entry ∈ build.schema.properties, motive entry.2.settle)
    (nullable : ∀ node nullable, motive node → motive { node with nullable })
    (collapsed : ∀ node, motive node → motive node.collapsed) :
    ∀ entry ∈ (build.converted configuration inflector).schema.properties, motive entry.2 := by
  have hprepared : ∀ entry ∈ (build.prepared configuration).schema.properties, motive entry.2 :=
    prepared_induction settled nullable
  have hnodup := Entries.nodup_names (ordered_prepared configuration hordered)
  unfold converted
  cases harrays : configuration.schema.alwaysGenerateArrays with
  | true => rwa [convertArrays_of_always harrays]
  | false =>
    rw [convertArrays_eq harrays]
    intro entry hm
    obtain ⟨conversion, hc, rfl⟩ := (mem_convertedProperties_iff hnodup).1 hm
    have hnode := hprepared _ (mem_conversionsFrom hc).1
    unfold Conversion.result
    dsimp only
    split
    · exact collapsed _ hnode
    · exact hnode

end ClassBuild

end OntoSchema
