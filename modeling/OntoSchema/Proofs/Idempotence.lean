import OntoSchema.Proofs.Inflection
import OntoSchema.Proofs.Steady

/-!
# Running the stages twice

A second run of the stages succeeds, and finds a steady build. It still changes the schema in two
cases. A property that was refused its plural, because another property had that name, gets it in
the second run if the other one has given the name up. And a reference to a superclass that was
pruned because a class of the same schema name bears nothing comes back in the second run, where
that class is referred to no more. `runStages_again` says that there are no other cases.
-/

namespace OntoSchema

namespace ClassBuild

variable {options : SchemaOptions} {inflector : Inflector} {build : ClassBuild}
  {conversion : Conversion}

/-- A property that stayed as it was asks again for the same name. -/
theorem wantedName_result_of_kept (h : build.Steady options)
    (harrays : options.alwaysGenerateArrays = false)
    (hmem : conversion ∈ build.conversions options inflector)
    (hcollapses : conversion.collapses = false) (htarget : conversion.target = conversion.source) :
    (build.convertArrays options inflector).wantedName options inflector conversion.target
        conversion.result = conversion.wanted := by
  have hrecords := records_of_mem hmem
  rw [hrecords.wanted]
  unfold wantedName
  rw [collapses_result h harrays hmem, ← hrecords.collapses, hcollapses,
    result_of_not_collapses hcollapses, htarget]

/-- A property that collapsed or got a new name is content with it. -/
theorem wantedName_result_of_changed (hplural : inflector.PluralizesOnce) (h : build.Steady options)
    (harrays : options.alwaysGenerateArrays = false)
    (hmem : conversion ∈ build.conversions options inflector)
    (hchanged : conversion.collapses = true ∨ conversion.target ≠ conversion.source) :
    (build.convertArrays options inflector).wantedName options inflector conversion.target
        conversion.result = conversion.target := by
  have hrecords := records_of_mem hmem
  have hcontent : conversion.result.isArray = true →
      inflector.pluralize conversion.target = conversion.target := by
    intro harray
    cases hcollapses : conversion.collapses with
    | true =>
      rw [isArray_result_of_collapses h hmem hcollapses] at harray
      cases harray
    | false =>
      rw [hcollapses] at hchanged
      have hne := hchanged.resolve_left Bool.false_ne_true
      have hrenamed : conversion.target = conversion.wanted :=
        (hrecords.target.resolve_left hne).1
      rw [result_of_not_collapses hcollapses] at harray
      have hwanted := hrecords.wanted
      unfold wantedName at hwanted
      rw [← hrecords.collapses, hcollapses, harray] at hwanted
      simp only [Bool.false_eq_true, if_false, if_true] at hwanted
      split at hwanted
      · rw [hrenamed, hwanted, hplural]
      · exact absurd (hrenamed.trans hwanted) hne
  unfold wantedName
  rw [collapses_result h harrays hmem]
  simp only [Bool.false_eq_true, if_false]
  split
  · split
    · exact hcontent ‹_›
    · rfl
  · rfl

/-- Every conversion of a second run concerns the outcome of one of the first run. -/
theorem exists_origin (h : build.Steady options) (harrays : options.alwaysGenerateArrays = false)
    (hmem : conversion ∈
      (build.convertArrays options inflector).conversions options inflector) :
    ∃ origin ∈ build.conversions options inflector,
      origin.target = conversion.source ∧ origin.result = conversion.node := by
  have hentry := (mem_conversionsFrom hmem).1
  rw [convertArrays_eq harrays] at hentry
  obtain ⟨origin, ho, heq⟩ := (mem_convertedProperties_iff h.nodup).1 hentry
  exact ⟨origin, ho, congrArg Prod.fst heq, congrArg Prod.snd heq⟩

/-- No property that stayed an array was refused a name that is free after the conversion. -/
def RefusalsLast (options : SchemaOptions) (inflector : Inflector) (build : ClassBuild) : Prop :=
  options.alwaysGenerateArrays = false →
    ∀ conversion ∈ build.conversions options inflector, conversion.isRefused = true →
      conversion.collapses = false →
        conversion.wanted ∈ (build.convertArrays options inflector).schema.propertyNames

/-- If all refusals last, a second conversion has nothing to do. -/
theorem conversions_again (hplural : inflector.PluralizesOnce) (h : build.Steady options)
    (harrays : options.alwaysGenerateArrays = false)
    (hlast : RefusalsLast options inflector build)
    (hmem : conversion ∈
      (build.convertArrays options inflector).conversions options inflector) :
    conversion.target = conversion.source ∧ conversion.collapses = false := by
  obtain ⟨origin, ho, hsource, hnode⟩ := exists_origin h harrays hmem
  have hrecords := records_of_mem hmem
  refine ⟨?_, ?_⟩
  · rcases hrecords.target with htarget | ⟨htarget, hnew⟩
    · exact htarget
    · have hwanted := hrecords.wanted
      rw [← hsource, ← hnode] at hwanted
      by_cases hkept : origin.collapses = false ∧ origin.target = origin.source
      -- What the first conversion left alone wants the same name again; it has it or was refused.
      · rw [wantedName_result_of_kept h harrays ho hkept.1 hkept.2] at hwanted
        by_cases hrefused : origin.isRefused = true
        · have hname := hlast harrays origin ho hrefused hkept.1
          rw [htarget, hwanted] at hnew
          exact absurd hname hnew
        · have hsame : origin.target = origin.wanted := by
            simpa [Conversion.isRefused] using hrefused
          rw [htarget, hwanted, ← hsame, hsource]
      · have hchanged : origin.collapses = true ∨ origin.target ≠ origin.source := by
          by_cases hcollapses : origin.collapses = true
          · exact .inl hcollapses
          · exact .inr fun he => hkept ⟨Bool.not_eq_true _ ▸ hcollapses, he⟩
        rw [wantedName_result_of_changed hplural h harrays ho hchanged] at hwanted
        rw [htarget, hwanted, hsource]
  · rw [hrecords.collapses, ← hsource, ← hnode, collapses_result h harrays ho]

/-- A name that was refused is given in a second conversion, unless it is not free then. -/
theorem refusalsLast_of_again (h : build.Steady options)
    (hsame : ((build.convertArrays options inflector).convertArrays options
        inflector).schema.propertyNames =
      (build.convertArrays options inflector).schema.propertyNames) :
    RefusalsLast options inflector build := by
  intro harrays origin ho hrefused hcollapses
  have hsteady : (build.convertArrays options inflector).Steady options := h.convertArrays
  have hkept : origin.target = origin.source := by
    refine (records_of_mem ho).target.resolve_right fun hgiven => ?_
    simp [Conversion.isRefused, hgiven.1] at hrefused
  obtain ⟨conversion, hm, hsource⟩ := exists_conversion options inflector
    (target_mem_propertyNames harrays ho)
  have hrecords := records_of_mem hm
  have hwanted : conversion.wanted = origin.wanted := by
    obtain ⟨other, hother, htarget, hnode⟩ := exists_origin h harrays hm
    obtain rfl := List.inj_on_of_nodup_map (nodup_targets h.nodup) hother ho
      (htarget.trans hsource)
    rw [hrecords.wanted, ← htarget, ← hnode]
    exact wantedName_result_of_kept h harrays ho hcollapses hkept
  rw [← hsame, ← hwanted]
  by_cases hgiven : conversion.target = conversion.wanted
  · rw [← hgiven]
    exact target_mem_propertyNames harrays hm
  · rcases hrecords.refused hgiven with hname | ⟨other, hother, htarget⟩
    · rwa [hsame]
    · rw [← htarget]
      exact target_mem_propertyNames harrays hother

variable {ontology : Ontology} {prefixes : NameMap String} {configuration : Configuration}
  {visited : ClassBuild}

theorem steady_converted (configuration : Configuration) (inflector : Inflector)
    (h : visited.Unstaged) :
    (visited.converted configuration inflector).Steady configuration.schema :=
  (h.steady_prepared configuration).convertArrays

theorem steady_staged (h : visited.Unstaged) :
    (visited.staged ontology prefixes configuration inflector).Steady configuration.schema := by
  have hconverted := steady_converted configuration inflector h
  obtain ⟨markdown, hstaged⟩ := exists_staged_eq ontology prefixes configuration inflector visited
  rw [hstaged]
  exact {
    ordered := hconverted.ordered
    functional := hconverted.functional
    enumerated := hconverted.enumerated
    mandatory := hconverted.mandatory
    required := hconverted.required
    bare := hconverted.bare
    synced := hconverted.synced
    values := hconverted.values
    settled := hconverted.settled
    nullable := hconverted.nullable
    demanded := hconverted.demanded }

/-- A second run converts what the first one has left. -/
theorem converted_staged (h : visited.Unstaged) :
    (visited.staged ontology prefixes configuration inflector).converted configuration inflector =
      (visited.staged ontology prefixes configuration inflector).convertArrays configuration.schema
        inflector := by
  unfold converted
  rw [(steady_staged h).prepared_eq]

theorem propertyNames_staged_again (h : visited.Unstaged) :
    ((visited.staged ontology prefixes configuration inflector).staged ontology prefixes
        configuration inflector).schema.propertyNames =
      ((visited.converted configuration inflector).convertArrays configuration.schema
        inflector).schema.propertyNames := by
  rw [schema_staged, converted_staged h]
  obtain ⟨markdown, hstaged⟩ := exists_staged_eq ontology prefixes configuration inflector visited
  have hproperties : ((visited.staged ontology prefixes configuration inflector).convertArrays
      configuration.schema inflector).schema.properties =
      ((visited.converted configuration inflector).convertArrays configuration.schema
        inflector).schema.properties := by
    rw [hstaged]
    exact properties_convertArrays_congr rfl rfl rfl
  exact congrArg Entries.names hproperties

/-- If all refusals last, only the references to superclasses may differ after a second run. -/
theorem schema_staged_again (hplural : inflector.PluralizesOnce) (h : visited.Unstaged)
    (hlast : RefusalsLast configuration.schema inflector (visited.prepared configuration)) :
    ((visited.staged ontology prefixes configuration inflector).staged ontology prefixes
        configuration inflector).schema =
      { (visited.staged ontology prefixes configuration inflector).schema with
        allOf := (((visited.converted configuration inflector).linked ontology prefixes
          configuration.schema inflector).linked ontology prefixes configuration.schema
            inflector).schema.allOf } := by
  have hsteady : (visited.staged ontology prefixes configuration inflector).Steady
      configuration.schema := steady_staged h
  obtain ⟨markdown, hstaged⟩ := exists_staged_eq ontology prefixes configuration inflector visited
  have hkept : (visited.staged ontology prefixes configuration inflector).convertArrays
      configuration.schema inflector =
      visited.staged ontology prefixes configuration inflector := by
    cases harrays : configuration.schema.alwaysGenerateArrays with
    | true => rw [convertArrays_of_always harrays]
    | false =>
      have hconversions : (visited.staged ontology prefixes configuration inflector).conversions
          configuration.schema inflector =
          (visited.converted configuration inflector).conversions configuration.schema
            inflector := by
        rw [hstaged]
        exact conversions_congr rfl rfl rfl
      refine convertArrays_of_kept hsteady.ordered hsteady.synced fun conversion hm => ?_
      rw [hconversions] at hm
      exact conversions_again hplural (h.steady_prepared configuration) harrays hlast hm
  rw [schema_staged, converted_staged h, hkept, hstaged]
  rfl

/-- A second run of the stages succeeds. It leaves the schema as it is just when all refusals last
and no reference was pruned for the sake of another class. -/
theorem runStages_again (hprefixes : ontology.prefixes? = some prefixes)
    (hplural : inflector.PluralizesOnce) (h : visited.Unstaged) :
    ∃ again, (visited.staged ontology prefixes configuration inflector).runStages ontology
        configuration inflector = .ok again ∧
      (again.schema = (visited.staged ontology prefixes configuration inflector).schema ↔
        RefusalsLast configuration.schema inflector (visited.prepared configuration) ∧
          (visited.converted configuration inflector).PrunesApart ontology configuration.schema
            inflector) := by
  obtain ⟨markdown, hstaged⟩ := exists_staged_eq ontology prefixes configuration inflector visited
  obtain ⟨_, _, _, _, _, hconverted⟩ := exists_converted_eq configuration inflector visited
  have htype : (visited.staged ontology prefixes configuration inflector).schema.type.isSome := by
    rw [schema_staged, hconverted]
    exact h.type
  have hparts : (visited.converted configuration inflector).schema.allOf = [] :=
    (allOf_converted _ _ _).trans h.allOf
  have hapart := allOf_linked_again configuration.schema inflector hprefixes hparts
  refine ⟨_, runStages_eq hprefixes htype, ?_⟩
  constructor
  · intro hsame
    have hlast : RefusalsLast configuration.schema inflector (visited.prepared configuration) := by
      apply refusalsLast_of_again (h.steady_prepared configuration)
      have hnames := congrArg SchemaNode.propertyNames hsame
      rw [propertyNames_staged_again h, schema_staged] at hnames
      exact hnames
    refine ⟨hlast, hapart.1 ?_⟩
    have hparts := congrArg SchemaNode.allOf hsame
    rw [schema_staged_again hplural h hlast, schema_staged] at hparts
    exact hparts
  · rintro ⟨hlast, hprunes⟩
    rw [schema_staged_again hplural h hlast, hapart.2 hprunes, schema_staged]
    rfl

end ClassBuild

namespace Ontology

variable {ontology : Ontology} {configuration : Configuration} {iri : String}
  {schema : SchemaNode} {visited built : ClassBuild}

/-- Running the stages of a class twice succeeds, and it does the same as running them once just
when no refused name becomes free and no reference is pruned for the sake of another class. -/
theorem runStages_twice (hbase : ontology.baseSchema configuration.schema iri = .ok schema)
    (hvisit : (ClassBuild.start iri schema).visit ontology configuration = .ok visited)
    (hstages : visited.runStages ontology configuration .english = .ok built) :
    ∃ again, built.runStages ontology configuration .english = .ok again ∧
      (again.schema = built.schema ↔
        ClassBuild.RefusalsLast configuration.schema .english (visited.prepared configuration) ∧
          (visited.converted configuration .english).PrunesApart ontology configuration.schema
            .english) := by
  obtain ⟨prefixes, hprefixes⟩ := prefixes?_of_baseSchema hbase
  obtain ⟨visited', hvisit', hvisited⟩ :=
    ClassBuild.exists_visited hprefixes configuration iri
  rw [baseSchema_eq hprefixes] at hbase
  obtain rfl := Except.ok.inj hbase
  obtain rfl : visited' = visited := Except.ok.inj (hvisit'.symm.trans hvisit)
  rw [ClassBuild.runStages_eq hprefixes hvisited.type] at hstages
  obtain rfl := Except.ok.inj hstages
  exact ClassBuild.runStages_again hprefixes Inflector.pluralizesOnce_english hvisited.toUnstaged

/-- Cinemas show any number of values under a name, and one value under the plural of that name. -/
def cinemas : Ontology where
  iri := "e"
  prefixes := some (.ofList [("", "e#")])
  classes := [{ iri := "e#Cinema" }]
  dataProperties := [{ iri := "e#Movie", domains := ["e#Cinema"] },
    { iri := "e#Movies", domains := ["e#Cinema"], functional := true }]

/-- Properties collapse and take the names that go with it. -/
def collapsing : Configuration where
  schema := { alwaysGenerateArrays := false, fixPropertyNames := true, defaultProperties := false }

theorem runStages_twice_cinemas :
    ∃ schema visited built again,
      cinemas.baseSchema collapsing.schema "e#Cinema" = .ok schema ∧
      (ClassBuild.start "e#Cinema" schema).visit cinemas collapsing = .ok visited ∧
      visited.runStages cinemas collapsing .english = .ok built ∧
      built.runStages cinemas collapsing .english = .ok again ∧
      (again.schema = built.schema ↔
        ClassBuild.RefusalsLast collapsing.schema .english (visited.prepared collapsing) ∧
          (visited.converted collapsing .english).PrunesApart cinemas collapsing.schema
            .english) := by
  have hprefixes : cinemas.prefixes? = some (.ofList [("", "e#")]) := rfl
  have hbase : cinemas.baseSchema collapsing.schema "e#Cinema" = .ok _ := baseSchema_eq hprefixes
  obtain ⟨visited, hvisit, hvisited⟩ := ClassBuild.exists_visited hprefixes collapsing "e#Cinema"
  have hstages : visited.runStages cinemas collapsing .english = .ok _ :=
    ClassBuild.runStages_eq hprefixes hvisited.type
  obtain ⟨again, hagain, hsame⟩ := runStages_twice hbase hvisit hstages
  exact ⟨_, visited, _, again, hbase, hvisit, hstages, hagain, hsame⟩

/-- The property of any number of values is refused its plural, and gets it in the second run, when
the other one has become singular. -/
theorem runStages_again_renames_cinemas :
    ∃ schema visited built again,
      cinemas.baseSchema collapsing.schema "e#Cinema" = .ok schema ∧
      (ClassBuild.start "e#Cinema" schema).visit cinemas collapsing = .ok visited ∧
      visited.runStages cinemas collapsing .english = .ok built ∧
      built.runStages cinemas collapsing .english = .ok again ∧ again.schema ≠ built.schema := by
  refine ⟨_, _, _, _, rfl, rfl, rfl, rfl, fun hsame => ?_⟩
  have hnames := congrArg SchemaNode.propertyNames hsame
  revert hnames
  decide +kernel

end Ontology

end OntoSchema
