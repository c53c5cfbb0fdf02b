import OntoSchema.Proofs.ConvertedProperties
import OntoSchema.Proofs.Exclusive
import OntoSchema.Proofs.Steady

/-!
# Noted names are names of properties

The sets of property names in a build, and the required names of its schema, hold names of
properties that the schema has. A visit establishes this, since every name it notes is that of a
property it brings, and each further step keeps it (`Tracks.take`), also where the conversion of
arrays renames properties. So it holds after a visit and between all stages behind it
(`namesPresent_of_visit`). Left out are the operations by which a caller notes any name, or turns
any schema into a list of values.
-/

namespace OntoSchema

/-- Whether a step finds what it does by itself: it is given neither values nor names to note. -/
def Step.IsDerived : Step → Prop
  | .setEnumValues _ | .add _ _ => False
  | _ => True

/-- The stages one by one. -/
def Step.eachStage : List Step :=
  [.cleanup, .requiredness, .arrays, .inheritance, .prune, .markdown]

theorem Step.isDerived_of_mem_eachStage : ∀ step ∈ eachStage, step.IsDerived := by
  simp [eachStage, IsDerived]

theorem Step.IsDerived.leavesRequired {step : Step} (h : step.IsDerived) :
    step.LeavesRequired := by
  cases step with
  | add => exact h.elim
  | _ => trivial

/-- Adding the catalog comes to inserting some entries. -/
theorem Catalog.addTo_induction {motive : List (String × SchemaNode) → Prop}
    {properties : List (String × SchemaNode)} (h : motive properties)
    (hinsert : ∀ name node found, motive found → motive (Entries.insert name node found)) :
    motive (addTo properties) := by
  refine List.foldlRecOn entries _ h fun found hfound entry _ => ?_
  split
  · exact hfound
  · exact hinsert _ _ _ hfound

theorem Catalog.mem_names_addTo {name : String} {properties : List (String × SchemaNode)}
    (h : name ∈ Entries.names properties) : name ∈ Entries.names (addTo properties) :=
  addTo_induction (motive := fun found => name ∈ Entries.names found) h
    fun _ _ _ hfound => Entries.mem_names_insert.2 (.inr hfound)

theorem Catalog.ordered_addTo {properties : List (String × SchemaNode)}
    (h : Entries.Ordered properties) : Entries.Ordered (addTo properties) :=
  addTo_induction h fun name node _ hfound => Entries.ordered_insert name node hfound

namespace ClassBuild

variable {ontology : Ontology} {prefixes : NameMap String} {configuration : Configuration}
  {options : SchemaOptions} {inflector : Inflector} {iri : String} {schema : SchemaNode}
  {build middle next : ClassBuild}

/-- The sets of property names, and the required names, hold names of properties. -/
structure NamesPresent (build : ClassBuild) : Prop extends build.NamesKnown where
  /-- Also the names that were required as of the last stage. -/
  noted : ∀ name ∈ build.required, name ∈ build.schema.propertyNames

/-- A build goes on to another one: noted names stay names of properties. -/
structure KeepsNames (build next : ClassBuild) : Prop where
  subject : next.subject = build.subject
  isEnum : next.schema.isEnum = build.schema.isEnum
  present : build.NamesPresent → next.NamesPresent

theorem KeepsNames.refl (build : ClassBuild) : build.KeepsNames build := ⟨rfl, rfl, id⟩

theorem KeepsNames.trans (h₁ : build.KeepsNames middle) (h₂ : middle.KeepsNames next) :
    build.KeepsNames next :=
  ⟨h₂.subject.trans h₁.subject, h₂.isEnum.trans h₁.isEnum, h₂.present ∘ h₁.present⟩

/-- A change of the schema that gives up no property and requires no name without one. -/
theorem keepsNames_of_schema {referenced : NameSet} {markdown : MarkdownTables}
    (henum : schema.isEnum = build.schema.isEnum)
    (hnames : ∀ name ∈ build.schema.propertyNames, name ∈ schema.propertyNames)
    (hordered : Entries.Ordered build.schema.properties → Entries.Ordered schema.properties)
    (hrequired : ∀ name ∈ schema.required,
      name ∈ build.schema.required ∨ name ∈ schema.propertyNames) :
    build.KeepsNames { build with referenced, markdown, schema } where
  subject := rfl
  isEnum := henum
  present h := {
    ordered := hordered h.ordered
    functional := fun name hm => hnames name (h.functional name hm)
    enumerated := fun name hm => hnames name (h.enumerated name hm)
    mandatory := fun name hm => hnames name (h.mandatory name hm)
    required := fun name hm => (hrequired name hm).elim (hnames name ∘ h.required name) id
    noted := fun name hm => hnames name (h.noted name hm) }

/-- Other properties and required names, where no property is given up. -/
theorem keepsNames_withProperties {properties : List (String × SchemaNode)} {required : NameSet}
    (hnames : ∀ name ∈ build.schema.propertyNames, name ∈ Entries.names properties)
    (hordered : Entries.Ordered build.schema.properties → Entries.Ordered properties)
    (hrequired : ∀ name ∈ required,
      name ∈ build.schema.required ∨ name ∈ Entries.names properties) :
    build.KeepsNames { build with schema := { build.schema with properties, required } } :=
  keepsNames_of_schema rfl hnames hordered hrequired

theorem keepsNames_syncRequired (build : ClassBuild) : build.KeepsNames build.syncRequired where
  subject := rfl
  isEnum := rfl
  present h := { h with noted := h.required }

theorem keepsNames_generateRequired (build : ClassBuild) :
    build.KeepsNames build.generateRequired := by
  refine keepsNames_withProperties (fun name hm => ?_) (Entries.ordered_mapValues _)
    fun name hm => .inr ?_
  · rwa [Entries.names_mapValues]
  · obtain ⟨_, hproperty, _⟩ := SchemaNode.mem_required_generateRequired.1 hm
    rw [Entries.names_mapValues]
    exact Entries.mem_names_of_mem hproperty

theorem keepsNames_modifyProperty (name : String) (change : SchemaNode → SchemaNode)
    (build : ClassBuild) :
    build.KeepsNames (build.withSchema (build.schema.modifyProperty name change)) := by
  refine keepsNames_withProperties (fun other hm => ?_) (Entries.ordered_modify _ _) fun _ => .inl
  rwa [Entries.names_modify]

theorem keepsNames_insertProperty? {name : String} {property : SchemaNode}
    (h : build.schema.insertProperty? name property = some schema) :
    build.KeepsNames (build.withSchema schema) := by
  unfold SchemaNode.insertProperty? at h
  split at h
  · cases h
  · obtain rfl := Option.some.inj h
    exact keepsNames_withProperties (fun _ hm => Entries.mem_names_insert.2 (.inr hm))
      (Entries.ordered_insert _ _) fun _ => .inl

theorem keepsNames_mergeDefaults (build : ClassBuild) :
    build.KeepsNames (build.withSchema build.schema.mergeDefaults) := by
  unfold SchemaNode.mergeDefaults
  split
  · exact .refl build
  · exact keepsNames_withProperties (fun _ => Catalog.mem_names_addTo) Catalog.ordered_addTo
      fun _ => .inl

theorem keepsNames_cleanup (build : ClassBuild) : build.KeepsNames build.cleanup := by
  refine keepsNames_withProperties (fun name hm => ?_) (Entries.ordered_mapValues _) fun _ => .inl
  rwa [Entries.names_mapValues]

theorem keepsNames_applyRequiredness (options : SchemaOptions) (build : ClassBuild) :
    build.KeepsNames (build.applyRequiredness options) := by
  unfold applyRequiredness
  refine KeepsNames.trans ?_ (keepsNames_syncRequired _)
  split
  · exact keepsNames_of_schema rfl (fun _ => id) id fun _ hm =>
      absurd hm (NameSet.not_mem_empty _)
  · split
    · exact keepsNames_generateRequired build
    · exact .refl build

/-- The conversion moves every noted name with its property. -/
theorem keepsNames_convertArrays (options : SchemaOptions) (inflector : Inflector)
    (build : ClassBuild) : build.KeepsNames (build.convertArrays options inflector) := by
  cases harrays : options.alwaysGenerateArrays with
  | true =>
    rw [convertArrays_of_always harrays]
    exact .refl build
  | false =>
    rw [convertArrays_eq harrays]
    refine ⟨rfl, rfl, fun h => ?_⟩
    exact {
      ordered := Entries.ordered_ofList _
      functional := moved_subset h.nodup h.functional
      enumerated := moved_subset h.nodup h.enumerated
      mandatory := moved_subset h.nodup (mandatorySources_subset h.mandatory)
      required := moved_subset h.nodup h.required
      noted := moved_subset h.nodup h.required }

theorem keepsNames_applyInheritance
    (h : build.applyInheritance ontology options = .ok next) : build.KeepsNames next := by
  obtain ⟨_, _, rfl⟩ := exists_eq_of_applyInheritance h
  exact keepsNames_of_schema rfl (fun _ => id) id fun _ => .inl

theorem keepsNames_prune (h : build.prune ontology inflector = .ok next) :
    build.KeepsNames next := by
  obtain ⟨_, rfl⟩ := exists_eq_of_prune h
  exact keepsNames_of_schema rfl (fun _ => id) id fun _ => .inl

theorem keepsNames_collectMarkdown (ontology : Ontology) (roles : Option AnnotationRoles)
    (build : ClassBuild) : build.KeepsNames (build.collectMarkdown ontology roles) := by
  obtain ⟨_, hmarkdown⟩ := exists_collectMarkdown_eq ontology roles build
  rw [hmarkdown]
  exact keepsNames_of_schema rfl (fun _ => id) id fun _ => .inl

theorem keepsNames_runStages
    (h : build.runStages ontology configuration inflector = .ok next) : build.KeepsNames next := by
  obtain ⟨inherited, pruned, hinherited, hpruned, rfl⟩ := exists_of_runStages h
  have hprepared : build.KeepsNames (build.prepared configuration) :=
    (keepsNames_cleanup build).trans (keepsNames_applyRequiredness _ _)
  exact hprepared
    |>.trans (keepsNames_convertArrays configuration.schema inflector _)
    |>.trans (keepsNames_applyInheritance hinherited)
    |>.trans (keepsNames_prune hpruned)
    |>.trans (keepsNames_collectMarkdown ontology configuration.annotations pruned)

/-- What grows notes only names that it brings as properties. -/
theorem keepsNames_of_grows {brought : String → Prop} {ancestors : List String}
    (h : Grows ontology configuration brought ancestors build next) : build.KeepsNames next where
  subject := h.subject
  isEnum := h.isEnum
  present hpresent := by
    have hold : ∀ name ∈ build.schema.propertyNames, name ∈ next.schema.propertyNames :=
      fun name hm => (h.names name).2 (.inr hm)
    have hrequired : next.schema.required = build.schema.required :=
      congrArg (fun node => node.required) h.shell
    exact {
      ordered := h.ordered hpresent.ordered
      functional := fun name hm =>
        (h.names name).2 ((h.functional name hm).imp id (hpresent.functional name))
      enumerated := fun name hm =>
        (h.names name).2 ((h.enumerated name hm).imp id (hpresent.enumerated name))
      mandatory := fun name hm => hold name (hpresent.mandatory name (h.mandatory ▸ hm))
      required := fun name hm => hold name (hpresent.required name (hrequired ▸ hm))
      noted := fun name hm => hold name (hpresent.noted name (h.required ▸ hm)) }

/-- The invariant of a run: names are present, and the schema lists values just where the class
equals an enumeration. -/
structure Tracks (ontology : Ontology) (build : ClassBuild) : Prop where
  present : build.NamesPresent
  exclusive : build.schema.Exclusive
  listed : build.schema.isEnum = (ontology.enumeration? build.subject).isSome

/-- A list of values that is visited again had no properties, so nothing was noted. -/
theorem Tracks.keepsNames_visit (h : build.Tracks ontology)
    (hprefixes : ontology.prefixes? = some prefixes)
    (hnext : build.visit ontology configuration = .ok next) : build.KeepsNames next := by
  have hlisted := h.listed
  cases hclass : ontology.enumeration? build.subject with
  | none =>
    rw [hclass] at hlisted
    obtain ⟨visited, hvisit, hgrows⟩ := exists_visit hprefixes hclass hlisted
    obtain rfl := Except.ok.inj (hvisit.symm.trans hnext)
    exact keepsNames_of_grows hgrows
  | some values =>
    rw [hclass] at hlisted
    rw [visit_of_enumeration hclass] at hnext
    obtain rfl := Except.ok.inj hnext
    obtain ⟨hproperties, _⟩ := h.exclusive hlisted
    refine keepsNames_of_schema hlisted.symm (fun name hm => ?_) (fun _ => Entries.ordered_nil)
      fun name hm => absurd hm (NameSet.not_mem_empty name)
    unfold SchemaNode.propertyNames at hm
    rwa [hproperties] at hm

/-- One step keeps the noted names, whichever it is. -/
theorem Tracks.keepsNames_take {step : Step} (h : build.Tracks ontology)
    (hprefixes : ontology.prefixes? = some prefixes) (hstep : step.IsDerived)
    (hnext : build.take ontology configuration inflector step = .ok next) :
    build.KeepsNames next := by
  cases step with
  | visit => exact h.keepsNames_visit hprefixes hnext
  | inheritance => exact keepsNames_applyInheritance hnext
  | prune => exact keepsNames_prune hnext
  | stages => exact keepsNames_runStages hnext
  | setEnumValues values => exact hstep.elim
  | add collection name => exact hstep.elim
  | cleanup =>
    obtain rfl := Except.ok.inj hnext
    exact keepsNames_cleanup build
  | requiredness =>
    obtain rfl := Except.ok.inj hnext
    exact keepsNames_applyRequiredness _ build
  | arrays =>
    obtain rfl := Except.ok.inj hnext
    exact keepsNames_convertArrays _ inflector build
  | markdown =>
    obtain rfl := Except.ok.inj hnext
    exact keepsNames_collectMarkdown ontology _ build
  | syncRequired =>
    obtain rfl := Except.ok.inj hnext
    exact keepsNames_syncRequired build
  | mergeDefaults =>
    obtain rfl := Except.ok.inj hnext
    exact keepsNames_mergeDefaults build
  | generateRequired =>
    obtain rfl := Except.ok.inj hnext
    exact keepsNames_generateRequired build
  | insertProperty name property =>
    obtain rfl := Except.ok.inj hnext
    cases hinserted : build.schema.insertProperty? name property with
    | none => exact .refl build
    | some schema => exact keepsNames_insertProperty? hinserted
  | annotateProperty name iri =>
    obtain rfl := Except.ok.inj hnext
    exact keepsNames_modifyProperty name _ build
  | annotateFromAxiom name statement =>
    obtain rfl := Except.ok.inj hnext
    exact keepsNames_modifyProperty name _ build

theorem Tracks.take {step : Step} (h : build.Tracks ontology)
    (hprefixes : ontology.prefixes? = some prefixes) (hstep : step.IsDerived)
    (hnext : build.take ontology configuration inflector step = .ok next) :
    next.Tracks ontology := by
  have hkeeps := h.keepsNames_take hprefixes hstep hnext
  have hstays := Action.staysExclusive_take ontology configuration inflector build
    hstep.leavesRequired
  rw [hnext] at hstays
  exact {
    present := hkeeps.present h.present
    exclusive := hstays.exclusive h.exclusive
    listed := by rw [hkeeps.isEnum, hkeeps.subject, h.listed] }

/-- Every build of a run keeps the invariant, by induction on the steps. -/
theorem Tracks.of_mem_run {steps : List Step} (h : build.Tracks ontology)
    (hprefixes : ontology.prefixes? = some prefixes) (hsteps : ∀ step ∈ steps, step.IsDerived)
    (hmem : next ∈ (build.run ontology configuration inflector steps).1) :
    next.Tracks ontology := by
  induction steps generalizing build with
  | nil =>
    obtain rfl := List.mem_singleton.1 hmem
    exact h
  | cons step rest ih =>
    unfold run at hmem
    split at hmem
    · obtain rfl := List.mem_singleton.1 hmem
      exact h
    · rename_i middle hmiddle
      rcases List.mem_cons.1 hmem with rfl | hmem
      · exact h
      · exact ih (h.take hprefixes (hsteps step List.mem_cons_self) hmiddle)
          (fun other hm => hsteps other (List.mem_cons_of_mem _ hm)) hmem

theorem Visited.tracks (h : build.Visited ontology prefixes configuration iri)
    (hnoted : build.required = ∅)
    (hlisted : build.schema.isEnum = (ontology.enumeration? iri).isSome) :
    build.Tracks ontology where
  present := {
    ordered := h.ordered
    functional := h.functional
    enumerated := h.enumerated
    mandatory := fun name hm => absurd (h.mandatory ▸ hm) (NameSet.not_mem_empty name)
    required := fun name hm => absurd (h.required ▸ hm) (NameSet.not_mem_empty name)
    noted := fun name hm => absurd (hnoted ▸ hm) (NameSet.not_mem_empty name) }
  exclusive henum := ⟨h.bare henum, h.required⟩
  listed := by rw [hlisted, h.subject]

/-- The first visit establishes the invariant. It may give up default properties for a list of
values, as nothing is noted yet. -/
theorem tracks_of_visit (hprefixes : ontology.prefixes? = some prefixes)
    (hvisit : (ontology.firstBuild prefixes configuration.schema iri).visit ontology
      configuration = .ok next) : next.Tracks ontology := by
  cases hclass : ontology.enumeration? iri with
  | none =>
    obtain ⟨visited, hvisited, hgrows⟩ := grows_of_visit configuration hprefixes hclass
    obtain rfl := Except.ok.inj (hvisited.symm.trans hvisit)
    exact (hgrows.visited hprefixes).tracks hgrows.required (by rw [hgrows.isEnum, hclass]; rfl)
  | some values =>
    rw [visit_of_enumeration hclass] at hvisit
    obtain rfl := Except.ok.inj hvisit
    exact (visited_enumerate values).tracks rfl (by rw [hclass]; rfl)

/-- Taken one by one, the stages lead where they lead together. -/
theorem run_eachStage (h : build.runStages ontology configuration inflector = .ok next) :
    (build.run ontology configuration inflector Step.eachStage).2 = none ∧
      (build.run ontology configuration inflector Step.eachStage).1.getLast? = some next := by
  obtain ⟨inherited, pruned, hinherited, hpruned, rfl⟩ := exists_of_runStages h
  unfold converted prepared at hinherited
  simp only [Step.eachStage, run, ClassBuild.take, hinherited, hpruned, List.getLast?_cons_cons,
    List.getLast?_singleton, and_self]

/-- From the base schema of a class on, noted names are names of properties: after the visit, after
each stage behind it, and after any other steps that take their names from the ontology. -/
theorem namesPresent_of_visit {visited : ClassBuild}
    (hbase : ontology.baseSchema configuration.schema iri = .ok schema)
    (hvisit : (start iri schema).visit ontology configuration = .ok visited)
    (inflector : Inflector) :
    visited.NamesPresent ∧
      (∃ built, visited.runStages ontology configuration inflector = .ok built ∧
        (visited.run ontology configuration inflector Step.eachStage).2 = none ∧
        (visited.run ontology configuration inflector Step.eachStage).1.getLast? = some built) ∧
      (∀ build ∈ (visited.run ontology configuration inflector Step.eachStage).1,
        build.NamesPresent) ∧
      ∀ steps : List Step, (∀ step ∈ steps, step.IsDerived) →
        ∀ build ∈ (visited.run ontology configuration inflector steps).1, build.NamesPresent := by
  obtain ⟨prefixes, hprefixes⟩ := Ontology.prefixes?_of_baseSchema hbase
  obtain rfl := Except.ok.inj ((Ontology.baseSchema_eq hprefixes).symm.trans hbase)
  have htracks : visited.Tracks ontology := tracks_of_visit hprefixes hvisit
  have hsteps : ∀ steps : List Step, (∀ step ∈ steps, step.IsDerived) →
      ∀ build ∈ (visited.run ontology configuration inflector steps).1, build.NamesPresent :=
    fun _ hderived _ hmem => (htracks.of_mem_run hprefixes hderived hmem).present
  obtain ⟨reached, hreached, hvisited⟩ := exists_visited hprefixes configuration iri
  obtain rfl : visited = reached := Except.ok.inj (hvisit.symm.trans hreached)
  have hstages : visited.runStages ontology configuration inflector =
      .ok (visited.staged ontology prefixes configuration inflector) :=
    runStages_eq hprefixes hvisited.type
  exact ⟨htracks.present, ⟨_, hstages, run_eachStage hstages⟩,
    hsteps _ Step.isDerived_of_mem_eachStage, hsteps⟩

/-- Clubs have one chair, and a title that is declared to be the only one. -/
def clubs : Ontology where
  iri := "e"
  prefixes := some (.ofList [("", "e#")])
  classes := [{ iri := "e#Club" }, { iri := "e#Person" }]
  dataProperties := [{ iri := "e#titles", domains := ["e#Club"], functional := true }]
  subclassAxioms := [
    { sub := "e#Club", sup := .cardinality .object .exact "e#chairs" 1 (some (.named "e#Person")) }]

/-- Properties of one value get singular names, and cardinalities require them. -/
def singularizing : Configuration where
  schema := { alwaysGenerateArrays := false, fixPropertyNames := true,
              requiredFromCardinality := true, defaultProperties := false }

/-- All names follow the chair and the title to their singulars. -/
theorem namesPresent_of_visit_clubs :
    ∃ schema visited built,
      clubs.baseSchema singularizing.schema "e#Club" = .ok schema ∧
      (start "e#Club" schema).visit clubs singularizing = .ok visited ∧
      visited.runStages clubs singularizing .english = .ok built ∧
      visited.functional.toList = ["chairs", "titles"] ∧
      built.functional.toList = ["chair", "title"] ∧ built.mandatory.toList = ["chair"] ∧
      built.schema.required.toList = ["chair", "title"] ∧ built.NamesPresent := by
  obtain ⟨schema, visited, built, hbase, hvisit, hstages, hbefore, hfunctional, hmandatory,
      hrequired⟩ :
      ∃ schema visited built,
        clubs.baseSchema singularizing.schema "e#Club" = .ok schema ∧
        (start "e#Club" schema).visit clubs singularizing = .ok visited ∧
        visited.runStages clubs singularizing .english = .ok built ∧
        visited.functional.toList = ["chairs", "titles"] ∧
        built.functional.toList = ["chair", "title"] ∧ built.mandatory.toList = ["chair"] ∧
        built.schema.required.toList = ["chair", "title"] :=
    ⟨_, _, _, rfl, rfl, rfl, by decide +kernel, by decide +kernel, by decide +kernel,
      by decide +kernel⟩
  obtain ⟨_, ⟨reached, hreached, _, hlast⟩, heach, _⟩ :=
    namesPresent_of_visit hbase hvisit .english
  obtain rfl : built = reached := Except.ok.inj (hstages.symm.trans hreached)
  have hpresent : built.NamesPresent := heach built (List.mem_of_getLast? hlast)
  exact ⟨schema, visited, built, hbase, hvisit, hstages, hbefore, hfunctional, hmandatory,
    hrequired, hpresent⟩

end ClassBuild

end OntoSchema
