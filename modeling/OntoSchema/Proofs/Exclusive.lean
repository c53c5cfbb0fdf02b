import OntoSchema.ClassBuild.Step
import OntoSchema.Proofs.Stages

/-!
# Lists of values stay exclusive

A schema that lists its values has neither properties nor required names. Each operation keeps this,
and keeps lists of values, also where it fails and leaves the build it had reached:
`StaysExclusive` relates the schemas before and after. So it holds along every run, in whatever
order the operations come and whatever they are given (`exclusive_of_mem_trace`).
-/

namespace OntoSchema

namespace SchemaNode

/-- A list of values has neither properties nor required names. -/
def Exclusive (node : SchemaNode) : Prop :=
  node.isEnum = true → node.properties = [] ∧ node.required = ∅

/-- A schema may become the other one: lists of values stay, and they stay exclusive. -/
structure StaysExclusive (before after : SchemaNode) : Prop where
  listed : before.isEnum = true → after.isEnum = true
  exclusive : before.Exclusive → after.Exclusive

variable {before middle after node : SchemaNode}

theorem StaysExclusive.refl (node : SchemaNode) : node.StaysExclusive node := ⟨id, id⟩

theorem StaysExclusive.trans (h₁ : before.StaysExclusive middle)
    (h₂ : middle.StaysExclusive after) : before.StaysExclusive after :=
  ⟨h₂.listed ∘ h₁.listed, h₂.exclusive ∘ h₁.exclusive⟩

/-- A schema that lists no values, and goes on to list none. -/
theorem staysExclusive_of_open (hbefore : before.isEnum = false) (hafter : after.isEnum = false) :
    before.StaysExclusive after where
  listed h := absurd h (Bool.not_eq_true _ ▸ hbefore)
  exclusive _ h := absurd h (Bool.not_eq_true _ ▸ hafter)

/-- A bare schema that stays bare. -/
theorem staysExclusive_of_bare (henum : after.isEnum = before.isEnum)
    (hbare : before.properties = [] → before.required = ∅ →
      after.properties = [] ∧ after.required = ∅) : before.StaysExclusive after where
  listed h := henum.trans h
  exclusive hexclusive h := by
    obtain ⟨hproperties, hrequired⟩ := hexclusive (henum.symm.trans h)
    exact hbare hproperties hrequired

theorem staysExclusive_setEnumValues (values : List Json) (node : SchemaNode) :
    node.StaysExclusive (node.setEnumValues values) :=
  ⟨fun _ => rfl, fun _ _ => ⟨rfl, rfl⟩⟩

theorem staysExclusive_of_insertProperty? {name : String} {property : SchemaNode}
    (h : node.insertProperty? name property = some after) : node.StaysExclusive after := by
  unfold insertProperty? at h
  split at h
  · cases h
  · rename_i hopen
    obtain rfl := Option.some.inj h
    exact staysExclusive_of_open (Bool.not_eq_true _ ▸ hopen) (Bool.not_eq_true _ ▸ hopen)

theorem staysExclusive_eraseProperty (name : String) (node : SchemaNode) :
    node.StaysExclusive (node.eraseProperty name) := by
  refine staysExclusive_of_bare rfl fun hproperties hrequired => ⟨?_, hrequired⟩
  unfold eraseProperty
  rw [hproperties]
  rfl

theorem staysExclusive_modifyProperty (name : String) (change : SchemaNode → SchemaNode)
    (node : SchemaNode) : node.StaysExclusive (node.modifyProperty name change) := by
  refine staysExclusive_of_bare rfl fun hproperties hrequired => ⟨?_, hrequired⟩
  unfold modifyProperty
  rw [hproperties]
  rfl

theorem staysExclusive_mergeDefaults (node : SchemaNode) :
    node.StaysExclusive node.mergeDefaults := by
  unfold mergeDefaults
  split
  · exact .refl node
  · exact staysExclusive_of_open (Bool.not_eq_true _ ▸ ‹_›) (Bool.not_eq_true _ ▸ ‹_›)

/-- A schema without properties requires nothing, whatever the sets of names are. -/
theorem staysExclusive_generateRequired (functional mandatory : NameSet) (node : SchemaNode) :
    node.StaysExclusive (node.generateRequired functional mandatory) := by
  refine staysExclusive_of_bare rfl fun hproperties _ => ?_
  unfold generateRequired
  rw [hproperties]
  exact ⟨rfl, rfl⟩

end SchemaNode

/-- The build that an attempt leaves, whether or not it fails. -/
def Attempt.reached : Attempt → ClassBuild
  | .ok build => build
  | .error failure => failure.reached

namespace ClassBuild

variable {before : SchemaNode} {build : ClassBuild} {attempt : Attempt}

theorem staysExclusive_bind {next : ClassBuild → Attempt}
    (h : before.StaysExclusive attempt.reached.schema)
    (hnext : ∀ build : ClassBuild, before.StaysExclusive build.schema →
      before.StaysExclusive (next build).reached.schema) :
    before.StaysExclusive (Attempt.reached (attempt.bind next)).schema := by
  cases attempt with
  | error failure => exact h
  | ok build => exact hnext build h

theorem staysExclusive_proceed {α : Type} {result : Except BuildError α} {next : α → Attempt}
    (h : before.StaysExclusive build.schema)
    (hnext : ∀ value, before.StaysExclusive (next value).reached.schema) :
    before.StaysExclusive (build.proceed result next).reached.schema := by
  cases result with
  | error error => exact h
  | ok value => exact hnext value

theorem staysExclusive_foldlM {α : Type} {step : ClassBuild → α → Attempt}
    (hstep : ∀ (build : ClassBuild) value, before.StaysExclusive build.schema →
      before.StaysExclusive (step build value).reached.schema)
    (values : List α) (h : before.StaysExclusive build.schema) :
    before.StaysExclusive (Attempt.reached (values.foldlM step build)).schema := by
  induction values generalizing build with
  | nil => exact h
  | cons value rest ih =>
    rw [List.foldlM_cons]
    exact staysExclusive_bind (hstep build value h) fun _ => ih

section Visit

variable (ontology : Ontology) (configuration : Configuration)

theorem staysExclusive_addProperty (iri : String)
    (declaration : Option (Role × PropertyDeclaration))
    (h : before.StaysExclusive build.schema) :
    before.StaysExclusive
      (addProperty ontology configuration iri declaration build).reached.schema := by
  unfold addProperty
  refine staysExclusive_proceed h fun node => ?_
  dsimp only
  split
  · exact h
  · exact h.trans (SchemaNode.staysExclusive_of_insertProperty? ‹_›)

theorem staysExclusive_addDeclared (role : Role) (declaration : PropertyDeclaration)
    (h : before.StaysExclusive build.schema) :
    before.StaysExclusive
      (addDeclared ontology configuration role declaration build).reached.schema := by
  rw [addDeclared_eq]
  split
  · exact staysExclusive_addProperty ontology configuration _ _ h
  · split
    · exact staysExclusive_addProperty ontology configuration _ _
        (h.trans (SchemaNode.staysExclusive_eraseProperty _ build.schema))
    · exact h

theorem staysExclusive_refineProperty (name : String) (restriction : ClassExpression)
    (annotations : List Annotation) (h : before.StaysExclusive build.schema) :
    before.StaysExclusive
      (refineProperty ontology configuration name restriction annotations
        build).reached.schema := by
  have hnoted : before.StaysExclusive (build.noteFiller name restriction).schema := by
    obtain ⟨_, _, hnoted, _⟩ := noteFiller_eq build name restriction
    rwa [hnoted]
  unfold refineProperty
  exact staysExclusive_proceed hnoted fun _ =>
    hnoted.trans (SchemaNode.staysExclusive_modifyProperty name _ _)

theorem staysExclusive_applyRestriction (part : ClassExpression) (annotations : List Annotation)
    (h : before.StaysExclusive build.schema) :
    before.StaysExclusive
      (applyRestriction ontology configuration part annotations build).reached.schema := by
  unfold applyRestriction
  split
  · exact h
  · refine staysExclusive_bind ?_ fun present hpresent => ?_
    · split
      · exact h
      · exact staysExclusive_addProperty ontology configuration _ _ h
    · split
      · exact staysExclusive_refineProperty ontology configuration _ _ _ hpresent
      · exact hpresent

theorem staysExclusive_addMembers (iri : String) (h : before.StaysExclusive build.schema) :
    before.StaysExclusive (addMembers ontology configuration iri build).reached.schema := by
  refine staysExclusive_foldlM (fun build member hbuild => ?_) _ h
  cases member with
  | declared role declaration =>
    exact staysExclusive_addDeclared ontology configuration role declaration hbuild
  | restricted part annotations =>
    exact staysExclusive_applyRestriction ontology configuration part annotations hbuild

theorem staysExclusive_addAncestor (iri : String) (h : before.StaysExclusive build.schema) :
    before.StaysExclusive (addAncestor ontology configuration build iri).reached.schema := by
  unfold addAncestor
  dsimp only
  split
  · exact h
  · exact staysExclusive_addMembers ontology configuration iri h

theorem staysExclusive_visit (h : before.StaysExclusive build.schema) :
    before.StaysExclusive (build.visit ontology configuration).reached.schema := by
  unfold visit
  split
  · exact ⟨fun _ => rfl, fun _ _ => ⟨rfl, rfl⟩⟩
  · refine staysExclusive_bind (staysExclusive_addMembers ontology configuration _ h)
      fun present hpresent => ?_
    split
    · exact staysExclusive_foldlM
        (fun _ iri => staysExclusive_addAncestor ontology configuration iri) _ hpresent
    · exact hpresent

end Visit

theorem staysExclusive_cleanup (build : ClassBuild) :
    build.schema.StaysExclusive build.cleanup.schema := by
  refine SchemaNode.staysExclusive_of_bare rfl fun hproperties hrequired => ⟨?_, hrequired⟩
  unfold cleanup
  rw [hproperties]
  rfl

theorem staysExclusive_applyRequiredness (options : SchemaOptions) (build : ClassBuild) :
    build.schema.StaysExclusive (build.applyRequiredness options).schema := by
  unfold applyRequiredness
  dsimp only
  split
  · exact SchemaNode.staysExclusive_of_bare rfl fun hproperties _ => ⟨hproperties, rfl⟩
  · split
    · exact SchemaNode.staysExclusive_generateRequired _ _ build.schema
    · exact .refl build.schema

/-- Without properties there is nothing to convert. -/
theorem staysExclusive_convertArrays (options : SchemaOptions) (inflector : Inflector)
    (build : ClassBuild) :
    build.schema.StaysExclusive (build.convertArrays options inflector).schema := by
  cases harrays : options.alwaysGenerateArrays with
  | true =>
    rw [convertArrays_of_always harrays]
    exact .refl build.schema
  | false =>
    rw [convertArrays_eq harrays]
    refine SchemaNode.staysExclusive_of_bare rfl fun hproperties hrequired => ?_
    have hnone : build.conversions options inflector = [] := by
      unfold conversions
      rw [hproperties]
      rfl
    unfold convertedProperties moved
    rw [hnone]
    exact ⟨rfl, hrequired⟩

theorem staysExclusive_completeType (h : before.StaysExclusive build.schema) :
    before.StaysExclusive build.completeType.schema := by
  unfold completeType
  split
  · exact h.trans (SchemaNode.staysExclusive_of_bare rfl .intro)
  · exact h

theorem staysExclusive_applyInheritance (ontology : Ontology) (options : SchemaOptions)
    (h : before.StaysExclusive build.schema) :
    before.StaysExclusive (build.applyInheritance ontology options).reached.schema := by
  unfold applyInheritance
  split
  · exact h
  · split
    · split
      · exact h
      · exact staysExclusive_completeType
          (h.trans (SchemaNode.staysExclusive_of_bare rfl .intro))
    · exact staysExclusive_completeType h

theorem staysExclusive_prune (ontology : Ontology) (inflector : Inflector)
    (h : before.StaysExclusive build.schema) :
    before.StaysExclusive (build.prune ontology inflector).reached.schema := by
  unfold prune
  dsimp only
  split
  · exact h
  · exact h.trans (SchemaNode.staysExclusive_of_bare rfl .intro)

theorem staysExclusive_collectMarkdown (ontology : Ontology) (roles : Option AnnotationRoles)
    (h : before.StaysExclusive build.schema) :
    before.StaysExclusive (build.collectMarkdown ontology roles).schema := by
  obtain ⟨_, hmarkdown⟩ := exists_collectMarkdown_eq ontology roles build
  rwa [hmarkdown]

theorem staysExclusive_runStages (ontology : Ontology) (configuration : Configuration)
    (inflector : Inflector) (build : ClassBuild) :
    build.schema.StaysExclusive
      (build.runStages ontology configuration inflector).reached.schema := by
  have hprepared : build.schema.StaysExclusive (build.prepared configuration).schema :=
    (staysExclusive_cleanup build).trans (staysExclusive_applyRequiredness _ _)
  have hconverted := hprepared.trans
    (staysExclusive_convertArrays configuration.schema inflector (build.prepared configuration))
  unfold runStages
  refine staysExclusive_bind
    (staysExclusive_applyInheritance ontology configuration.schema hconverted)
    fun inherited hinherited => ?_
  refine staysExclusive_bind (staysExclusive_prune ontology inflector hinherited)
    fun pruned hpruned => ?_
  exact staysExclusive_collectMarkdown ontology configuration.annotations hpruned

end ClassBuild

/-- Whether a step leaves the required names of the schema to the other operations. -/
def Step.LeavesRequired : Step → Prop
  | .add .schemaRequired _ => False
  | _ => True

/-- An operation on a build with its arguments. Operations on schemas act on that of the build. -/
inductive Action where
  | take (ontology : Ontology) (configuration : Configuration) (inflector : Inflector)
      (step : Step) (leaves : step.LeavesRequired)
  /-- Derives the required names from any sets of names. -/
  | generateRequired (functional mandatory : NameSet)
  /-- Annotates the schema itself as a property of the ontology. -/
  | annotateSchema (ontology : Ontology) (configuration : Configuration) (iri : String)
  /-- Annotates a property of the schema from any restriction. -/
  | annotateFromAxiom (configuration : Configuration) (restriction : ClassExpression)
      (annotations : List Annotation) (name : String)
  /-- Changes anything but the schema, as a caller may, or a step before it fails. -/
  | reframe (frame : ClassBuild)

namespace Action

def perform (build : ClassBuild) : Action → Attempt
  | take ontology configuration inflector step _ =>
    build.take ontology configuration inflector step
  | generateRequired functional mandatory =>
    .ok (build.withSchema (build.schema.generateRequired functional mandatory))
  | annotateSchema ontology configuration iri =>
    .ok (build.withSchema (ontology.annotateProperty configuration iri build.schema))
  | annotateFromAxiom configuration restriction annotations name =>
    .ok (build.withSchema (build.schema.modifyProperty name
      (SchemaNode.annotateFromAxiom configuration restriction annotations)))
  | reframe frame => .ok (frame.withSchema build.schema)

/-- The builds before, between and after some actions; the run goes on behind a failure. -/
def trace (build : ClassBuild) : List Action → List ClassBuild
  | [] => [build]
  | action :: rest => build :: trace (action.perform build).reached rest

theorem staysExclusive_take (ontology : Ontology) (configuration : Configuration)
    (inflector : Inflector) (build : ClassBuild) {step : Step} (leaves : step.LeavesRequired) :
    build.schema.StaysExclusive
      (build.take ontology configuration inflector step).reached.schema := by
  have hsame : build.schema.StaysExclusive build.schema := .refl build.schema
  cases step with
  | visit => exact ClassBuild.staysExclusive_visit ontology configuration hsame
  | cleanup => exact ClassBuild.staysExclusive_cleanup build
  | requiredness => exact ClassBuild.staysExclusive_applyRequiredness _ build
  | arrays => exact ClassBuild.staysExclusive_convertArrays _ inflector build
  | inheritance => exact ClassBuild.staysExclusive_applyInheritance ontology _ hsame
  | prune => exact ClassBuild.staysExclusive_prune ontology inflector hsame
  | markdown => exact ClassBuild.staysExclusive_collectMarkdown ontology _ hsame
  | stages => exact ClassBuild.staysExclusive_runStages ontology configuration inflector build
  | syncRequired => exact hsame
  | mergeDefaults => exact SchemaNode.staysExclusive_mergeDefaults build.schema
  | generateRequired => exact SchemaNode.staysExclusive_generateRequired _ _ build.schema
  | insertProperty name property =>
    have hinsert : build.schema.StaysExclusive
        ((build.schema.insertProperty? name property).getD build.schema) := by
      cases hinserted : build.schema.insertProperty? name property with
      | none => exact hsame
      | some schema => exact SchemaNode.staysExclusive_of_insertProperty? hinserted
    exact hinsert
  | setEnumValues values => exact SchemaNode.staysExclusive_setEnumValues values build.schema
  | add collection name =>
    cases collection with
    | schemaRequired => exact leaves.elim
    | _ => exact hsame
  | annotateProperty name iri => exact SchemaNode.staysExclusive_modifyProperty name _ build.schema
  | annotateFromAxiom name statement =>
    exact SchemaNode.staysExclusive_modifyProperty name _ build.schema

/-- One action keeps lists of values, and keeps them exclusive. -/
theorem staysExclusive_perform (build : ClassBuild) (action : Action) :
    build.schema.StaysExclusive (action.perform build).reached.schema := by
  cases action with
  | take ontology configuration inflector step leaves =>
    exact staysExclusive_take ontology configuration inflector build leaves
  | generateRequired functional mandatory =>
    exact SchemaNode.staysExclusive_generateRequired functional mandatory build.schema
  | annotateSchema ontology configuration iri =>
    obtain ⟨_, _, _, _, hannotated⟩ :=
      Ontology.annotateProperty_eq ontology configuration iri build.schema
    have hbare : build.schema.StaysExclusive
        (ontology.annotateProperty configuration iri build.schema) := by
      rw [hannotated]
      exact SchemaNode.staysExclusive_of_bare rfl .intro
    exact hbare
  | annotateFromAxiom configuration restriction annotations name =>
    exact SchemaNode.staysExclusive_modifyProperty name _ build.schema
  | reframe frame => exact .refl build.schema

/-- What a run comes to stays exclusive if its start is. -/
theorem staysExclusive_of_mem_trace {actions : List Action} {start build : ClassBuild}
    (hmem : build ∈ trace start actions) : start.schema.StaysExclusive build.schema := by
  induction actions generalizing start with
  | nil =>
    obtain rfl := List.mem_singleton.1 hmem
    exact .refl build.schema
  | cons action rest ih =>
    rcases List.mem_cons.1 hmem with rfl | hmem
    · exact .refl build.schema
    · exact (staysExclusive_perform start action).trans (ih hmem)

/-- Whatever actions come in whatever order, failing ones among them: lists of values have neither
properties nor required names between them, and what lists values once does so ever after. -/
theorem exclusive_of_mem_trace (actions : List Action) {start : ClassBuild}
    (h : start.schema.Exclusive) :
    (∀ build ∈ trace start actions, build.schema.Exclusive) ∧
      (trace start actions).Pairwise fun earlier later =>
        earlier.schema.isEnum = true → later.schema.isEnum = true := by
  refine ⟨fun build hmem => (staysExclusive_of_mem_trace hmem).exclusive h, ?_⟩
  clear h
  induction actions generalizing start with
  | nil => exact List.pairwise_singleton _ _
  | cons action rest ih =>
    refine List.pairwise_cons.2 ⟨fun later hlater => ?_, ih⟩
    exact ((staysExclusive_perform start action).trans (staysExclusive_of_mem_trace hlater)).listed

/-- No class of this ontology can be named. -/
def unnamed : Ontology where
  iri := "e"
  objectProperties := [{ iri := "e#likes", domains := ["e#Person"], ranges := ["e#Person"] }]

/-- A visit that fails, a list of values, and what would add properties and required names to it. -/
def listing : List Action :=
  [.take unnamed {} .english .visit trivial,
    .take unnamed {} .english (.setEnumValues [.bool true]) trivial,
    .take unnamed {} .english .mergeDefaults trivial,
    .generateRequired (.ofList ["likes"]) ∅]

theorem exclusive_of_mem_trace_listing :
    (ClassBuild.start "e#Person" (.ofType .object)).schema.Exclusive ∧
      (∃ failure, (ClassBuild.start "e#Person" (.ofType .object)).visit unnamed {} =
        .error failure) ∧
      (∀ build ∈ trace (.start "e#Person" (.ofType .object)) listing, build.schema.Exclusive) ∧
      (trace (.start "e#Person" (.ofType .object)) listing).map (·.schema.isEnum) =
        [false, false, true, true, true] := by
  have hstart : (ClassBuild.start "e#Person" (.ofType .object)).schema.Exclusive := nofun
  exact ⟨hstart, ⟨_, rfl⟩, (exclusive_of_mem_trace listing hstart).1, by decide⟩

end Action

end OntoSchema
