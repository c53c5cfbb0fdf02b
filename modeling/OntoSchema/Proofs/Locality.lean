import OntoSchema.Proofs.Compilation

/-!
# What the schema of a class depends on

Of the axioms of an ontology, the compilation of a class reads those about the class, about its
superclasses, and about the classes that its visit refers to (`Concerns`). The search for
superclasses never leaves the lineage of the class, neither for the class itself nor for one of its
superclasses, and the pruning and the documentation look at referenced classes only. So two
ontologies that agree about these classes compile the class alike (`compileClass_withAxioms`), and
an axiom about any other class makes no difference, wherever it stands.
-/

namespace OntoSchema

theorem NameSet.filter_congr {set : NameSet} {keep other : String → Bool}
    (h : ∀ name ∈ set, keep name = other name) : set.filter keep = set.filter other :=
  NameSet.ext (List.filter_congr h)

namespace Ontology

/-- Two ontologies have the same axioms about a class, in the same order. -/
structure AgreesOn (first second : Ontology) (iri : String) : Prop where
  subclassAxioms : second.subclassAxiomsOf iri = first.subclassAxiomsOf iri
  equivalences : second.equivalencesOf iri = first.equivalencesOf iri

/-- A class and its superclasses. -/
def InLineage (ontology : Ontology) (iri other : String) : Prop :=
  other = iri ∨ other ∈ ontology.superclasses iri

/-- A class is in the lineage of another one, or the visit of that one refers to it. -/
def Concerns (ontology : Ontology) (configuration : Configuration) (iri other : String) : Prop :=
  ontology.InLineage iri other ∨
    ∃ schema visited, ontology.baseSchema configuration.schema iri = .ok schema ∧
      (ClassBuild.start iri schema).visit ontology configuration = .ok visited ∧
      other ∈ visited.referenced

/-- The same declarations with other axioms. -/
def withAxioms (ontology : Ontology) (subclassAxioms : List SubclassAxiom)
    (equivalences : List EquivalenceAxiom) : Ontology :=
  { ontology with subclassAxioms, equivalences }

variable {ontology first second : Ontology} {iri other third : String}

theorem InLineage.trans (h₁ : ontology.InLineage iri other) (h₂ : ontology.InLineage other third) :
    ontology.InLineage iri third := by
  rcases h₁ with rfl | h₁
  · exact h₂
  · rcases h₂ with rfl | h₂
    · exact .inr h₁
    · exact mem_superclasses_trans h₁ h₂

theorem inLineage_of_transGen (h : Relation.TransGen ontology.IsBelow iri other) :
    ontology.InLineage iri other := by
  by_cases he : other = iri
  · exact .inl he
  · exact .inr (mem_superclasses_iff.2 ⟨he, h⟩)

theorem AgreesOn.isBelow_iff (h : first.AgreesOn second iri) :
    second.IsBelow iri other ↔ first.IsBelow iri other := by
  unfold IsBelow directSuperclasses impliedClasses
  rw [h.subclassAxioms, h.equivalences]

/-- Chains of direct superclasses stay in the lineage, where both ontologies have the same ones. -/
theorem transGen_isBelow_iff
    (h : ∀ other, first.InLineage iri other → first.AgreesOn second other) :
    Relation.TransGen second.IsBelow iri other ↔ Relation.TransGen first.IsBelow iri other := by
  constructor
  · intro hpath
    induction hpath with
    | single hbelow => exact .single ((h iri (.inl rfl)).isBelow_iff.1 hbelow)
    | tail _ hbelow ih => exact ih.tail ((h _ (inLineage_of_transGen ih)).isBelow_iff.1 hbelow)
  · intro hpath
    induction hpath with
    | single hbelow => exact .single ((h iri (.inl rfl)).isBelow_iff.2 hbelow)
    | tail hpath hbelow ih =>
      exact ih.tail ((h _ (inLineage_of_transGen hpath)).isBelow_iff.2 hbelow)

theorem superclasses_eq (h : ∀ other, first.InLineage iri other → first.AgreesOn second other) :
    second.superclasses iri = first.superclasses iri := by
  apply NameSet.ext_mem
  intro other
  rw [mem_superclasses_iff, mem_superclasses_iff, transGen_isBelow_iff h]

theorem superclasses_eq_of_mem
    (h : ∀ other, first.InLineage iri other → first.AgreesOn second other)
    (hother : first.InLineage iri other) : second.superclasses other = first.superclasses other :=
  superclasses_eq fun third hthird => h third (hother.trans hthird)

end Ontology

namespace ClassExpression

variable {first second : Ontology}

/-- The schemas of fillers need the names of classes and nothing else. -/
theorem fillerSchema?_congr (h : ∀ iri, second.schemaName iri = first.schemaName iri)
    (filler : ClassExpression) : filler.fillerSchema? second = filler.fillerSchema? first := by
  induction filler using induction_on_operands with
  | combination role connective operands ih =>
    have hoperands : fillerSchemas second operands = fillerSchemas first operands := by
      induction operands with
      | nil => rfl
      | cons operand rest ihrest =>
        rw [fillerSchemas, fillerSchemas, ih operand List.mem_cons_self,
          ihrest fun other hm => ih other (List.mem_cons_of_mem _ hm)]
    rw [fillerSchema?, fillerSchema?, hoperands]
  | simple filler hsimple =>
    cases filler with
    | named iri => rw [fillerSchema?, fillerSchema?, h]
    | combination => exact absurd rfl (hsimple _ _ _)
    | _ => rfl

end ClassExpression

section

variable {ontology : Ontology} {subclassAxioms : List SubclassAxiom}
  {equivalences : List EquivalenceAxiom} {configuration : Configuration} {inflector : Inflector}
  {prefixes : NameMap String} {options : SchemaOptions} {iri other : String} {build : ClassBuild}

namespace Ontology

theorem AgreesOn.members_eq
    (h : ontology.AgreesOn (ontology.withAxioms subclassAxioms equivalences) iri) :
    (ontology.withAxioms subclassAxioms equivalences).members iri = ontology.members iri := by
  unfold members
  rw [h.subclassAxioms]
  rfl

theorem AgreesOn.enumeration?_eq {first second : Ontology} (h : first.AgreesOn second iri) :
    second.enumeration? iri = first.enumeration? iri := by
  unfold enumeration?
  rw [h.equivalences]

theorem AgreesOn.isLoadBearing_eq
    (h : ontology.AgreesOn (ontology.withAxioms subclassAxioms equivalences) iri)
    (schema : SchemaNode) :
    (ontology.withAxioms subclassAxioms equivalences).isLoadBearing inflector schema iri =
      ontology.isLoadBearing inflector schema iri := by
  unfold isLoadBearing
  rw [h.subclassAxioms, h.equivalences]
  rfl

theorem AgreesOn.markdownEntries_eq
    (h : ontology.AgreesOn (ontology.withAxioms subclassAxioms equivalences) iri)
    (roles : AnnotationRoles) :
    (ontology.withAxioms subclassAxioms equivalences).markdownEntries roles iri =
      ontology.markdownEntries roles iri := by
  unfold markdownEntries
  rw [h.subclassAxioms]
  rfl

end Ontology

namespace ClassBuild

/-- One member is taken in without a look at any axiom. -/
theorem addMember_withAxioms (member : Member) :
    addMember (ontology.withAxioms subclassAxioms equivalences) configuration build member =
      addMember ontology configuration build member := by
  cases member with
  | declared role declaration => rfl
  | restricted part annotations =>
    have hfiller : ∀ filler : ClassExpression,
        filler.fillerSchema? (ontology.withAxioms subclassAxioms equivalences) =
          filler.fillerSchema? ontology :=
      ClassExpression.fillerSchema?_congr fun _ => rfl
    have hrefine : ∀ name (middle : ClassBuild),
        refineProperty (ontology.withAxioms subclassAxioms equivalences) configuration name part
          annotations middle =
        refineProperty ontology configuration name part annotations middle := by
      intro name middle
      unfold refineProperty
      simp only [hfiller]
    unfold addMember applyRestriction
    simp only [hrefine]
    rfl

theorem addMembers_withAxioms
    (h : ontology.AgreesOn (ontology.withAxioms subclassAxioms equivalences) iri) :
    addMembers (ontology.withAxioms subclassAxioms equivalences) configuration iri build =
      addMembers ontology configuration iri build := by
  have hstep : addMember (ontology.withAxioms subclassAxioms equivalences) configuration =
      addMember ontology configuration :=
    funext fun _ => funext addMember_withAxioms
  unfold addMembers
  rw [h.members_eq, hstep]

theorem foldlM_congr_of_mem {α : Type} {list : List α} {step other : ClassBuild → α → Attempt}
    (h : ∀ item ∈ list, ∀ build, step build item = other build item) (build : ClassBuild) :
    list.foldlM step build = list.foldlM other build := by
  induction list generalizing build with
  | nil => rfl
  | cons item rest ih =>
    rw [List.foldlM_cons, List.foldlM_cons, h item List.mem_cons_self]
    exact congrArg (other build item >>= ·) (funext fun next =>
      ih (fun later hm => h later (List.mem_cons_of_mem _ hm)) next)

/-- A visit reads the axioms about the lineage of its class. -/
theorem visit_withAxioms (hprefixes : ontology.prefixes? = some prefixes)
    (henum : build.schema.isEnum = false)
    (h : ∀ other, ontology.InLineage build.subject other →
      ontology.AgreesOn (ontology.withAxioms subclassAxioms equivalences) other) :
    build.visit (ontology.withAxioms subclassAxioms equivalences) configuration =
      build.visit ontology configuration := by
  obtain ⟨middle, hmiddle, hgrows⟩ :=
    exists_addMembers configuration hprefixes build.subject henum
  have hancestor : ∀ other ∈ (ontology.superclasses build.subject).toList, ∀ build : ClassBuild,
      addAncestor (ontology.withAxioms subclassAxioms equivalences) configuration build other =
        addAncestor ontology configuration build other := by
    intro other hother build
    unfold addAncestor
    dsimp only
    rw [addMembers_withAxioms (h other (.inr hother))]
  unfold visit
  rw [(h _ (.inl rfl)).enumeration?_eq]
  cases ontology.enumeration? build.subject with
  | some values => rfl
  | none =>
    simp only [addMembers_withAxioms (h _ (.inl rfl)), hmiddle, bind, Except.bind, hgrows.subject,
      Ontology.superclasses_eq h, foldlM_congr_of_mem hancestor]

/-- The references to superclasses are chosen alike. -/
theorem nearestAncestors_withAxioms
    (hancestors : ∀ other ∈ build.ancestors, ontology.InLineage iri other)
    (h : ∀ other, ontology.InLineage iri other →
      ontology.AgreesOn (ontology.withAxioms subclassAxioms equivalences) other) :
    build.nearestAncestors (ontology.withAxioms subclassAxioms equivalences) =
      build.nearestAncestors ontology := by
  have hcovered : ∀ other, build.isCovered (ontology.withAxioms subclassAxioms equivalences) other =
      build.isCovered ontology other := by
    intro other
    unfold isCovered
    rw [Bool.eq_iff_iff, List.any_eq_true, List.any_eq_true]
    refine exists_congr fun superclass => and_congr_right fun hm => ?_
    rw [Ontology.superclasses_eq_of_mem h (hancestors superclass hm)]
  unfold nearestAncestors
  simp only [hcovered]

/-- The references that remain after the pruning are the same. -/
theorem linked_withAxioms
    (hancestors : ∀ other ∈ build.ancestors, ontology.InLineage iri other)
    (h : ∀ other, ontology.InLineage iri other ∨ other ∈ build.referenced →
      ontology.AgreesOn (ontology.withAxioms subclassAxioms equivalences) other) :
    build.linked (ontology.withAxioms subclassAxioms equivalences) prefixes options inflector =
      build.linked ontology prefixes options inflector := by
  have hbearing : ∀ other ∈ build.referenced,
      (ontology.withAxioms subclassAxioms equivalences).isLoadBearing inflector build.schema other =
        ontology.isLoadBearing inflector build.schema other := fun other hm =>
    (h other (.inr hm)).isLoadBearing_eq build.schema
  have hstripped :
      build.strippedNames (ontology.withAxioms subclassAxioms equivalences) prefixes inflector =
        build.strippedNames ontology prefixes inflector := by
    unfold strippedNames
    rw [List.filter_congr fun other hm => congrArg not (hbearing other hm)]
  have hparts :
      build.inheritedParts (ontology.withAxioms subclassAxioms equivalences) prefixes options =
        build.inheritedParts ontology prefixes options := by
    unfold inheritedParts
    rw [nearestAncestors_withAxioms hancestors fun other hother => h other (.inl hother)]
  unfold linked
  rw [hstripped, hparts, NameSet.filter_congr hbearing]

/-- The documentation is collected from the same classes. -/
theorem collectMarkdown_withAxioms (roles : Option AnnotationRoles)
    (h : ∀ other, other = build.subject ∨ other ∈ build.referenced →
      ontology.AgreesOn (ontology.withAxioms subclassAxioms equivalences) other) :
    build.collectMarkdown (ontology.withAxioms subclassAxioms equivalences) roles =
      build.collectMarkdown ontology roles := by
  cases roles with
  | none => rfl
  | some roles =>
    have hentries : (build.subject :: build.referenced.toList.filter (· ≠ build.subject)).flatMap
        ((ontology.withAxioms subclassAxioms equivalences).markdownEntries roles) =
        (build.subject :: build.referenced.toList.filter (· ≠ build.subject)).flatMap
          (ontology.markdownEntries roles) := by
      refine List.flatMap_congr fun other hm => (h other ?_).markdownEntries_eq roles
      exact (List.mem_cons.1 hm).imp id fun hm => (List.mem_filter.1 hm).1
    unfold collectMarkdown
    dsimp only
    rw [hentries]

/-- The stages read the axioms about the lineage of the class and about referenced classes. -/
theorem staged_withAxioms (hvisited : build.Visited ontology prefixes configuration iri)
    (h : ∀ other, ontology.InLineage iri other ∨ other ∈ build.referenced →
      ontology.AgreesOn (ontology.withAxioms subclassAxioms equivalences) other) :
    build.staged (ontology.withAxioms subclassAxioms equivalences) prefixes configuration
        inflector =
      build.staged ontology prefixes configuration inflector := by
  obtain ⟨_, _, _, _, _, hconverted⟩ := exists_converted_eq configuration inflector build
  have hancestors : ∀ other ∈ (build.converted configuration inflector).ancestors,
      ontology.InLineage iri other := by
    rw [hconverted]
    exact fun other hm => hvisited.processed other (List.mem_filter.1 hm).1
  have hreferenced : (build.converted configuration inflector).referenced = build.referenced :=
    referenced_converted configuration inflector build
  unfold staged
  rw [linked_withAxioms hancestors (hreferenced ▸ h)]
  apply collectMarkdown_withAxioms
  intro other hother
  have hsubject : (build.converted configuration inflector).subject = iri :=
    (congrArg ClassBuild.subject hconverted).trans hvisited.subject
  rcases hother with he | hm
  · exact h other (.inl (.inl (he.trans hsubject)))
  · exact h other (.inr (hreferenced ▸ (NameSet.mem_filter.1 hm).1))

end ClassBuild

namespace Ontology

/-- Ontologies of the same declarations that agree on all classes that concern a class compile it
alike, or fail alike. -/
theorem compileClass_withAxioms (subclassAxioms : List SubclassAxiom)
    (equivalences : List EquivalenceAxiom) (inflector : Inflector)
    (h : ∀ other, ontology.Concerns configuration iri other →
      ontology.AgreesOn (ontology.withAxioms subclassAxioms equivalences) other) :
    (ontology.withAxioms subclassAxioms equivalences).compileClass configuration inflector iri =
      ontology.compileClass configuration inflector iri := by
  cases hprefixes : ontology.prefixes? with
  | none =>
    have hbase : ontology.baseSchema configuration.schema iri =
        .error (.missingPrefixes ontology.iri iri) := by
      unfold baseSchema schemaName
      rw [hprefixes]
      rfl
    have hbase' : (ontology.withAxioms subclassAxioms equivalences).baseSchema
        configuration.schema iri = .error (.missingPrefixes ontology.iri iri) := hbase
    unfold compileClass
    rw [hbase, hbase']
    rfl
  | some prefixes =>
    obtain ⟨visited, hvisit, hvisited⟩ := ClassBuild.exists_visited hprefixes configuration iri
    have hprefixes' : (ontology.withAxioms subclassAxioms equivalences).prefixes? =
        some prefixes := hprefixes
    have hvisit' : (ontology.firstBuild prefixes configuration.schema iri).visit
        (ontology.withAxioms subclassAxioms equivalences) configuration = .ok visited := by
      rw [← hvisit]
      exact ClassBuild.visit_withAxioms hprefixes rfl fun other hm => h other (.inl hm)
    obtain ⟨_, hvisit'', hvisited'⟩ := ClassBuild.exists_visited hprefixes' configuration iri
    obtain rfl := Except.ok.inj (hvisit''.symm.trans hvisit')
    rw [compileClass_eq hprefixes hvisit hvisited, compileClass_eq hprefixes' hvisit' hvisited',
      ClassBuild.staged_withAxioms hvisited]
    rintro other (hm | hm)
    · exact h other (.inl hm)
    · exact h other (.inr ⟨_, _, baseSchema_eq hprefixes, hvisit, hm⟩)

end Ontology

end

theorem filter_insertIdx {α : Type} {keep : α → Bool} {item : α} (h : keep item = false)
    (items : List α) (position : Nat) :
    (items.insertIdx position item).filter keep = items.filter keep := by
  induction items generalizing position with
  | nil =>
    cases position with
    | zero => exact List.filter_cons_of_neg (Bool.eq_false_iff.1 h)
    | succ position => rfl
  | cons first rest ih =>
    cases position with
    | zero => exact List.filter_cons_of_neg (Bool.eq_false_iff.1 h)
    | succ position => rw [List.insertIdx_succ_cons, List.filter_cons, List.filter_cons, ih]

namespace Ontology

/-- An axiom about a class that does not concern another one makes no difference to the compilation
of that one, wherever it stands among the axioms of its kind. -/
theorem compileClass_insertIdx (ontology : Ontology) (configuration : Configuration)
    (inflector : Inflector) (iri : String) :
    (∀ (statement : SubclassAxiom) (position : Nat),
      ¬ ontology.Concerns configuration iri statement.sub →
        { ontology with
          subclassAxioms := ontology.subclassAxioms.insertIdx position statement }.compileClass
            configuration inflector iri =
          ontology.compileClass configuration inflector iri) ∧
    ∀ (statement : EquivalenceAxiom) (position : Nat),
      ¬ ontology.Concerns configuration iri statement.subject →
        { ontology with
          equivalences := ontology.equivalences.insertIdx position statement }.compileClass
            configuration inflector iri =
          ontology.compileClass configuration inflector iri := by
  constructor
  · intro statement position hforeign
    refine compileClass_withAxioms _ ontology.equivalences inflector
      fun other hother => ⟨filter_insertIdx ?_ _ _, rfl⟩
    exact beq_eq_false_iff_ne.2 fun he => hforeign (he ▸ hother)
  · intro statement position hforeign
    refine compileClass_withAxioms ontology.subclassAxioms _ inflector
      fun other hother => ⟨rfl, filter_insertIdx ?_ _ _⟩
    exact beq_eq_false_iff_ne.2 fun he => hforeign (he ▸ hother)

/-- Trees and plants imply each other, and trees bear fruit. -/
def garden : Ontology where
  iri := "e"
  prefixes := some (.ofList [("", "e#")])
  classes := [{ iri := "e#Bush" }, { iri := "e#Fruit" }, { iri := "e#Plant" }, { iri := "e#Tree" }]
  objectProperties := [{ iri := "e#bears", domains := ["e#Tree"], ranges := ["e#Fruit"] }]
  subclassAxioms := [{ sub := "e#Plant", sup := .named "e#Tree" },
    { sub := "e#Tree", sup := .named "e#Plant" }]

theorem compileClass_insertIdx_garden :
    ¬ garden.Concerns {} "e#Tree" "e#Bush" ∧
      { garden with
        subclassAxioms := garden.subclassAxioms.insertIdx 1
          { sub := "e#Bush", sup := .named "e#Tree" } }.compileClass {} .english "e#Tree" =
        garden.compileClass {} .english "e#Tree" ∧
      { garden with
        equivalences := garden.equivalences.insertIdx 0
          { subject := "e#Bush", expression := .hasSelf "e#bears" } }.compileClass {} .english
            "e#Tree" =
        garden.compileClass {} .english "e#Tree" := by
  have hprefixes : garden.prefixes? = some (.ofList [("", "e#")]) := rfl
  have hforeign : ¬ garden.Concerns {} "e#Tree" "e#Bush" := by
    rintro ((he | hm) | ⟨schema, visited, hschema, hvisit, hm⟩)
    · exact absurd he (by decide)
    · exact absurd hm (by decide +kernel)
    · obtain rfl := Except.ok.inj ((baseSchema_eq hprefixes).symm.trans hschema)
      have hreferenced : ((garden.firstBuild (.ofList [("", "e#")]) {} "e#Tree").visit garden
          {}).toOption.map (fun visited => visited.referenced.toList) =
            some ["e#Fruit", "e#Plant"] := by
        decide +kernel
      unfold firstBuild at hreferenced
      rw [hvisit] at hreferenced
      have hclasses : visited.referenced.toList = ["e#Fruit", "e#Plant"] :=
        Option.some.inj hreferenced
      rw [NameSet.mem_def, hclasses] at hm
      exact absurd hm (by decide)
  obtain ⟨hsubclass, hequivalence⟩ := compileClass_insertIdx garden {} .english "e#Tree"
  exact ⟨hforeign, hsubclass { sub := "e#Bush", sup := .named "e#Tree" } 1 hforeign,
    hequivalence { subject := "e#Bush", expression := .hasSelf "e#bears" } 0 hforeign⟩

end Ontology

end OntoSchema
