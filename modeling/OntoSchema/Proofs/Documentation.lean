import OntoSchema.Proofs.Classwise

/-!
# Documentation collected and merged

Recording entries is merging with the tables that these entries make on their own. So it does not
matter whether classes are documented one after the other in one collection, or each in tables of
its own that are merged afterwards: `collectMarkdown_merges` says so of any builds, and of the
classes of a compilation.
-/

namespace OntoSchema

namespace ClassBuild

variable (ontology : Ontology) (roles : Option AnnotationRoles) (build : ClassBuild)

/-- The entries for the subject of a build and for the classes it refers to. -/
def documented : List MarkdownEntry :=
  match roles with
  | none => []
  | some roles =>
    if roles.markdown.isEmpty then []
    else (build.subject :: build.referenced.toList.filter (· ≠ build.subject)).flatMap
      (ontology.markdownEntries roles)

theorem collectMarkdown_eq : build.collectMarkdown ontology roles =
    { build with markdown := build.markdown.recordAll (build.documented ontology roles) } := by
  unfold collectMarkdown documented
  cases roles with
  | none => rfl
  | some roles => by_cases h : roles.markdown.isEmpty = true <;> simp only [h] <;> rfl

/-- The tables that a build collects on its own. -/
def documentation : MarkdownTables :=
  ({ build with markdown := ∅ }.collectMarkdown ontology roles).markdown

/-- Builds collect one after the other into one set of tables. -/
def collectInto (builds : List ClassBuild) (tables : MarkdownTables) : MarkdownTables :=
  builds.foldl (fun tables build =>
    ({ build with markdown := tables }.collectMarkdown ontology roles).markdown) tables

theorem documentation_eq : build.documentation ontology roles =
    MarkdownTables.recordAll ∅ (build.documented ontology roles) := by
  rw [documentation, collectMarkdown_eq]
  rfl

theorem collectMarkdown_eq_merge : build.collectMarkdown ontology roles =
    { build with markdown := build.markdown.merge (build.documentation ontology roles) } := by
  rw [collectMarkdown_eq, documentation_eq, MarkdownTables.recordAll_eq_merge]

theorem collectMarkdown_collectMarkdown :
    (build.collectMarkdown ontology roles).collectMarkdown ontology roles =
      build.collectMarkdown ontology roles := by
  have hsame : (build.collectMarkdown ontology roles).documented ontology roles =
      build.documented ontology roles := by
    rw [collectMarkdown_eq]
    rfl
  rw [collectMarkdown_eq ontology roles (build.collectMarkdown ontology roles), hsame,
    collectMarkdown_eq, MarkdownTables.recordAll_recordAll]

theorem collectInto_eq_foldl_merge (builds : List ClassBuild) (tables : MarkdownTables) :
    collectInto ontology roles builds tables =
      (builds.map (documentation ontology roles)).foldl MarkdownTables.merge tables := by
  unfold collectInto
  rw [List.foldl_map]
  congr 1
  funext tables build
  exact congrArg ClassBuild.markdown
    (collectMarkdown_eq_merge ontology roles { build with markdown := tables })

variable {ontology} {prefixes : NameMap String} {configuration : Configuration}

/-- A visit documents nothing. -/
theorem markdown_of_visit {iri : String} {visited : ClassBuild}
    (hprefixes : ontology.prefixes? = some prefixes)
    (hvisit : (ontology.firstBuild prefixes configuration.schema iri).visit ontology
      configuration = .ok visited) : visited.markdown = ∅ := by
  cases hclass : ontology.enumeration? iri with
  | none =>
    obtain ⟨other, hother, hgrows⟩ := grows_of_visit configuration hprefixes hclass
    obtain rfl : other = visited := Except.ok.inj (hother.symm.trans hvisit)
    exact hgrows.markdown
  | some values =>
    rw [visit_of_enumeration hclass] at hvisit
    obtain rfl := Except.ok.inj hvisit
    rfl

end ClassBuild

theorem exists_of_mem_mapM {ε α β : Type} {next : α → Except ε β} {items : List α}
    {results : List β} (h : items.mapM next = .ok results) {result : β} (hm : result ∈ results) :
    ∃ item ∈ items, next item = .ok result := by
  induction items generalizing results with
  | nil =>
    cases h
    cases hm
  | cons item rest ih =>
    rw [List.mapM_cons] at h
    obtain ⟨first, hfirst, h⟩ := bind_eq_ok_iff.1 h
    obtain ⟨others, hothers, h⟩ := bind_eq_ok_iff.1 h
    obtain rfl := Except.ok.inj h
    rcases List.mem_cons.1 hm with rfl | hm
    · exact ⟨item, List.mem_cons_self, hfirst⟩
    · obtain ⟨other, hother, hresult⟩ := ih hothers hm
      exact ⟨other, List.mem_cons_of_mem _ hother, hresult⟩

/-- A compiled class as a build that knows the classes it refers to. -/
def ClassSchema.toBuild (compiled : ClassSchema) : ClassBuild :=
  { ClassBuild.start compiled.iri compiled.schema with referenced := compiled.referenced }

namespace Ontology

variable {ontology : Ontology} {configuration : Configuration} {inflector : Inflector}
  {iri : String}

/-- A compiled class has the documentation of itself and of the classes it refers to. -/
theorem markdown_of_compileClass {compiled : ClassSchema}
    (h : ontology.compileClass configuration inflector iri = .ok compiled) :
    compiled.markdown = compiled.toBuild.documentation ontology configuration.annotations := by
  obtain ⟨prefixes, visited, hprefixes, _, hvisit, hvisited, _⟩ :=
    exists_stages_of_compileClass h
  obtain rfl := Except.ok.inj (h.symm.trans (compileClass_eq hprefixes hvisit hvisited))
  obtain ⟨_, _, _, _, _, hconverted⟩ :=
    ClassBuild.exists_converted_eq configuration inflector visited
  -- What is documented depends on the subject and on the classes referred to only.
  have hsubject : ((visited.converted configuration inflector).linked ontology prefixes
      configuration.schema inflector).subject = iri := by
    rw [hconverted]
    exact hvisited.subject
  have hnone : visited.markdown = ∅ := ClassBuild.markdown_of_visit hprefixes hvisit
  have hempty : ((visited.converted configuration inflector).linked ontology prefixes
      configuration.schema inflector).markdown = ∅ := by
    rw [hconverted]
    exact hnone
  rw [ClassBuild.documentation_eq]
  unfold ClassBuild.staged
  rw [ClassBuild.collectMarkdown_eq]
  dsimp only
  rw [hempty]
  unfold ClassBuild.documented ClassSchema.toBuild ClassBuild.start
  dsimp only
  rw [hsubject]

/-- Merging is associative, the empty collection is neutral, and the second text counts. What a
build collects is merged into the tables it has, so collecting again changes nothing, and builds
that collect one after the other leave the merge of what each of them collects alone. This is the
documentation of a compilation. -/
theorem collectMarkdown_merges :
    (∀ first second third : MarkdownTables,
      (first.merge second).merge third = first.merge (second.merge third)) ∧
    (∀ tables : MarkdownTables,
      tables.merge ∅ = tables ∧ MarkdownTables.merge ∅ tables = tables) ∧
    (∀ (first second : MarkdownTables) (source target : String),
      (first.merge second).text? source target =
        (second.text? source target).or (first.text? source target)) ∧
    (∀ (ontology : Ontology) (roles : Option AnnotationRoles) (build : ClassBuild),
      build.collectMarkdown ontology roles = { build with
        markdown := build.markdown.merge (build.documentation ontology roles) } ∧
      (build.collectMarkdown ontology roles).collectMarkdown ontology roles =
        build.collectMarkdown ontology roles) ∧
    (∀ (ontology : Ontology) (roles : Option AnnotationRoles) (builds : List ClassBuild)
      (tables : MarkdownTables), ClassBuild.collectInto ontology roles builds tables =
        (builds.map (ClassBuild.documentation ontology roles)).foldl MarkdownTables.merge
          tables) ∧
    ∀ (ontology : Ontology) (configuration : Configuration) (inflector : Inflector)
      (compilation : Compilation),
      ontology.compile configuration inflector = .ok compilation →
        ∃ compiled, (ontology.selectedClasses configuration).mapM
            (ontology.compileClass configuration inflector) = .ok compiled ∧
          compilation.markdown = ClassBuild.collectInto ontology configuration.annotations
            (compiled.map ClassSchema.toBuild) ∅ := by
  refine ⟨MarkdownTables.merge_assoc,
    fun tables => ⟨tables.merge_empty, tables.empty_merge⟩, MarkdownTables.text?_merge,
    fun ontology roles build => ⟨build.collectMarkdown_eq_merge ontology roles,
      build.collectMarkdown_collectMarkdown ontology roles⟩,
    ClassBuild.collectInto_eq_foldl_merge, ?_⟩
  intro ontology configuration inflector compilation h
  obtain ⟨compiled, hcompiled, hmarkdown⟩ := exists_mapM_of_foldlM (compile_eq_ok_iff.1 h).2
  refine ⟨compiled, hcompiled, ?_⟩
  rw [hmarkdown, ClassBuild.collectInto_eq_foldl_merge, List.map_map]
  congr 1
  refine List.map_congr_left fun result hm => ?_
  obtain ⟨iri, _, hresult⟩ := exists_of_mem_mapM hcompiled hm
  exact markdown_of_compileClass hresult

/-- Rooms of two namespaces, both with a note. -/
def rooms : Ontology where
  iri := "e"
  prefixes := some (.ofList [("a", "a#"), ("b", "b#")])
  classes := [{ iri := "a#Room", annotations := [⟨"note", "a hall"⟩] },
    { iri := "b#Room", annotations := [⟨"note", "a cell"⟩] }]

/-- Notes make a section of the documentation. -/
def noting : Configuration where
  annotations := some { markdown := [{ source := "note", heading := "Notes" }] }

/-- Both rooms have one target, and the note on the second one stays. -/
theorem collectMarkdown_merges_rooms :
    ∃ compilation compiled, rooms.compile noting .english = .ok compilation ∧
      (rooms.selectedClasses noting).mapM (rooms.compileClass noting .english) = .ok compiled ∧
      compilation.markdown = ClassBuild.collectInto rooms noting.annotations
        (compiled.map ClassSchema.toBuild) ∅ ∧
      compilation.markdown.text? "note" "Room" = some "a cell" := by
  have hprefixes : rooms.prefixes? = some (.ofList [("a", "a#"), ("b", "b#")]) := rfl
  have hvalid : noting.validate = .ok () := rfl
  obtain ⟨compilation, hcompile⟩ := exists_compile hprefixes hvalid .english
  obtain ⟨_, _, _, _, _, hcollected⟩ := collectMarkdown_merges
  obtain ⟨compiled, hcompiled, hmarkdown⟩ := hcollected rooms noting .english compilation hcompile
  have hread : (rooms.compile noting .english).map (·.markdown.text? "note" "Room") =
      .ok (some "a cell") := by decide +kernel
  rw [hcompile] at hread
  exact ⟨compilation, compiled, hcompile, hcompiled, hmarkdown, Except.ok.inj hread⟩

end Ontology

end OntoSchema
