import OntoSchema.Compilation
import OntoSchema.Proofs.Policies
import OntoSchema.Proofs.Stages

/-!
# The schemas of a compilation

On an ontology with namespaces every class has a schema, under the name of the class
(`exists_compileClass`). A compilation adds the classes one after the other: under a name stands
what the last class of this name is compiled to (`get?_of_lastNamed`), and nothing stands under
other names. It succeeds whenever the policies are free of conflicts.
-/

namespace OntoSchema

/-- A class has operations if the policies are free of conflicts. -/
theorem Configuration.exists_operationsOf {configuration : Configuration}
    (hvalid : configuration.validate = .ok ()) (inflector : Inflector) (iri : String) :
    ∃ operations, configuration.operationsOf inflector iri = .ok operations := by
  have heffective : ∃ operations, effectiveOperations iri configuration.paths
      (configuration.policyFor? iri) = .ok operations := by
    cases hpolicy : configuration.policyFor? iri with
    | none => exact ⟨_, rfl⟩
    | some policy =>
      have hmem : ∃ subject, (subject, policy) ∈ configuration.policies.entries := by
        unfold policyFor? at hpolicy
        split at hpolicy
        · rename_i found hfound
          obtain rfl := Option.some.inj hpolicy
          exact ⟨_, Entries.mem_of_get? hfound⟩
        · exact ⟨_, Entries.mem_of_get? hpolicy⟩
      obtain ⟨subject, hmem⟩ := hmem
      have hoverlap : policy.overlap = [] := validate_eq_ok_iff.1 hvalid _ hmem
      have hpass : policy.validate iri = .ok () := ClassPolicy.validate_eq_ok_iff.2 hoverlap
      unfold effectiveOperations
      dsimp only
      rw [hpass]
      exact ⟨_, rfl⟩
  obtain ⟨operations, heffective⟩ := heffective
  unfold operationsOf
  dsimp only
  rw [heffective]
  exact ⟨_, rfl⟩

namespace Ontology

variable {ontology : Ontology} {prefixes : NameMap String} {configuration : Configuration}
  {inflector : Inflector} {iri name : String} {schema : SchemaNode}

/-- What a class is compiled to, once its visit has a result. -/
theorem compileClass_eq (hprefixes : ontology.prefixes? = some prefixes) {visited : ClassBuild}
    (hvisit : (ontology.firstBuild prefixes configuration.schema iri).visit ontology
      configuration = .ok visited)
    (hvisited : visited.Visited ontology prefixes configuration iri) :
    ontology.compileClass configuration inflector iri = .ok {
      iri
      name := (visited.staged ontology prefixes configuration inflector).schema.name.getD
        (Iri.localName iri)
      schema := (visited.staged ontology prefixes configuration inflector).schema
      referenced := (visited.staged ontology prefixes configuration inflector).referenced
      markdown := (visited.staged ontology prefixes configuration inflector).markdown
      warnings :=
        (visited.prepared configuration).renameWarnings configuration.schema inflector } := by
  have hstages : visited.runStages ontology configuration inflector =
      .ok (visited.staged ontology prefixes configuration inflector) :=
    ClassBuild.runStages_eq hprefixes hvisited.type
  unfold compileClass
  rw [baseSchema_eq hprefixes]
  simp only [bind, Except.bind]
  rw [← firstBuild, hvisit]
  simp only [Except.mapError]
  rw [hstages]
  rfl

theorem exists_compileClass (hprefixes : ontology.prefixes? = some prefixes)
    (configuration : Configuration) (inflector : Inflector) (iri : String) :
    ∃ visited compiled,
      (ontology.firstBuild prefixes configuration.schema iri).visit ontology configuration =
        .ok visited ∧
      visited.Visited ontology prefixes configuration iri ∧
      ontology.compileClass configuration inflector iri = .ok compiled ∧
      compiled.name = qualifiedName prefixes iri ∧
      compiled.schema = (visited.staged ontology prefixes configuration inflector).schema := by
  obtain ⟨visited, hvisit, hvisited⟩ := ClassBuild.exists_visited hprefixes configuration iri
  have hname : (visited.staged ontology prefixes configuration inflector).schema.name =
      some (qualifiedName prefixes iri) := by
    obtain ⟨_, _, _, _, _, hconverted⟩ :=
      ClassBuild.exists_converted_eq configuration inflector visited
    obtain ⟨_, _, hshell⟩ := hvisited.shell
    rw [ClassBuild.schema_staged, hconverted]
    exact congrArg (fun node => node.name) hshell
  refine ⟨visited, _, hvisit, hvisited, compileClass_eq hprefixes hvisit hvisited, ?_, rfl⟩
  exact congrArg (fun name => name.getD (Iri.localName iri)) hname

/-- What a compiled class has gone through. -/
theorem exists_stages_of_compileClass {compiled : ClassSchema}
    (h : ontology.compileClass configuration inflector iri = .ok compiled) :
    ∃ prefixes visited, ontology.prefixes? = some prefixes ∧
      ontology.baseSchema configuration.schema iri =
        .ok (ontology.baseNode prefixes configuration.schema iri) ∧
      (ontology.firstBuild prefixes configuration.schema iri).visit ontology configuration =
        .ok visited ∧
      visited.Visited ontology prefixes configuration iri ∧
      visited.runStages ontology configuration inflector =
        .ok (visited.staged ontology prefixes configuration inflector) ∧
      compiled.schema = (visited.staged ontology prefixes configuration inflector).schema := by
  have hrun := h
  unfold compileClass at hrun
  obtain ⟨base, hbase, _⟩ := bind_eq_ok_iff.1 hrun
  obtain ⟨prefixes, hprefixes⟩ := prefixes?_of_baseSchema hbase
  obtain ⟨visited, compiled', hvisit, hvisited, hcompiled, _, hschema⟩ :=
    exists_compileClass hprefixes configuration inflector iri
  obtain rfl : compiled' = compiled := Except.ok.inj (hcompiled.symm.trans h)
  exact ⟨prefixes, visited, hprefixes, baseSchema_eq hprefixes, hvisit, hvisited,
    ClassBuild.runStages_eq hprefixes hvisited.type, hschema⟩

/-- A schema is what a class is compiled to. -/
def CompilesTo (ontology : Ontology) (configuration : Configuration) (inflector : Inflector)
    (iri : String) (schema : SchemaNode) : Prop :=
  ∃ compiled, ontology.compileClass configuration inflector iri = .ok compiled ∧
    compiled.schema = schema

/-- The schema of a class goes by the name of the class. -/
theorem schemaName_of_compileClass {compiled : ClassSchema}
    (h : ontology.compileClass configuration inflector iri = .ok compiled) :
    ontology.schemaName iri = .ok compiled.name := by
  obtain ⟨prefixes, _, hprefixes, _⟩ := exists_stages_of_compileClass h
  obtain ⟨_, compiled', _, _, hcompiled, hname, _⟩ :=
    exists_compileClass hprefixes configuration inflector iri
  obtain rfl : compiled' = compiled := Except.ok.inj (hcompiled.symm.trans h)
  rw [schemaName_eq hprefixes, hname]

/-- The warnings of a class are about the names of its properties. -/
theorem exists_renameWarnings_of_compileClass {compiled : ClassSchema}
    (h : ontology.compileClass configuration inflector iri = .ok compiled) :
    ∃ build : ClassBuild,
      compiled.warnings = build.renameWarnings configuration.schema inflector := by
  unfold compileClass at h
  obtain ⟨schema, _, h⟩ := bind_eq_ok_iff.1 h
  obtain ⟨visited, _, h⟩ := bind_eq_ok_iff.1 h
  obtain ⟨built, _, h⟩ := bind_eq_ok_iff.1 h
  exact ⟨visited.prepared configuration, congrArg ClassSchema.warnings (Except.ok.inj h).symm⟩

/-- What one class does to a compilation. -/
theorem exists_of_compileNext {compilation next : Compilation}
    (h : ontology.compileNext configuration inflector compilation iri = .ok next) :
    ∃ compiled operations,
      ontology.compileClass configuration inflector iri = .ok compiled ∧
      configuration.operationsOf inflector iri = .ok operations ∧
      ontology.schemaName iri = .ok compiled.name ∧
      next = compilation.add compiled operations
        (policyWarnings iri (configuration.policyFor? iri)) := by
  unfold compileNext at h
  obtain ⟨compiled, hcompiled, h⟩ := bind_eq_ok_iff.1 h
  obtain ⟨operations, hoperations, h⟩ := bind_eq_ok_iff.1 h
  exact ⟨compiled, operations, hcompiled, hoperations, schemaName_of_compileClass hcompiled,
    (Except.ok.inj h).symm⟩

/-- A run over some classes takes them one after the other. -/
theorem foldlM_compileNext_cons {rest : List String} {compilation final : Compilation}
    (h : (iri :: rest).foldlM (ontology.compileNext configuration inflector) compilation =
      .ok final) :
    ∃ next, ontology.compileNext configuration inflector compilation iri = .ok next ∧
      rest.foldlM (ontology.compileNext configuration inflector) next = .ok final := by
  rw [List.foldlM_cons] at h
  exact bind_eq_ok_iff.1 h

/-- A run keeps what stands under a name that none of its classes has. -/
theorem get?_of_unnamed {iris : List String} {compilation final : Compilation}
    (h : iris.foldlM (ontology.compileNext configuration inflector) compilation = .ok final)
    (hname : ∀ iri ∈ iris, ontology.schemaName iri ≠ .ok name) :
    final.schemas.get? name = compilation.schemas.get? name ∧
      final.operations.get? name = compilation.operations.get? name := by
  induction iris generalizing compilation with
  | nil =>
    cases h
    exact ⟨rfl, rfl⟩
  | cons iri rest ih =>
    obtain ⟨next, hnext, hrest⟩ := foldlM_compileNext_cons h
    obtain ⟨compiled, operations, _, _, hkey, rfl⟩ := exists_of_compileNext hnext
    have hother : compiled.name ≠ name := by
      rintro rfl
      exact hname iri List.mem_cons_self hkey
    obtain ⟨hschemas, hoperations⟩ := ih hrest fun later hm =>
      hname later (List.mem_cons_of_mem _ hm)
    rw [hschemas, hoperations]
    unfold Compilation.add
    rw [NameMap.get?_insert, NameMap.get?_insert, if_neg hother, if_neg hother]
    exact ⟨rfl, rfl⟩

/-- Some class of a list has a schema of this name. -/
def NamedIn (ontology : Ontology) (iris : List String) (name : String) : Prop :=
  ∃ iri ∈ iris, ontology.schemaName iri = .ok name

/-- A class is the last one of a list that has a schema of this name. -/
def LastNamed (ontology : Ontology) (iris : List String) (name iri : String) : Prop :=
  ∃ before after, iris = before ++ iri :: after ∧ ontology.schemaName iri = .ok name ∧
    ∀ other ∈ after, ontology.schemaName other ≠ .ok name

theorem LastNamed.schemaName_eq {iris : List String} (h : ontology.LastNamed iris name iri) :
    ontology.schemaName iri = .ok name := by
  obtain ⟨_, _, _, hname, _⟩ := h
  exact hname

theorem exists_lastNamed {iris : List String} (h : ontology.NamedIn iris name) :
    ∃ iri ∈ iris, ontology.LastNamed iris name iri := by
  induction iris with
  | nil => obtain ⟨_, hm, _⟩ := h; cases hm
  | cons first rest ih =>
    by_cases hrest : ontology.NamedIn rest name
    · obtain ⟨iri, hm, before, after, hsplit, hlast⟩ := ih hrest
      exact ⟨iri, List.mem_cons_of_mem _ hm, first :: before, after, by rw [hsplit]; rfl, hlast⟩
    · obtain ⟨iri, hm, hname⟩ := h
      rcases List.mem_cons.1 hm with rfl | hm
      · exact ⟨iri, List.mem_cons_self, [], rest, rfl, hname, fun other hother hsame =>
          hrest ⟨other, hother, hsame⟩⟩
      · exact absurd ⟨iri, hm, hname⟩ hrest

/-- Under a name stands what the last class of this name is compiled to. -/
theorem get?_of_lastNamed {iris : List String} {compilation final : Compilation}
    (h : iris.foldlM (ontology.compileNext configuration inflector) compilation = .ok final)
    (hlast : ontology.LastNamed iris name iri) :
    ∃ compiled operations,
      ontology.compileClass configuration inflector iri = .ok compiled ∧
      configuration.operationsOf inflector iri = .ok operations ∧
      final.schemas.get? name = some compiled.schema ∧
      final.operations.get? name = some operations := by
  obtain ⟨before, after, rfl, hname, hafter⟩ := hlast
  rw [List.foldlM_append] at h
  obtain ⟨middle, _, h⟩ := bind_eq_ok_iff.1 h
  obtain ⟨next, hnext, hrest⟩ := foldlM_compileNext_cons h
  obtain ⟨compiled, operations, hcompiled, hoperations, hkey, rfl⟩ := exists_of_compileNext hnext
  obtain rfl : name = compiled.name := Except.ok.inj (hname.symm.trans hkey)
  obtain ⟨hschemas, hpaths⟩ := get?_of_unnamed hrest hafter
  refine ⟨compiled, operations, hcompiled, hoperations, ?_, ?_⟩
  · rw [hschemas]
    exact (NameMap.get?_insert _ _ _ _).trans (if_pos rfl)
  · rw [hpaths]
    exact (NameMap.get?_insert _ _ _ _).trans (if_pos rfl)

/-- The names of a compilation are those of its classes, for schemas and operations alike. -/
theorem contains_iff_namedIn {iris : List String} {final : Compilation} {warnings : List Warning}
    (h : iris.foldlM (ontology.compileNext configuration inflector) { warnings } = .ok final) :
    (final.schemas.contains name = true ↔ ontology.NamedIn iris name) ∧
      (final.operations.contains name = true ↔ ontology.NamedIn iris name) := by
  unfold NameMap.contains
  by_cases hnamed : ontology.NamedIn iris name
  · obtain ⟨_, _, hlast⟩ := exists_lastNamed hnamed
    obtain ⟨_, _, _, _, hschema, hpaths⟩ := get?_of_lastNamed h hlast
    rw [hschema, hpaths]
    exact ⟨iff_of_true rfl hnamed, iff_of_true rfl hnamed⟩
  · obtain ⟨hschema, hpaths⟩ := get?_of_unnamed h fun iri hm hname => hnamed ⟨iri, hm, hname⟩
    rw [hschema, hpaths]
    exact ⟨iff_of_false nofun hnamed, iff_of_false nofun hnamed⟩

theorem compile_eq_ok_iff {compilation : Compilation} :
    ontology.compile configuration inflector = .ok compilation ↔
      configuration.validate = .ok () ∧
        (ontology.selectedClasses configuration).foldlM
          (ontology.compileNext configuration inflector)
          { warnings := ontology.selectionWarnings configuration } = .ok compilation := by
  unfold compile
  cases hvalid : configuration.validate with
  | error error => exact iff_of_false nofun fun h => nomatch h.1
  | ok => exact (and_iff_right rfl).symm

theorem selectedClasses_eq (hall : configuration.classes = none) :
    ontology.selectedClasses configuration = ontology.classIris := by
  unfold selectedClasses
  rw [hall]

/-- The schemas of a compilation of all classes. -/
theorem schemas_of_compile (hprefixes : ontology.prefixes? = some prefixes)
    (hall : configuration.classes = none) {compilation : Compilation}
    (h : ontology.compile configuration inflector = .ok compilation) :
    (∀ name schema, compilation.schemas.get? name = some schema →
      ∃ iri ∈ ontology.classIris, qualifiedName prefixes iri = name ∧
        ontology.CompilesTo configuration inflector iri schema) ∧
    (∀ name, compilation.schemas.contains name = true ↔
      ∃ iri ∈ ontology.classIris, qualifiedName prefixes iri = name) := by
  obtain ⟨_, hrun⟩ := compile_eq_ok_iff.1 h
  rw [selectedClasses_eq hall] at hrun
  have hcontains : ∀ name, compilation.schemas.contains name = true ↔
      ontology.NamedIn ontology.classIris name := fun name => (contains_iff_namedIn hrun).1
  refine ⟨fun name schema hget => ?_, fun name => ?_⟩
  · have hnamed := (hcontains name).1 (Option.isSome_of_mem hget)
    obtain ⟨iri, hm, hlast⟩ := exists_lastNamed hnamed
    obtain ⟨compiled, _, hcompiled, _, hschema, _⟩ := get?_of_lastNamed hrun hlast
    refine ⟨iri, hm, Except.ok.inj ((schemaName_eq hprefixes iri).symm.trans hlast.schemaName_eq),
      compiled, hcompiled, ?_⟩
    exact Option.some.inj (hschema.symm.trans hget)
  · rw [hcontains]
    simp only [NamedIn, schemaName_eq hprefixes, Except.ok.injEq]

/-- Only an ontology with namespaces is compiled to any schemas. -/
theorem prefixes?_of_compile {compilation : Compilation}
    (h : ontology.compile configuration inflector = .ok compilation)
    (hget : compilation.schemas.get? name = some schema) :
    ∃ prefixes, ontology.prefixes? = some prefixes := by
  obtain ⟨_, hrun⟩ := compile_eq_ok_iff.1 h
  obtain ⟨iri, _, hname⟩ := (contains_iff_namedIn hrun).1.1 (Option.isSome_of_mem hget)
  exact prefixes?_of_schemaName hname

/-- A compilation has a result if the policies are free of conflicts. -/
theorem exists_compile (hprefixes : ontology.prefixes? = some prefixes)
    (hvalid : configuration.validate = .ok ()) (inflector : Inflector) :
    ∃ compilation, ontology.compile configuration inflector = .ok compilation := by
  have hfold : ∀ (iris : List String) (compilation : Compilation), ∃ final,
      iris.foldlM (ontology.compileNext configuration inflector) compilation = .ok final := by
    intro iris
    induction iris with
    | nil => exact fun compilation => ⟨compilation, rfl⟩
    | cons iri rest ih =>
      intro compilation
      obtain ⟨_, compiled, _, _, hcompiled, _⟩ :=
        exists_compileClass hprefixes configuration inflector iri
      obtain ⟨operations, hoperations⟩ :=
        configuration.exists_operationsOf hvalid inflector iri
      have hnext : ∃ next, ontology.compileNext configuration inflector compilation iri =
          .ok next := by
        unfold compileNext
        rw [hcompiled, hoperations]
        exact ⟨_, rfl⟩
      obtain ⟨next, hnext⟩ := hnext
      rw [List.foldlM_cons, hnext]
      exact ih next
  obtain ⟨compilation, hcompilation⟩ := hfold (ontology.selectedClasses configuration)
    { warnings := ontology.selectionWarnings configuration }
  exact ⟨compilation, compile_eq_ok_iff.2 ⟨hvalid, hcompilation⟩⟩

end Ontology

end OntoSchema
