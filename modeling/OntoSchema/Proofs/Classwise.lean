import OntoSchema.Proofs.MergedTables
import OntoSchema.Proofs.Selection

/-!
# A compilation is the compilation of its classes

Nothing passes from one class to the next: under a name stands what the last class of this name is
compiled to on its own, and the documentation is that of the classes, merged in their order, so that
it holds every text unless a later class has another one (`compile_classwise`). So a class with a
schema name of its own has the same schema and the same paths whatever else is selected.
-/

namespace OntoSchema.Ontology

variable {ontology : Ontology} {configuration : Configuration} {inflector : Inflector}
  {iris : List String} {iri name : String}

/-- The classes of a run can be compiled one by one, and their documentation is merged in order. -/
theorem exists_mapM_of_foldlM {compilation final : Compilation}
    (h : iris.foldlM (ontology.compileNext configuration inflector) compilation = .ok final) :
    ∃ compiled, iris.mapM (ontology.compileClass configuration inflector) = .ok compiled ∧
      final.markdown =
        (compiled.map ClassSchema.markdown).foldl MarkdownTables.merge compilation.markdown := by
  induction iris generalizing compilation with
  | nil =>
    cases h
    exact ⟨[], rfl, rfl⟩
  | cons iri rest ih =>
    obtain ⟨next, hnext, hrest⟩ := foldlM_compileNext_cons h
    obtain ⟨first, _, hfirst, _, _, rfl⟩ := exists_of_compileNext hnext
    obtain ⟨others, hothers, hmarkdown⟩ := ih hrest
    refine ⟨first :: others, ?_, hmarkdown⟩
    rw [List.mapM_cons, hfirst, hothers]
    rfl

/-- No other class of a list has the schema name of a class. -/
def Alone (ontology : Ontology) (iris : List String) (iri : String) : Prop :=
  ∀ other ∈ iris, ontology.schemaName other = ontology.schemaName iri → other = iri

theorem Alone.lastNamed (h : ontology.Alone iris iri) (hmem : iri ∈ iris)
    (hname : ontology.schemaName iri = .ok name) : ontology.LastNamed iris name iri := by
  obtain ⟨other, hother, hlast⟩ := exists_lastNamed ⟨iri, hmem, hname⟩
  obtain rfl := h other hother (hlast.schemaName_eq.trans hname.symm)
  exact hlast

/-- A class has its own schema and operations in a compilation that selects no other class of its
name. -/
theorem exists_of_alone {compilation : Compilation}
    (h : ontology.compile configuration inflector = .ok compilation)
    (hmem : iri ∈ ontology.selectedClasses configuration)
    (halone : ontology.Alone (ontology.selectedClasses configuration) iri)
    (hname : ontology.schemaName iri = .ok name) :
    ∃ compiled operations,
      ontology.compileClass configuration inflector iri = .ok compiled ∧
      configuration.operationsOf inflector iri = .ok operations ∧
      compilation.schemas.get? name = some compiled.schema ∧
      compilation.operations.get? name = some operations :=
  get?_of_lastNamed (compile_eq_ok_iff.1 h).2 (halone.lastNamed hmem hname)

/-- The documentation of a compilation has all tables of the classes, and in these the text of the
last class that has one. -/
theorem markdown_of_compile {compilation : Compilation}
    (h : ontology.compile configuration inflector = .ok compilation) :
    ∃ compiled, (ontology.selectedClasses configuration).mapM
        (ontology.compileClass configuration inflector) = .ok compiled ∧
      compilation.markdown = (compiled.map ClassSchema.markdown).foldl MarkdownTables.merge ∅ ∧
      (∀ source, compilation.markdown.contains source = true ↔
        ∃ result ∈ compiled, result.markdown.contains source = true) ∧
      ∀ source target text, compilation.markdown.text? source target = some text ↔
        MarkdownTables.LastText (compiled.map ClassSchema.markdown) source target text := by
  obtain ⟨compiled, hcompiled, hmarkdown⟩ := exists_mapM_of_foldlM (compile_eq_ok_iff.1 h).2
  refine ⟨compiled, hcompiled, hmarkdown, fun source => ?_, fun source target text => ?_⟩
  · have hempty : ¬ NameMap.contains (∅ : MarkdownTables) source = true := Bool.false_ne_true
    rw [hmarkdown, MarkdownTables.contains_foldl_merge, or_iff_right hempty]
    simp only [List.mem_map, exists_exists_and_eq_and]
  · rw [hmarkdown, MarkdownTables.text?_foldl_merge_eq_some_iff]

/-- Compilations with different selections agree on a class that is alone with its name in both. -/
theorem get?_eq_of_alone {compilation other : Compilation} {classes : Option (List String)}
    (h : ontology.compile configuration inflector = .ok compilation)
    (hother : ontology.compile { configuration with classes } inflector = .ok other)
    (hname : ontology.schemaName iri = .ok name)
    (hmem : iri ∈ ontology.selectedClasses configuration)
    (halone : ontology.Alone (ontology.selectedClasses configuration) iri)
    (hmem' : iri ∈ ontology.selectedClasses { configuration with classes })
    (halone' : ontology.Alone (ontology.selectedClasses { configuration with classes }) iri) :
    other.schemas.get? name = compilation.schemas.get? name ∧
      other.operations.get? name = compilation.operations.get? name := by
  obtain ⟨compiled, operations, hcompiled, hoperations, hschema, hpaths⟩ :=
    exists_of_alone h hmem halone hname
  obtain ⟨compiled', operations', hcompiled', hoperations', hschema', hpaths'⟩ :=
    exists_of_alone hother hmem' halone' hname
  -- The selection is no part of what the compilation of one class reads.
  obtain rfl : compiled' = compiled := Except.ok.inj (hcompiled'.symm.trans hcompiled)
  obtain rfl : operations' = operations := Except.ok.inj (hoperations'.symm.trans hoperations)
  exact ⟨hschema'.trans hschema.symm, hpaths'.trans hpaths.symm⟩

/-- The names of a compilation are those of the selected classes; under each stand the schema and
the operations that the last class of this name has on its own. The documentation is that of the
classes merged in order: it has all their tables, and in these the text of the last class that has
one. A class that is alone with its name is compiled alike under every selection. -/
theorem compile_classwise {compilation : Compilation}
    (h : ontology.compile configuration inflector = .ok compilation) :
    ∃ selected, (∀ iris, ontology.Selects configuration iris ↔ iris = selected) ∧
    (∀ name,
      (compilation.schemas.contains name = true ↔ ontology.NamedIn selected name) ∧
      (compilation.operations.contains name = true ↔ ontology.NamedIn selected name)) ∧
    (∀ name iri, ontology.LastNamed selected name iri →
      ∃ compiled operations,
        ontology.compileClass configuration inflector iri = .ok compiled ∧
        configuration.operationsOf inflector iri = .ok operations ∧
        compilation.schemas.get? name = some compiled.schema ∧
        compilation.operations.get? name = some operations) ∧
    (∃ compiled, selected.mapM (ontology.compileClass configuration inflector) = .ok compiled ∧
      compilation.markdown = (compiled.map ClassSchema.markdown).foldl MarkdownTables.merge ∅ ∧
      (∀ source, compilation.markdown.contains source = true ↔
        ∃ result ∈ compiled, result.markdown.contains source = true) ∧
      ∀ source target text, compilation.markdown.text? source target = some text ↔
        MarkdownTables.LastText (compiled.map ClassSchema.markdown) source target text) ∧
    ∀ classes other, ontology.compile { configuration with classes } inflector = .ok other →
      ∀ others, ontology.Selects { configuration with classes } others →
        ∀ iri name, ontology.schemaName iri = .ok name →
          iri ∈ selected → ontology.Alone selected iri →
          iri ∈ others → ontology.Alone others iri →
            other.schemas.get? name = compilation.schemas.get? name ∧
              other.operations.get? name = compilation.operations.get? name := by
  obtain ⟨_, hrun⟩ := compile_eq_ok_iff.1 h
  refine ⟨ontology.selectedClasses configuration, fun _ => selects_iff,
    fun name => contains_iff_namedIn hrun, fun name iri => get?_of_lastNamed hrun,
    markdown_of_compile h, ?_⟩
  intro classes other hother others hothers iri name hname hmem halone hmem' halone'
  rw [selects_iff.1 hothers] at hmem' halone'
  exact get?_eq_of_alone h hother hname hmem halone hmem' halone'

/-- Two rooms of different namespaces that share a schema name, and a house, all with notes. -/
def building : Ontology where
  iri := "e"
  prefixes := some (.ofList [("", "e#")])
  classes := [{ iri := "a#Room", annotations := [⟨"note", "a hall"⟩] },
    { iri := "e#House", annotations := [⟨"note", "four walls"⟩] },
    { iri := "b#Room", annotations := [⟨"note", "a cell"⟩] }]
  dataProperties := [{ iri := "e#area", domains := ["b#Room"] }]

/-- The documentation has a section of notes on the classes of these names. -/
def furnished (classes : Option (List String)) : Configuration where
  annotations := some { markdown := [{ source := "note", heading := "Notes" }] }
  classes

/-- The note on the second room stays, and so does the one on the house before it. -/
theorem compile_classwise_building :
    ∃ compilation other room house,
      building.compile (furnished none) .english = .ok compilation ∧
      building.compile (furnished (some ["House"])) .english = .ok other ∧
      building.compileClass (furnished none) .english "b#Room" = .ok room ∧
      compilation.schemas.get? "Room" = some room.schema ∧
      other.schemas.get? "House" = some house ∧ compilation.schemas.get? "House" = some house ∧
      compilation.markdown.text? "note" "Room" = some "a cell" ∧
      compilation.markdown.text? "note" "House" = some "four walls" := by
  have hprefixes : building.prefixes? = some (.ofList [("", "e#")]) := rfl
  have hvalid : ∀ classes, (furnished classes).validate = .ok () := fun _ => rfl
  obtain ⟨compilation, hcompile⟩ := exists_compile hprefixes (hvalid none) .english
  obtain ⟨other, hother⟩ := exists_compile hprefixes (hvalid (some ["House"])) .english
  obtain ⟨selected, hselected, _, hlast, hmarkdown, hsame⟩ := compile_classwise hcompile
  obtain ⟨compiled, hcompiled, _, _, htexts⟩ := hmarkdown
  obtain rfl : ["a#Room", "e#House", "b#Room"] = selected := (hselected _).1 rfl
  have hroom : building.LastNamed ["a#Room", "e#House", "b#Room"] "Room" "b#Room" :=
    ⟨["a#Room", "e#House"], [], rfl, by decide +kernel, nofun⟩
  obtain ⟨room, _, hroom, _, hget, _⟩ := hlast "Room" "b#Room" hroom
  have hname : building.schemaName "e#House" = .ok "House" := by decide +kernel
  have halone : building.Alone ["a#Room", "e#House", "b#Room"] "e#House" := by
    unfold Alone
    decide +kernel
  have halone' : building.Alone ["e#House"] "e#House" := fun _ hm _ => List.mem_singleton.1 hm
  have hselects : building.Selects (furnished (some ["House"])) ["e#House"] :=
    selects_iff.2 (by decide +kernel)
  obtain ⟨hschema, _⟩ := hsame (some ["House"]) other hother ["e#House"] hselects "e#House" "House"
    hname (by decide +kernel) halone List.mem_cons_self halone'
  obtain ⟨house, _, _, _, hhouse, _⟩ :=
    exists_of_alone hother (selects_iff.1 hselects ▸ List.mem_cons_self)
      (selects_iff.1 hselects ▸ halone') hname
  have hread : ∀ target text, (["a#Room", "e#House", "b#Room"].mapM
      (building.compileClass (furnished none) .english)).map (fun compiled =>
        (compiled.map ClassSchema.markdown).reverse.findSome? (·.text? "note" target)) =
          .ok (some text) → compilation.markdown.text? "note" target = some text := by
    intro target text h
    rw [hcompiled] at h
    exact (htexts _ _ _).2 (MarkdownTables.lastText_iff.2 (Except.ok.inj h))
  exact ⟨compilation, other, room, house.schema, hcompile, hother, hroom, hget, hhouse,
    hschema ▸ hhouse, hread _ _ (by decide +kernel), hread _ _ (by decide +kernel)⟩

end OntoSchema.Ontology
