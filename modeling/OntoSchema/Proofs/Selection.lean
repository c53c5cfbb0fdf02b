import OntoSchema.Proofs.Compilation
import OntoSchema.Proofs.Lint

/-!
# Selected classes

A configuration selects classes by a list of names. A name stands for the class of this IRI, else
for the first class with this local name. The selection holds the classes that the names stand for,
each once, in the order of their first mentions, and the linter objects to the names that stand for
nothing (`selection_exact`). There is one such list for every configuration (`selects_iff`).
-/

namespace OntoSchema

/-- A warning says that a name of a selection was skipped. -/
def Warning.isSkip : Warning → Bool
  | undeclaredClass .. => true
  | _ => false

namespace Ontology

variable {ontology : Ontology} {text iri other : String} {names selected : List String}
  {index : Nat}

/-- A text stands for a declared class: the class of this IRI, else the first one with this local
name. -/
def StandsFor (ontology : Ontology) (text iri : String) : Prop :=
  (text ∈ ontology.classIris ∧ iri = text) ∨
    (text ∉ ontology.classIris ∧ ∃ before after, ontology.classIris = before ++ iri :: after ∧
      Iri.localName iri = text ∧ ∀ other ∈ before, Iri.localName other ≠ text)

theorem findClass?_eq_some_iff :
    ontology.findClass? text = some iri ↔ ontology.StandsFor text iri := by
  unfold findClass? StandsFor
  split
  · rename_i found hfound
    have hmem := List.mem_of_find?_eq_some hfound
    have hsame := List.find?_some hfound
    obtain rfl : found = text := beq_iff_eq.1 hsame
    rw [Option.some.injEq]
    constructor
    · rintro rfl
      exact .inl ⟨hmem, rfl⟩
    · rintro (⟨_, rfl⟩ | ⟨hnone, _⟩)
      · rfl
      · exact absurd hmem hnone
  · rename_i hnone
    have hmem : text ∉ ontology.classIris := fun h =>
      List.find?_eq_none.1 hnone text h (beq_self_eq_true text)
    rw [List.find?_eq_some_iff_append]
    simp [hmem, and_left_comm]

/-- The linter knows the texts that stand for a class. -/
theorem declaresName_eq : ontology.declaresName text = (ontology.findClass? text).isSome := by
  rw [Bool.eq_iff_iff]
  unfold declaresName findClass?
  rw [List.any_eq_true]
  split
  · rename_i found hfound
    have hsame := List.find?_some hfound
    exact iff_of_true
      ⟨found, List.mem_of_find?_eq_some hfound, Bool.or_eq_true_iff.2 (.inl hsame)⟩ rfl
  · rename_i hnone
    rw [List.find?_isSome]
    refine exists_congr fun iri => and_congr_right fun hmem => ?_
    rw [Bool.or_eq_true, or_iff_right (List.find?_eq_none.1 hnone iri hmem)]

theorem findClass?_eq_none_iff :
    ontology.findClass? text = none ↔ ∀ iri, ¬ ontology.StandsFor text iri := by
  simp only [Option.eq_none_iff_forall_ne_some, ne_eq, findClass?_eq_some_iff]

theorem StandsFor.mem_classIris (h : ontology.StandsFor text iri) : iri ∈ ontology.classIris := by
  obtain ⟨hmem, rfl⟩ | ⟨_, before, after, hsplit, _⟩ := h
  · exact hmem
  · rw [hsplit]
    exact List.mem_append_right _ List.mem_cons_self

/-- A text stands for one class only. -/
theorem StandsFor.iff_eq (h : ontology.StandsFor text iri) :
    ontology.StandsFor text other ↔ other = iri := by
  rw [← findClass?_eq_some_iff] at h ⊢
  rw [h, Option.some.injEq, eq_comm]

/-- A name at some place of a list stands for a class. -/
def MentionedAt (ontology : Ontology) (names : List String) (index : Nat) (iri : String) : Prop :=
  ∃ text, names[index]? = some text ∧ ontology.StandsFor text iri

theorem mentionedAt_concat_iff : ontology.MentionedAt (names ++ [text]) index iri ↔
    ontology.MentionedAt names index iri ∨
      index = names.length ∧ ontology.StandsFor text iri := by
  unfold MentionedAt
  rcases Nat.lt_trichotomy index names.length with hlt | rfl | hgt
  · rw [List.getElem?_append_left hlt, or_iff_left fun h => hlt.ne h.1]
  · rw [List.getElem?_concat_length, List.getElem?_eq_none le_rfl]
    simp
  · rw [List.getElem?_eq_none (by simp; omega), List.getElem?_eq_none hgt.le]
    simp [hgt.ne']

theorem MentionedAt.lt_length (h : ontology.MentionedAt names index iri) :
    index < names.length := by
  obtain ⟨text, hat, _⟩ := h
  exact (List.getElem?_eq_some_iff.1 hat).1

/-- A list holds the classes that names stand for, in the order of their first mentions. -/
structure ListsMentions (ontology : Ontology) (names selected : List String) : Prop where
  mem_iff : ∀ iri, iri ∈ selected ↔ ∃ index, ontology.MentionedAt names index iri
  ordered : selected.Pairwise fun first second => ∃ index, ontology.MentionedAt names index first ∧
    ∀ later, ontology.MentionedAt names later second → index < later

namespace ListsMentions

theorem nodup (h : ontology.ListsMentions names selected) : selected.Nodup := by
  refine h.ordered.imp ?_
  rintro first _ ⟨index, hat, hlater⟩ rfl
  exact lt_irrefl index (hlater index hat)

/-- The order of first mentions leaves no choice. -/
theorem unique {others : List String} (h : ontology.ListsMentions names selected)
    (hothers : ontology.ListsMentions names others) : selected = others := by
  have hperm : selected.Perm others :=
    (List.perm_ext_iff_of_nodup h.nodup hothers.nodup).2 fun iri =>
      (h.mem_iff iri).trans (hothers.mem_iff iri).symm
  refine List.Perm.eq_of_pairwise ?_ h.ordered hothers.ordered hperm
  rintro first second _ _ ⟨index, hfirst, hlater⟩ ⟨other, hsecond, hearlier⟩
  exact absurd (hlater other hsecond) (hearlier index hfirst).asymm

theorem nil : ontology.ListsMentions [] [] where
  mem_iff iri := by simp [MentionedAt]
  ordered := .nil

/-- A name that stands for nothing adds nothing. -/
theorem skip (h : ontology.ListsMentions names selected)
    (hnone : ∀ iri, ¬ ontology.StandsFor text iri) :
    ontology.ListsMentions (names ++ [text]) selected := by
  have hsame : ∀ index iri, ontology.MentionedAt (names ++ [text]) index iri ↔
      ontology.MentionedAt names index iri := fun index iri => by
    rw [mentionedAt_concat_iff, or_iff_left fun hlast => hnone iri hlast.2]
  refine ⟨?_, ?_⟩
  · simpa only [hsame] using h.mem_iff
  · simpa only [hsame] using h.ordered

/-- Earlier mentions come before a new name. -/
theorem ordered_concat (h : ontology.ListsMentions names selected) (text : String) :
    selected.Pairwise fun first second =>
      ∃ index, ontology.MentionedAt (names ++ [text]) index first ∧
        ∀ later, ontology.MentionedAt (names ++ [text]) later second → index < later := by
  refine h.ordered.imp ?_
  rintro first second ⟨index, hat, hlater⟩
  refine ⟨index, mentionedAt_concat_iff.2 (.inl hat), fun later hsecond => ?_⟩
  rcases mentionedAt_concat_iff.1 hsecond with hsecond | ⟨rfl, _⟩
  · exact hlater later hsecond
  · exact hat.lt_length

theorem exists_mentionedAt_concat (text iri : String) :
    (∃ index, ontology.MentionedAt (names ++ [text]) index iri) ↔
      (∃ index, ontology.MentionedAt names index iri) ∨ ontology.StandsFor text iri := by
  simp only [mentionedAt_concat_iff, exists_or, exists_eq_left]

/-- A name of a class that is selected already adds nothing. -/
theorem again (h : ontology.ListsMentions names selected) (hname : ontology.StandsFor text iri)
    (hmem : iri ∈ selected) : ontology.ListsMentions (names ++ [text]) selected where
  mem_iff other := by
    rw [exists_mentionedAt_concat, ← h.mem_iff, hname.iff_eq, or_iff_left_of_imp]
    rintro rfl
    exact hmem
  ordered := h.ordered_concat text

/-- A name of another class adds this class behind the others. -/
theorem next (h : ontology.ListsMentions names selected) (hname : ontology.StandsFor text iri)
    (hmem : iri ∉ selected) : ontology.ListsMentions (names ++ [text]) (selected ++ [iri]) where
  mem_iff other := by
    rw [exists_mentionedAt_concat, ← h.mem_iff, hname.iff_eq, List.mem_append,
      List.mem_singleton]
  ordered := by
    rw [List.pairwise_append]
    refine ⟨h.ordered_concat text, List.pairwise_singleton _ _, ?_⟩
    intro first hfirst second hsecond
    obtain rfl := List.mem_singleton.1 hsecond
    obtain ⟨index, hat⟩ := (h.mem_iff first).1 hfirst
    refine ⟨index, mentionedAt_concat_iff.2 (.inl hat), fun later hlater => ?_⟩
    rcases mentionedAt_concat_iff.1 hlater with hlater | ⟨rfl, _⟩
    · exact absurd ((h.mem_iff second).2 ⟨later, hlater⟩) hmem
    · exact hat.lt_length

end ListsMentions

/-- The selection goes on with what the remaining names stand for. -/
theorem listsMentions_selectFrom {done rest reversed : List String}
    (h : ontology.ListsMentions done reversed.reverse) :
    ontology.ListsMentions (done ++ rest) (ontology.selectFrom reversed rest) := by
  induction rest generalizing done reversed with
  | nil => rwa [List.append_nil]
  | cons text rest ih =>
    rw [List.append_cons]
    unfold selectFrom
    split
    · rename_i hnone
      exact ih (h.skip (findClass?_eq_none_iff.1 hnone))
    · rename_i iri hsome
      have hname := findClass?_eq_some_iff.1 hsome
      split
      · rename_i hmem
        exact ih (h.again hname (List.mem_reverse.2 (List.contains_iff_mem.1 hmem)))
      · rename_i hmem
        apply ih
        rw [List.reverse_cons]
        refine h.next hname fun hin => hmem ?_
        exact List.contains_iff_mem.2 (List.mem_reverse.1 hin)

theorem listsMentions_selectedClasses {configuration : Configuration}
    (hnames : configuration.classes = some names) :
    ontology.ListsMentions names (ontology.selectedClasses configuration) := by
  unfold selectedClasses
  rw [hnames]
  have hnil : ontology.ListsMentions [] [].reverse := .nil
  exact listsMentions_selectFrom hnil

/-- A configuration selects the classes that its names stand for, and all declared classes if it has
no list of names. -/
def Selects (ontology : Ontology) (configuration : Configuration) (selected : List String) : Prop :=
  match configuration.classes with
  | none => selected = ontology.classIris
  | some names => ontology.ListsMentions names selected

theorem selects_iff {configuration : Configuration} : ontology.Selects configuration selected ↔
    selected = ontology.selectedClasses configuration := by
  unfold Selects
  split
  · rename_i hall
    unfold selectedClasses
    rw [hall]
  · rename_i names hnames
    have hlists : ontology.ListsMentions names (ontology.selectedClasses configuration) :=
      listsMentions_selectedClasses hnames
    exact ⟨fun h => h.unique hlists, fun h => h ▸ hlists⟩

section Skips

variable {configuration : Configuration} {inflector : Inflector}

theorem not_isSkip_of_mem_renameWarnings {build : ClassBuild} {options : SchemaOptions}
    {warning : Warning} (h : warning ∈ build.renameWarnings options inflector) :
    ¬ warning.isSkip = true := by
  unfold ClassBuild.renameWarnings at h
  split at h
  · cases h
  · obtain ⟨_, _, rfl⟩ := List.mem_map.1 h
    exact Bool.false_ne_true

theorem not_isSkip_of_mem_policyWarnings {policy : Option ClassPolicy} {warning : Warning}
    (h : warning ∈ policyWarnings iri policy) : ¬ warning.isSkip = true := by
  unfold policyWarnings at h
  split at h
  · cases h
  · rcases List.mem_append.1 h with h | h
    all_goals
      obtain ⟨_, _, rfl⟩ := List.mem_map.1 h
      exact Bool.false_ne_true

/-- A class skips no names of the selection. -/
theorem filter_isSkip_of_compileNext {compilation next : Compilation}
    (h : ontology.compileNext configuration inflector compilation iri = .ok next) :
    next.warnings.filter Warning.isSkip = compilation.warnings.filter Warning.isSkip := by
  obtain ⟨compiled, operations, hcompiled, _, _, rfl⟩ := exists_of_compileNext h
  obtain ⟨build, hwarnings⟩ := exists_renameWarnings_of_compileClass hcompiled
  unfold Compilation.add
  rw [List.filter_append, List.filter_append, List.filter_append, hwarnings,
    List.filter_eq_nil_iff.2 fun _ => not_isSkip_of_mem_renameWarnings,
    List.filter_eq_nil_iff.2 fun _ => not_isSkip_of_mem_policyWarnings]
  split <;> simp [Warning.isSkip]

theorem filter_isSkip_of_foldlM {iris : List String} {compilation final : Compilation}
    (h : iris.foldlM (ontology.compileNext configuration inflector) compilation = .ok final) :
    final.warnings.filter Warning.isSkip = compilation.warnings.filter Warning.isSkip := by
  induction iris generalizing compilation with
  | nil => exact Except.ok.inj h ▸ rfl
  | cons iri rest ih =>
    obtain ⟨next, hnext, hrest⟩ := foldlM_compileNext_cons h
    rw [ih hrest, filter_isSkip_of_compileNext hnext]

/-- A compilation skips the names that stand for nothing. -/
theorem filter_isSkip_of_compile {compilation : Compilation}
    (h : ontology.compile configuration inflector = .ok compilation) :
    compilation.warnings.filter Warning.isSkip = ontology.selectionWarnings configuration := by
  rw [filter_isSkip_of_foldlM (compile_eq_ok_iff.1 h).2, List.filter_eq_self]
  intro warning hmem
  obtain ⟨_, _, rfl⟩ := List.mem_map.1 hmem
  rfl

end Skips

end Ontology

namespace Configuration

variable {configuration : Configuration} {ontology : Ontology} {names : List String} {index : Nat}

/-- The linter objects to the name at this place of the selection. -/
def ObjectsAt (configuration : Configuration) (ontology : Ontology) (index : Nat) : Prop :=
  ∃ finding ∈ configuration.lint (some ontology),
    finding.code = "W003" ∧ finding.path = "/classes/" ++ toString index

/-- The findings on the selection are one for each name that is not declared. -/
theorem filter_lint (configuration : Configuration) (ontology : Ontology) :
    (configuration.lint (some ontology)).filter (·.code == "W003") =
      (configuration.classes.getD []).zipIdx.filterMap fun entry =>
        if ontology.declaresName entry.1 then none
        else some (.undeclaredSelection entry.2 entry.1 ontology.iri) := by
  have hsections : (lintSections configuration.annotations).filter (·.code == "W003") = [] := by
    refine List.filter_eq_nil_iff.2 fun finding hmem => ?_
    simp [code_of_mem_lintSections hmem]
  unfold lint lintClasses
  rw [List.filter_append, hsections, List.append_nil, List.filter_append,
    List.filter_eq_nil_iff.2, List.nil_append, Option.map_some, Option.getD_some,
    List.filter_append, List.filter_eq_nil_iff.2, List.nil_append, List.filter_eq_self.2]
  · intro finding hmem
    obtain ⟨entry, _, h⟩ := List.mem_filterMap.1 hmem
    dsimp only at h
    split at h
    · cases h
    · exact Option.some.inj h ▸ rfl
  · intro finding hmem
    obtain ⟨_, _, rfl⟩ := List.mem_map.1 hmem
    exact Bool.false_ne_true
  · intro finding hmem
    obtain ⟨_, _, hmem⟩ := List.mem_flatMap.1 hmem
    rcases code_of_mem_lintPolicy hmem with h | h <;> simp [h]

theorem objectsAt_iff (hnames : configuration.classes = some names) :
    configuration.ObjectsAt ontology index ↔
      ∃ text, names[index]? = some text ∧ ∀ iri, ¬ ontology.StandsFor text iri := by
  have hfindings : configuration.ObjectsAt ontology index ↔
      ∃ finding ∈ (configuration.lint (some ontology)).filter (·.code == "W003"),
        finding.path = "/classes/" ++ toString index := by
    simp only [ObjectsAt, List.mem_filter, beq_iff_eq, and_assoc]
  rw [hfindings, filter_lint, hnames, Option.getD_some]
  simp only [List.mem_filterMap, Prod.exists, List.mk_mem_zipIdx_iff_getElem?,
    Ontology.declaresName_eq, ← Ontology.findClass?_eq_none_iff]
  constructor
  · rintro ⟨finding, ⟨text, other, hat, hfinding⟩, hpath⟩
    split at hfinding
    · cases hfinding
    · rename_i hnone
      obtain rfl := Option.some.inj hfinding
      have hdigits : Nat.toDigits 10 other = Nat.toDigits 10 index := by
        have htext := (String.append_right_inj _).1 hpath
        rwa [Nat.toString_eq_ofList_toDigits, Nat.toString_eq_ofList_toDigits,
          String.ofList_inj] at htext
      obtain rfl : other = index := by
        rw [← @Nat.ofDigitChars_ten_toDigits other, hdigits, Nat.ofDigitChars_ten_toDigits]
      exact ⟨text, hat, Option.not_isSome_iff_eq_none.1 hnone⟩
  · rintro ⟨text, hat, hnone⟩
    exact ⟨_, ⟨text, index, hat, by rw [hnone]; rfl⟩, rfl⟩

/-- The compiler warns about the names that the linter objects to. -/
theorem messages_lint (configuration : Configuration) (ontology : Ontology) :
    ((configuration.lint (some ontology)).filter (·.code == "W003")).map (·.message ++ ", skipping")
      = (ontology.selectionWarnings configuration).map Warning.message := by
  rw [filter_lint]
  unfold Ontology.selectionWarnings
  generalize configuration.classes.getD [] = names
  generalize 0 = start
  induction names generalizing start with
  | nil => rfl
  | cons name rest ih =>
    rw [List.zipIdx_cons, List.filterMap_cons, List.filter_cons, Ontology.declaresName_eq]
    cases ontology.findClass? name with
    | some iri => exact ih (start + 1)
    | none => exact congrArg _ (ih (start + 1))

/-- A text is resolved to the class that it stands for. A configuration with a list of names selects
the classes that the names stand for, each once and in the order of their first mentions. The linter
objects to the names that stand for nothing, which are those that a compilation warns about. -/
theorem selection_exact (hnames : configuration.classes = some names) :
    (∀ text iri, ontology.findClass? text = some iri ↔ ontology.StandsFor text iri) ∧
      ontology.ListsMentions names (ontology.selectedClasses configuration) ∧
      (ontology.selectedClasses configuration).Nodup ∧
      (∀ iri ∈ ontology.selectedClasses configuration, iri ∈ ontology.classIris) ∧
      (∀ index, configuration.ObjectsAt ontology index ↔
        ∃ text, names[index]? = some text ∧ ∀ iri, ¬ ontology.StandsFor text iri) ∧
      ∀ inflector compilation, ontology.compile configuration inflector = .ok compilation →
        (compilation.warnings.filter Warning.isSkip).map Warning.message =
          ((configuration.lint (some ontology)).filter (·.code == "W003")).map
            (·.message ++ ", skipping") := by
  have hlists : ontology.ListsMentions names (ontology.selectedClasses configuration) :=
    Ontology.listsMentions_selectedClasses hnames
  refine ⟨fun _ _ => Ontology.findClass?_eq_some_iff, hlists, hlists.nodup, fun iri hmem => ?_,
    fun index => objectsAt_iff hnames, fun inflector compilation h => ?_⟩
  · obtain ⟨_, _, _, hname⟩ := (hlists.mem_iff iri).1 hmem
    exact hname.mem_classIris
  · rw [Ontology.filter_isSkip_of_compile h, messages_lint]

/-- Classes share local names, one of these is an IRI as well, and one class is declared twice. -/
def editions : Ontology where
  iri := "e"
  prefixes := some (.ofList [("", "a#")])
  classes := [{ iri := "a#Book" }, { iri := "Book" }, { iri := "a#Page" }, { iri := "b#Page" },
    { iri := "a#Book" }]

def reissued : Configuration where
  classes := some ["Page", "Cover", "Book", "a#Page", "b#Page", "Book"]

/-- Pages are mentioned twice and selected once, and nothing is a cover. -/
theorem selection_exact_editions :
    editions.selectedClasses reissued = ["a#Page", "Book", "b#Page"] ∧
      editions.ListsMentions ["Page", "Cover", "Book", "a#Page", "b#Page", "Book"]
        ["a#Page", "Book", "b#Page"] ∧
      reissued.ObjectsAt editions 1 ∧
      ∃ compilation, editions.compile reissued .english = .ok compilation ∧
        (compilation.warnings.filter Warning.isSkip).map Warning.message =
          ["class Cover is not declared in e, skipping"] := by
  have hnames : reissued.classes =
      some ["Page", "Cover", "Book", "a#Page", "b#Page", "Book"] := rfl
  obtain ⟨_, hlists, _, _, hobjects, hcompile⟩ := @selection_exact reissued editions _ hnames
  have hselected : editions.selectedClasses reissued = ["a#Page", "Book", "b#Page"] := by
    decide +kernel
  have hnone : editions.findClass? "Cover" = none := by decide +kernel
  have hprefixes : editions.prefixes? = some (.ofList [("", "a#")]) := rfl
  have hvalid : reissued.validate = .ok () := rfl
  obtain ⟨compilation, hcompilation⟩ := Ontology.exists_compile hprefixes hvalid .english
  refine ⟨hselected, hselected ▸ hlists, ?_, compilation, hcompilation, ?_⟩
  · exact (hobjects 1).2 ⟨"Cover", rfl, Ontology.findClass?_eq_none_iff.1 hnone⟩
  · rw [hcompile .english compilation hcompilation]
    decide +kernel

end Configuration

end OntoSchema
