import OntoSchema.Proofs.InheritanceModes

/-!
# The references of a compiled class

A class that is no enumeration, in a configuration that follows and uses inheritance, refers to
nearest superclasses. `KeepsReferences` says what the two stages, which build references and prune
them, come to in terms of classes: a reference is left when no class that was pruned has its name.
So the parts of a compiled class are nothing, or references to nearest superclasses that bear
something, in the order of their names, with a bare object at the end (`allOf_of_compileClass`).
-/

namespace OntoSchema

theorem componentPath_append_le {first second : String} (h : first ≤ second) :
    componentPath ++ first ≤ componentPath ++ second := by
  change ¬ (componentPath ++ second).toList < (componentPath ++ first).toList
  rw [String.toList_append, String.toList_append]
  exact List.append_left_le h

namespace ClassBuild

/-- References are in the order of the names they refer to. -/
theorem inheritanceParts_of_sorted {names sorted : List String} (hperm : sorted.Perm names)
    (hsorted : sorted.Pairwise (· ≤ ·)) (hne : names ≠ []) :
    inheritanceParts names = sorted.map .referenceTo ++ [.ofType .object] := by
  have hreferences : sortedReferences names = sorted.map (componentPath ++ ·) := by
    have hsame : (sortedReferences names).Perm (sorted.map (componentPath ++ ·)) :=
      (sortedReferences_perm names).trans (hperm.map _).symm
    exact hsame.eq_of_pairwise (fun _ _ _ _ => String.le_antisymm) (pairwise_sortedReferences names)
      (List.pairwise_map.2 (hsorted.imp componentPath_append_le))
  rw [inheritanceParts_of_ne_nil hne, hreferences, List.map_map]
  rfl

end ClassBuild

namespace Ontology

variable {ontology : Ontology} {prefixes : NameMap String} {configuration : Configuration}
  {inflector : Inflector} {iri superclass : String} {compiled : ClassSchema}

/-- A compiled class has gone through a visit, the conversion of arrays and the references. -/
theorem exists_linked_of_compileClass
    (h : ontology.compileClass configuration inflector iri = .ok compiled) :
    ∃ prefixes visited, ontology.prefixes? = some prefixes ∧
      (ontology.firstBuild prefixes configuration.schema iri).visit ontology configuration =
        .ok visited ∧
      visited.Visited ontology prefixes configuration iri ∧
      compiled.schema = ((visited.converted configuration inflector).linked ontology prefixes
        configuration.schema inflector).schema ∧
      compiled.referenced = ((visited.converted configuration inflector).linked ontology prefixes
        configuration.schema inflector).referenced := by
  obtain ⟨prefixes, visited, hprefixes, _, hvisit, hvisited, _⟩ := exists_stages_of_compileClass h
  obtain rfl := Except.ok.inj ((compileClass_eq hprefixes hvisit hvisited).symm.trans h)
  obtain ⟨markdown, hstaged⟩ :=
    ClassBuild.exists_staged_eq ontology prefixes configuration inflector visited
  refine ⟨prefixes, visited, hprefixes, hvisit, hvisited, ClassBuild.schema_staged, ?_⟩
  dsimp only
  rw [hstaged]

/-- How the parts of a compiled class come about: `met` are the classes that the visit refers to,
and `kept` the superclasses whose references are left. -/
structure KeepsReferences (ontology : Ontology) (inflector : Inflector) (prefixes : NameMap String)
    (iri : String) (compiled : ClassSchema) (met : NameSet) (kept : List String) : Prop where
  prefixes? : ontology.prefixes? = some prefixes
  above : ∀ superclass ∈ ontology.superclasses iri, superclass ∈ met
  mayReferTo : ∀ other ∈ met, ontology.MayReferTo iri other
  mem_referenced : ∀ other, other ∈ compiled.referenced ↔
    other ∈ met ∧ ontology.Bears inflector (· ∈ compiled.schema.propertyNames) other
  nodup : kept.Nodup
  mem_kept : ∀ superclass, superclass ∈ kept ↔ ontology.Nearest iri superclass ∧
    ∀ other ∈ met, other ∉ compiled.referenced →
      qualifiedName prefixes other ≠ qualifiedName prefixes superclass
  allOf : compiled.schema.allOf =
    ClassBuild.inheritanceParts (kept.map (qualifiedName prefixes))

namespace KeepsReferences

variable {met : NameSet} {kept : List String}

/-- A superclass that is referred to survives, since otherwise the pruning would take its own
name. -/
theorem referenced_of_kept (h : KeepsReferences ontology inflector prefixes iri compiled met kept)
    (hkept : superclass ∈ kept) : superclass ∈ compiled.referenced := by
  obtain ⟨⟨habove, _⟩, hapart⟩ := (h.mem_kept superclass).1 hkept
  by_contra hpruned
  exact hapart superclass (h.above superclass habove) hpruned rfl

end KeepsReferences

/-- A schema without references to superclasses has no parts. -/
theorem allOf_eq_nil_of_compileClass
    (h : ontology.compileClass configuration inflector iri = .ok compiled)
    (hoff : configuration.schema.followReferences = false ∨
      configuration.schema.useInheritanceReferences = false ∨
        (ontology.enumeration? iri).isSome) : compiled.schema.allOf = [] := by
  obtain ⟨prefixes, visited, hprefixes, hvisit, hvisited, hschema, _⟩ :=
    exists_linked_of_compileClass h
  have hrefers : (visited.converted configuration inflector).refersToSuperclasses
      configuration.schema = false := by
    unfold ClassBuild.refersToSuperclasses
    rcases hoff with hfollow | huse | hclass
    · rw [hfollow, Bool.false_and, Bool.and_false]
    · rw [huse, Bool.and_false, Bool.and_false]
    · obtain ⟨values, hvalues⟩ := Option.isSome_iff_exists.1 hclass
      obtain rfl := Except.ok.inj ((ClassBuild.visit_of_enumeration hvalues).symm.trans hvisit)
      rw [ClassBuild.isEnum_converted]
      rfl
  have hparts : (visited.converted configuration inflector).schema.allOf = [] :=
    (ClassBuild.allOf_converted _ _ _).trans hvisited.allOf
  rw [hschema, ClassBuild.allOf_linked hparts, hrefers]
  rfl

/-- Both stages work on names, but what they leave can be said of classes. -/
theorem exists_keepsReferences
    (h : ontology.compileClass configuration inflector iri = .ok compiled)
    (hclass : ontology.enumeration? iri = none)
    (hfollow : configuration.schema.followReferences = true)
    (huse : configuration.schema.useInheritanceReferences = true) :
    ∃ prefixes met kept, KeepsReferences ontology inflector prefixes iri compiled met kept := by
  obtain ⟨prefixes, visited, hprefixes, hvisit, hvisited, hschema, hreferenced⟩ :=
    exists_linked_of_compileClass h
  obtain ⟨visited', hvisit', hgrows⟩ := ClassBuild.grows_of_visit configuration hprefixes hclass
  obtain rfl : visited' = visited := Except.ok.inj (hvisit'.symm.trans hvisit)
  have habove : ∀ superclass ∈ ontology.superclasses iri,
      superclass ∈ (visited'.converted configuration inflector).referenced := fun superclass =>
    ClassBuild.mem_referenced_converted hfollow hgrows
  have hnames : ∀ name,
      name ∈ (visited'.converted configuration inflector).schema.propertyNames ↔
        name ∈ compiled.schema.propertyNames := by
    intro name
    rw [hschema]
    rfl
  have hmem : ∀ other, other ∈ compiled.referenced ↔
      other ∈ (visited'.converted configuration inflector).referenced ∧
        ontology.isLoadBearing inflector (visited'.converted configuration inflector).schema
          other = true := by
    intro other
    rw [hreferenced]
    exact NameSet.mem_filter
  have hparts : (visited'.converted configuration inflector).schema.allOf = [] :=
    (ClassBuild.allOf_converted _ _ _).trans hvisited.allOf
  refine ⟨prefixes, (visited'.converted configuration inflector).referenced,
    ((visited'.converted configuration inflector).nearestAncestors ontology).filter fun iri =>
      !((visited'.converted configuration inflector).strippedNames ontology prefixes
        inflector).contains (qualifiedName prefixes iri), ?_⟩
  constructor
  case prefixes? => exact hprefixes
  case above => exact habove
  case mayReferTo =>
    intro other hother
    rw [ClassBuild.referenced_converted] at hother
    exact mayReferTo_of_grows hgrows hother
  case mem_referenced =>
    intro other
    rw [hmem, isLoadBearing_iff hnames]
  case nodup =>
    have hprocessed := NameSet.nodup (visited'.converted configuration inflector).processed
    exact ((hprocessed.filter _).filter _).filter _
  case mem_kept =>
    intro superclass
    rw [List.mem_filter, ClassBuild.mem_nearestAncestors_iff
      (fun other => ClassBuild.mem_ancestors_converted_iff hfollow hgrows) habove,
      Bool.not_eq_true', List.contains_eq_mem, decide_eq_false_iff_not,
      ClassBuild.mem_strippedNames]
    refine and_congr_right fun _ => ?_
    -- The names that the pruning takes are those of the classes that were met and do not survive.
    simp only [hmem, not_exists, not_and, Bool.not_eq_true]
    exact forall₂_congr fun other hother => by rw [forall_prop_of_true hother]
  case allOf =>
    rw [hschema, ClassBuild.allOf_linked hparts,
      if_pos (ClassBuild.refersToSuperclasses_converted hfollow huse hgrows)]

/-- Parts that refer to nearest superclasses, as a pruned schema has them. -/
structure ListsParents (ontology : Ontology) (inflector : Inflector) (iri : String)
    (compiled : ClassSchema) (parents names : List String) : Prop where
  nodup : parents.Nodup
  schemaNames : parents.mapM ontology.schemaName = .ok names
  ascending : names.Pairwise (· ≤ ·)
  allOf : compiled.schema.allOf = names.map .referenceTo ++ [.ofType .object]
  nearest : ∀ superclass ∈ parents, ontology.Nearest iri superclass
  referenced : ∀ superclass ∈ parents, superclass ∈ compiled.referenced
  bears : ∀ superclass ∈ parents,
    ontology.Bears inflector (· ∈ compiled.schema.propertyNames) superclass

/-- The superclasses that are kept, in the order of their names. -/
theorem KeepsReferences.exists_listsParents {met : NameSet} {kept : List String}
    (h : KeepsReferences ontology inflector prefixes iri compiled met kept) (hne : kept ≠ []) :
    ∃ parents names, (∀ superclass, superclass ∈ parents ↔ superclass ∈ kept) ∧
      ontology.ListsParents inflector iri compiled parents names := by
  obtain ⟨parents, hperm, hsorted⟩ : ∃ parents : List String, parents.Perm kept ∧
      parents.Pairwise (qualifiedName prefixes · ≤ qualifiedName prefixes ·) :=
    ⟨_, List.mergeSort_perm _ _, ClassBuild.pairwise_mergeSort_by (qualifiedName prefixes) kept⟩
  have hascending : (parents.map (qualifiedName prefixes)).Pairwise (· ≤ ·) :=
    List.pairwise_map.2 hsorted
  refine ⟨parents, parents.map (qualifiedName prefixes), fun _ => hperm.mem_iff, ?_⟩
  constructor
  case nodup => exact hperm.nodup_iff.2 h.nodup
  case schemaNames => exact mapM_schemaName h.prefixes? _
  case ascending => exact hascending
  case allOf =>
    rw [h.allOf]
    exact ClassBuild.inheritanceParts_of_sorted (hperm.map _) hascending
      (mt List.map_eq_nil_iff.1 hne)
  case nearest => exact fun superclass hm => ((h.mem_kept superclass).1 (hperm.mem_iff.1 hm)).1
  case referenced => exact fun superclass hm => h.referenced_of_kept (hperm.mem_iff.1 hm)
  case bears =>
    exact fun superclass hm =>
      ((h.mem_referenced superclass).1 (h.referenced_of_kept (hperm.mem_iff.1 hm))).2

/-- The parts of a compiled class are nothing, or references to nearest superclasses that survive.
A nearest superclass that survives is among them, if no class that was pruned may share its name. -/
theorem allOf_of_compileClass
    (h : ontology.compileClass configuration inflector iri = .ok compiled) :
    (configuration.schema.followReferences = false ∨
        configuration.schema.useInheritanceReferences = false ∨
          (ontology.enumeration? iri).isSome → compiled.schema.allOf = []) ∧
      (compiled.schema.allOf = [] ∨ ∃ parents names, parents ≠ [] ∧
        ontology.ListsParents inflector iri compiled parents names) ∧
      (configuration.schema.followReferences = true →
        configuration.schema.useInheritanceReferences = true → ontology.enumeration? iri = none →
          ∀ superclass ∈ compiled.referenced, ontology.Nearest iri superclass →
            (∀ other, ontology.MayReferTo iri other → other ∉ compiled.referenced →
              ontology.schemaName other ≠ ontology.schemaName superclass) →
            ∃ parents names, superclass ∈ parents ∧
              ontology.ListsParents inflector iri compiled parents names) := by
  refine ⟨allOf_eq_nil_of_compileClass h, ?_, ?_⟩
  · by_cases hon : configuration.schema.followReferences = true ∧
        configuration.schema.useInheritanceReferences = true ∧ ontology.enumeration? iri = none
    · obtain ⟨hfollow, huse, hclass⟩ := hon
      obtain ⟨prefixes, met, kept, hkeeps⟩ := exists_keepsReferences h hclass hfollow huse
      by_cases hkept : kept = []
      · refine .inl ?_
        rw [hkeeps.allOf, hkept]
        exact ClassBuild.inheritanceParts_nil
      · obtain ⟨parents, names, hmem, hlists⟩ := hkeeps.exists_listsParents hkept
        obtain ⟨superclass, hsuperclass⟩ := List.exists_mem_of_ne_nil kept hkept
        exact .inr ⟨parents, names, List.ne_nil_of_mem ((hmem superclass).2 hsuperclass), hlists⟩
    · refine .inl (allOf_eq_nil_of_compileClass h ?_)
      rwa [not_and_or, not_and_or, Bool.not_eq_true, Bool.not_eq_true, ← ne_eq,
        Option.ne_none_iff_isSome] at hon
  · intro hfollow huse hclass superclass hreferenced hnearest hapart
    obtain ⟨prefixes, met, kept, hkeeps⟩ := exists_keepsReferences h hclass hfollow huse
    have hkept : superclass ∈ kept := by
      refine (hkeeps.mem_kept superclass).2 ⟨hnearest, fun other hother hpruned hname => ?_⟩
      refine hapart other (hkeeps.mayReferTo other hother) hpruned ?_
      rw [schemaName_eq hkeeps.prefixes?, schemaName_eq hkeeps.prefixes?, hname]
    obtain ⟨parents, names, hmem, hlists⟩ :=
      hkeeps.exists_listsParents (List.ne_nil_of_mem hkept)
    exact ⟨parents, names, (hmem superclass).2 hkept, hlists⟩

/-- Trucks are vehicles, and these are assets; both have data properties. -/
def fleet : Ontology where
  iri := "e"
  prefixes := some (.ofList [("", "e#")])
  classes := [{ iri := "e#Asset" }, { iri := "e#Truck" }, { iri := "e#Vehicle" }]
  dataProperties := [{ iri := "e#tag", domains := ["e#Asset"] },
    { iri := "e#wheels", domains := ["e#Vehicle"] }]
  subclassAxioms := [{ sub := "e#Truck", sup := .named "e#Vehicle" },
    { sub := "e#Vehicle", sup := .named "e#Asset" }]

theorem allOf_fleet : ∃ compiled parents names,
    fleet.compileClass (({} : Configuration).withReferences true) .english "e#Truck" =
      .ok compiled ∧
    parents ≠ [] ∧ fleet.ListsParents .english "e#Truck" compiled parents names := by
  have hparts : (fleet.compileClass (({} : Configuration).withReferences true) .english
      "e#Truck").toOption.any (fun compiled => compiled.schema.allOf != []) = true := by
    decide +kernel
  obtain ⟨_, compiled, _, _, hcompiled, _⟩ := exists_compileClass
    (rfl : fleet.prefixes? = some _) (({} : Configuration).withReferences true) .english "e#Truck"
  rw [hcompiled] at hparts
  obtain ⟨_, hlists, _⟩ := allOf_of_compileClass hcompiled
  obtain ⟨parents, names, hlists⟩ := hlists.resolve_left (bne_iff_ne.1 hparts)
  exact ⟨compiled, parents, names, hcompiled, hlists⟩

end Ontology

end OntoSchema
