import OntoSchema.Proofs.PropertyNames
import OntoSchema.Proofs.References

/-!
# Copied and referenced superclasses

A compilation either copies the properties of superclasses or refers to the schemas of superclasses.
What references lead to is never more than what is copied. It can be less: the pruning takes away a
nearest superclass that brings nothing but object properties, or nothing but superclasses of its
own, and no other reference leads there. `modes_agree_iff` says when both compilations show the same
properties.
-/

namespace OntoSchema

/-- The same settings, with superclasses referred to or copied. -/
def Configuration.withReferences (configuration : Configuration) (refers : Bool) : Configuration :=
  { configuration with
    schema := { configuration.schema with useInheritanceReferences := refers } }

namespace Compilation

variable (compilation : Compilation)

/-- The schema of a component refers to another component in its parts. -/
def RefersTo (component other : String) : Prop :=
  ∃ schema, compilation.schemas.get? component = some schema ∧
    ∃ part ∈ schema.allOf, part.referencedName? = some other

/-- A property stands in the schema of a component, or in one that references in parts lead to. -/
def Shows (component name : String) : Prop :=
  ∃ other schema, Relation.ReflTransGen compilation.RefersTo component other ∧
    compilation.schemas.get? other = some schema ∧ name ∈ schema.propertyNames

end Compilation

namespace Ontology

variable (ontology : Ontology) (options : SchemaOptions) (inflector : Inflector)

/-- No two declared classes share a schema name. -/
def NamesApart : Prop :=
  ∀ iri ∈ ontology.classIris, ∀ other ∈ ontology.classIris,
    ontology.schemaName iri = ontology.schemaName other → iri = other

/-- A class that the schema of another one may refer to. -/
def MayReferTo (iri other : String) : Prop :=
  other ∈ ontology.superclasses iri ∨ ontology.PointsTo other

/-- A class has a property of this name without its superclasses. -/
def HasOwn (iri name : String) : Prop :=
  (options.defaultProperties = true ∧ Catalog.contains name = true) ∨
    ontology.DeclaresFor iri name ∨ ontology.RestrictsFor iri name

/-- A class has a property of this name, its own or one of a superclass that its visit copies. -/
def Has (iri name : String) : Prop :=
  (options.defaultProperties = true ∧ Catalog.contains name = true) ∨
    ∃ other ∈ ontology.contributors options iri,
      ontology.DeclaresFor other name ∨ ontology.RestrictsFor other name

/-- A superclass is a nearest one, and the pruning leaves it to the schema of the class. -/
def KeepsParent (iri superclass : String) : Prop :=
  ontology.Nearest iri superclass ∧
    ontology.Bears inflector (ontology.HasOwn options iri) superclass

/-- Whatever a superclass brings is a property of some class that references lead to. -/
def ReferencesSuffice (iri : String) : Prop :=
  ∀ superclass ∈ ontology.superclasses iri, ∀ name,
    ontology.DeclaresFor superclass name ∨ ontology.RestrictsFor superclass name →
      ∃ source, Relation.ReflTransGen (ontology.KeepsParent options inflector) iri source ∧
        ontology.HasOwn options source name

variable {ontology options inflector} {prefixes : NameMap String} {configuration : Configuration}
  {iri name : String} {schema : SchemaNode}

theorem Closed.mem_of_pointsTo (h : ontology.Closed) (hpoints : ontology.PointsTo iri) :
    iri ∈ ontology.classIris := by
  rcases hpoints with ⟨declaration, hmem, hrange⟩ | ⟨_, _, _, hpart, hfiller, hclass⟩
  · exact h.mem_of_rangeClasses hmem hrange
  · exact h.mem_of_fillerClasses hpart hfiller hclass

/-- A visit refers to no other classes than superclasses and those that properties point to. -/
theorem mayReferTo_of_grows {visited : ClassBuild}
    (hgrows : ClassBuild.GrowsFromBase ontology prefixes configuration iri visited)
    {other : String} (hother : other ∈ visited.referenced) : ontology.MayReferTo iri other := by
  rcases hgrows.referenced_of other hother with (habove | hnone) | hpoints
  · unfold metSuperclasses at habove
    split at habove
    · exact .inl habove
    · exact absurd habove List.not_mem_nil
  · exact absurd hnone (NameSet.not_mem_empty other)
  · exact .inr hpoints

theorem Closed.mem_of_mayReferTo (h : ontology.Closed) {other : String}
    (hother : ontology.MayReferTo iri other) : other ∈ ontology.classIris :=
  hother.elim h.mem_of_superclasses h.mem_of_pointsTo

/-- The schema of a class that is no enumeration comes from a visit. -/
theorem CompilesTo.exists_visited (hprefixes : ontology.prefixes? = some prefixes)
    (hclass : ontology.enumeration? iri = none)
    (h : ontology.CompilesTo configuration inflector iri schema) :
    ∃ visited, ClassBuild.GrowsFromBase ontology prefixes configuration iri visited ∧
      schema = (visited.staged ontology prefixes configuration inflector).schema := by
  obtain ⟨compiled, hcompiled, rfl⟩ := h
  obtain ⟨visited, hvisit, hgrows⟩ := ClassBuild.grows_of_visit configuration hprefixes hclass
  obtain ⟨visited', compiled', hvisit', _, hcompiled', _, hschema⟩ :=
    exists_compileClass hprefixes configuration inflector iri
  obtain rfl : visited' = visited := Except.ok.inj (hvisit'.symm.trans hvisit)
  obtain rfl : compiled' = compiled := Except.ok.inj (hcompiled'.symm.trans hcompiled)
  exact ⟨visited', hgrows, hschema⟩

/-- The properties of a class when the references to superclasses are made. -/
theorem mem_propertyNames_of_grows {visited : ClassBuild}
    (hgrows : ClassBuild.GrowsFromBase ontology prefixes configuration iri visited)
    (hfix : configuration.schema.fixPropertyNames = false) :
    name ∈ (visited.converted configuration inflector).schema.propertyNames ↔
      ontology.Has configuration.schema iri name := by
  rw [ClassBuild.mem_propertyNames_converted_iff hfix, hgrows.names,
    mem_propertyNames_firstBuild, or_comm]
  simp only [brings_iff]
  rfl

theorem CompilesTo.mem_propertyNames_iff (hprefixes : ontology.prefixes? = some prefixes)
    (hclass : ontology.enumeration? iri = none)
    (hfix : configuration.schema.fixPropertyNames = false)
    (h : ontology.CompilesTo configuration inflector iri schema) :
    name ∈ schema.propertyNames ↔ ontology.Has configuration.schema iri name := by
  obtain ⟨visited, hgrows, rfl⟩ := h.exists_visited hprefixes hclass
  rw [ClassBuild.schema_staged]
  exact mem_propertyNames_of_grows hgrows hfix

/-- The properties of a class whose superclasses are referred to are its own. -/
theorem has_iff_of_referring
    (huse : configuration.schema.useInheritanceReferences = true) :
    ontology.Has configuration.schema iri name ↔
      ontology.HasOwn configuration.schema iri name := by
  have hcontributors : ontology.contributors configuration.schema iri = [iri] := by
    rw [contributors, huse, Bool.not_true, Bool.and_false, if_neg Bool.false_ne_true]
  rw [Has, hcontributors, List.exists_mem_cons_iff]
  simp [HasOwn]

/-- Those of a class whose superclasses are copied are its own and what the superclasses bring. -/
theorem has_iff_of_copying
    (hfollow : configuration.schema.followReferences = true)
    (huse : configuration.schema.useInheritanceReferences = false) :
    ontology.Has configuration.schema iri name ↔
      ontology.HasOwn configuration.schema iri name ∨
        ∃ superclass ∈ ontology.superclasses iri,
          ontology.DeclaresFor superclass name ∨ ontology.RestrictsFor superclass name := by
  have hcontributors : ontology.contributors configuration.schema iri =
      iri :: (ontology.superclasses iri).toList := by
    rw [contributors, hfollow, huse, Bool.not_false, Bool.and_self, if_pos rfl]
  rw [Has, hcontributors, List.exists_mem_cons_iff, ← or_assoc]
  rfl

/-- The parts of a schema refer to the nearest superclasses that bear something, and to no other
component. -/
theorem CompilesTo.exists_reference_iff (hprefixes : ontology.prefixes? = some prefixes)
    (hclosed : ontology.Closed) (hapart : ontology.NamesApart)
    (hclass : ontology.enumeration? iri = none)
    (hfollow : configuration.schema.followReferences = true)
    (huse : configuration.schema.useInheritanceReferences = true)
    (hfix : configuration.schema.fixPropertyNames = false)
    (h : ontology.CompilesTo configuration inflector iri schema) {component : String} :
    (∃ part ∈ schema.allOf, part.referencedName? = some component) ↔
      ∃ superclass, ontology.KeepsParent configuration.schema inflector iri superclass ∧
        qualifiedName prefixes superclass = component := by
  obtain ⟨visited, hgrows, rfl⟩ := h.exists_visited hprefixes hclass
  have hvisited := hgrows.visited hprefixes
  have hnames : ∀ name,
      name ∈ (visited.converted configuration inflector).schema.propertyNames ↔
        ontology.HasOwn configuration.schema iri name := fun name =>
    (mem_propertyNames_of_grows hgrows hfix).trans (has_iff_of_referring huse)
  have hdeclared : ∀ other ∈ (visited.converted configuration inflector).referenced,
      other ∈ ontology.classIris := by
    intro other hm
    rw [ClassBuild.referenced_converted] at hm
    exact hclosed.mem_of_mayReferTo (mayReferTo_of_grows hgrows hm)
  have hreferenced : ∀ other ∈ ontology.superclasses iri,
      other ∈ (visited.converted configuration inflector).referenced := fun other =>
    ClassBuild.mem_referenced_converted hfollow hgrows
  have hkept : ∀ superclass ∈ ontology.superclasses iri,
      qualifiedName prefixes superclass ∉
          (visited.converted configuration inflector).strippedNames ontology prefixes inflector ↔
        ontology.Bears inflector (ontology.HasOwn configuration.schema iri) superclass := by
    intro superclass habove
    rw [← isLoadBearing_iff hnames]
    -- Only a class of the same schema name could take the reference away, and there is none.
    refine ClassBuild.not_mem_strippedNames_iff (hreferenced superclass habove) ?_
    intro other hother hname
    refine hapart other (hdeclared other hother) superclass
      (hclosed.mem_of_superclasses habove) ?_
    rw [schemaName_eq hprefixes, schemaName_eq hprefixes, hname]
  have hparts : (visited.converted configuration inflector).schema.allOf = [] :=
    (ClassBuild.allOf_converted _ _ _).trans hvisited.allOf
  have hrefers : (visited.converted configuration inflector).refersToSuperclasses
      configuration.schema = true :=
    ClassBuild.refersToSuperclasses_converted hfollow huse hgrows
  rw [ClassBuild.schema_staged, ClassBuild.exists_reference_linked_iff hparts hrefers]
  refine exists_congr fun superclass => ?_
  rw [← and_assoc, ClassBuild.mem_nearestAncestors_iff
    (fun other => ClassBuild.mem_ancestors_converted_iff hfollow hgrows) hreferenced]
  exact and_congr_left fun _ => and_congr_right fun hnearest => hkept superclass hnearest.1

theorem exists_schema (hprefixes : ontology.prefixes? = some prefixes)
    (hapart : ontology.NamesApart) (hall : configuration.classes = none)
    {compilation : Compilation}
    (hcompile : ontology.compile configuration inflector = .ok compilation)
    (hdeclared : iri ∈ ontology.classIris) :
    ∃ schema, compilation.schemas.get? (qualifiedName prefixes iri) = some schema ∧
      ontology.CompilesTo configuration inflector iri schema := by
  obtain ⟨hfound, hcontains⟩ := schemas_of_compile hprefixes hall hcompile
  have hsome := (hcontains (qualifiedName prefixes iri)).2 ⟨iri, hdeclared, rfl⟩
  obtain ⟨schema, hget⟩ := Option.isSome_iff_exists.1 hsome
  obtain ⟨other, hother, hname, hschema⟩ := hfound _ schema hget
  obtain rfl : other = iri := by
    refine hapart other hother iri hdeclared ?_
    rw [schemaName_eq hprefixes, schemaName_eq hprefixes, hname]
  exact ⟨schema, hget, hschema⟩

section Referring

variable (hprefixes : ontology.prefixes? = some prefixes) (hclosed : ontology.Closed)
  (hapart : ontology.NamesApart)
  (hclasses : ∀ iri ∈ ontology.classIris, ontology.enumeration? iri = none)
  (hall : configuration.classes = none)
  (hfollow : configuration.schema.followReferences = true)
  (huse : configuration.schema.useInheritanceReferences = true)
  (hfix : configuration.schema.fixPropertyNames = false) {compilation : Compilation}
  (hcompile : ontology.compile configuration inflector = .ok compilation)
  (hdeclared : iri ∈ ontology.classIris)

include hprefixes hclosed hapart hclasses hall hfollow huse hfix hcompile hdeclared

/-- The parts of a schema lead to the superclasses that its class keeps. -/
theorem refersTo_iff {component : String} :
    compilation.RefersTo (qualifiedName prefixes iri) component ↔
      ∃ superclass, ontology.KeepsParent configuration.schema inflector iri superclass ∧
        qualifiedName prefixes superclass = component := by
  obtain ⟨schema, hget, hschema⟩ := exists_schema hprefixes hapart hall hcompile hdeclared
  rw [← hschema.exists_reference_iff hprefixes hclosed hapart (hclasses iri hdeclared) hfollow
    huse hfix]
  constructor
  · rintro ⟨other, hother, hpart⟩
    obtain rfl := Option.some.inj (hget.symm.trans hother)
    exact hpart
  · exact fun hpart => ⟨schema, hget, hpart⟩

/-- Chains of parts lead from class to class as chains of superclasses that are kept. -/
theorem reflTransGen_refersTo_iff {component : String} :
    Relation.ReflTransGen compilation.RefersTo (qualifiedName prefixes iri) component ↔
      ∃ source, Relation.ReflTransGen (ontology.KeepsParent configuration.schema inflector) iri
        source ∧ source ∈ ontology.classIris ∧ qualifiedName prefixes source = component := by
  have hstep : ∀ source ∈ ontology.classIris, ∀ component,
      compilation.RefersTo (qualifiedName prefixes source) component ↔
        ∃ superclass, ontology.KeepsParent configuration.schema inflector source superclass ∧
          qualifiedName prefixes superclass = component := fun source hsource component =>
    refersTo_iff hprefixes hclosed hapart hclasses hall hfollow huse hfix hcompile hsource
  constructor
  · intro hpath
    induction hpath with
    | refl => exact ⟨iri, .refl, hdeclared, rfl⟩
    | tail _ hlast ih =>
      obtain ⟨source, hsource, hmem, rfl⟩ := ih
      obtain ⟨superclass, hkeeps, rfl⟩ := (hstep source hmem _).1 hlast
      exact ⟨superclass, hsource.tail hkeeps, hclosed.mem_of_superclasses hkeeps.1.1, rfl⟩
  · rintro ⟨source, hpath, hsource, rfl⟩
    -- The induction carries that every class on the way is declared, and needs no more of the last.
    clear hsource
    have hwalk : source ∈ ontology.classIris ∧
        Relation.ReflTransGen compilation.RefersTo (qualifiedName prefixes iri)
          (qualifiedName prefixes source) := by
      induction hpath with
      | refl => exact ⟨hdeclared, .refl⟩
      | tail _ hlast ih =>
        exact ⟨hclosed.mem_of_superclasses hlast.1.1,
          ih.2.tail ((hstep _ ih.1 _).2 ⟨_, hlast, rfl⟩)⟩
    exact hwalk.2

/-- A compilation that refers to superclasses shows the own properties of the classes that
references lead to. -/
theorem shows_iff :
    compilation.Shows (qualifiedName prefixes iri) name ↔
      ∃ source, Relation.ReflTransGen (ontology.KeepsParent configuration.schema inflector) iri
        source ∧ ontology.HasOwn configuration.schema source name := by
  have hnames : ∀ source ∈ ontology.classIris, ∃ schema,
      compilation.schemas.get? (qualifiedName prefixes source) = some schema ∧
        (name ∈ schema.propertyNames ↔ ontology.HasOwn configuration.schema source name) := by
    intro source hsource
    obtain ⟨schema, hget, hschema⟩ := exists_schema hprefixes hapart hall hcompile hsource
    refine ⟨schema, hget, ?_⟩
    rw [hschema.mem_propertyNames_iff hprefixes (hclasses source hsource) hfix,
      has_iff_of_referring huse]
  constructor
  · rintro ⟨component, schema, hreach, hget, hname⟩
    obtain ⟨source, hsource, hmem, rfl⟩ := (reflTransGen_refersTo_iff hprefixes hclosed hapart
      hclasses hall hfollow huse hfix hcompile hdeclared).1 hreach
    obtain ⟨schema', hget', hown⟩ := hnames source hmem
    obtain rfl := Option.some.inj (hget.symm.trans hget')
    exact ⟨source, hsource, hown.1 hname⟩
  · rintro ⟨source, hsource, hown⟩
    have hmem : source ∈ ontology.classIris := by
      cases hsource with
      | refl => exact hdeclared
      | tail _ hlast => exact hclosed.mem_of_superclasses hlast.1.1
    obtain ⟨schema, hget, hname⟩ := hnames source hmem
    have hreach : Relation.ReflTransGen compilation.RefersTo (qualifiedName prefixes iri)
        (qualifiedName prefixes source) :=
      (reflTransGen_refersTo_iff hprefixes hclosed hapart hclasses hall hfollow huse hfix hcompile
        hdeclared).2 ⟨source, hsource, hmem, rfl⟩
    exact ⟨_, schema, hreach, hget, hname.2 hown⟩

end Referring

theorem superclasses_of_keepsParent {source : String}
    (h : Relation.ReflTransGen (ontology.KeepsParent options inflector) iri source) :
    source = iri ∨ source ∈ ontology.superclasses iri := by
  induction h with
  | refl => exact .inl rfl
  | tail _ hlast ih =>
    rcases ih with rfl | habove
    · exact .inr hlast.1.1
    · exact mem_superclasses_trans habove hlast.1.1

/-- Compilations of all classes succeed whether they copy or refer to superclasses. References lead
to no property that is not copied; for a class they lead to all of them just when they suffice. -/
theorem modes_agree_iff (hprefixes : ontology.prefixes? = some prefixes)
    (hclosed : ontology.Closed) (hapart : ontology.NamesApart)
    (hclasses : ∀ iri ∈ ontology.classIris, ontology.enumeration? iri = none)
    (hall : configuration.classes = none)
    (hfollow : configuration.schema.followReferences = true)
    (hfix : configuration.schema.fixPropertyNames = false)
    (hvalid : configuration.validate = .ok ()) (inflector : Inflector) :
    ∃ copying referring,
      ontology.compile (configuration.withReferences false) inflector = .ok copying ∧
      ontology.compile (configuration.withReferences true) inflector = .ok referring ∧
      ∀ iri ∈ ontology.classIris, ∃ component schema,
        ontology.schemaName iri = .ok component ∧
        copying.schemas.get? component = some schema ∧
        (∀ name, referring.Shows component name → name ∈ schema.propertyNames) ∧
        ((∀ name, name ∈ schema.propertyNames ↔ referring.Shows component name) ↔
          ontology.ReferencesSuffice configuration.schema inflector iri) := by
  have hpolicies : ∀ refers, (configuration.withReferences refers).validate = .ok () :=
    fun _ => hvalid
  have hselection : ∀ refers, (configuration.withReferences refers).classes = none :=
    fun _ => hall
  have hnames : ∀ refers, (configuration.withReferences refers).schema.fixPropertyNames = false :=
    fun _ => hfix
  have hfollows : ∀ refers, (configuration.withReferences refers).schema.followReferences = true :=
    fun _ => hfollow
  obtain ⟨copying, hcopying⟩ := exists_compile hprefixes (hpolicies false) inflector
  obtain ⟨referring, hreferring⟩ := exists_compile hprefixes (hpolicies true) inflector
  refine ⟨copying, referring, hcopying, hreferring, fun iri hdeclared => ?_⟩
  obtain ⟨schema, hget, hschema⟩ := exists_schema hprefixes hapart (hselection false) hcopying
    hdeclared
  have hcopied : ∀ name, name ∈ schema.propertyNames ↔
      ontology.HasOwn configuration.schema iri name ∨
        ∃ superclass ∈ ontology.superclasses iri,
          ontology.DeclaresFor superclass name ∨ ontology.RestrictsFor superclass name := by
    intro name
    rw [hschema.mem_propertyNames_iff hprefixes (hclasses iri hdeclared) (hnames false)]
    exact has_iff_of_copying (hfollows false) rfl
  have hshown : ∀ name, referring.Shows (qualifiedName prefixes iri) name ↔
      ∃ source, Relation.ReflTransGen (ontology.KeepsParent configuration.schema inflector) iri
        source ∧ ontology.HasOwn configuration.schema source name := fun name =>
    shows_iff hprefixes hclosed hapart hclasses (hselection true) (hfollows true) rfl (hnames true)
      hreferring hdeclared
  have hsound : ∀ name, referring.Shows (qualifiedName prefixes iri) name →
      name ∈ schema.propertyNames := by
    intro name hname
    obtain ⟨source, hsource, hown⟩ := (hshown name).1 hname
    rw [hcopied]
    rcases superclasses_of_keepsParent hsource with rfl | habove
    · exact .inl hown
    · rcases hown with hcatalog | hbrings
      · exact .inl (.inl hcatalog)
      · exact .inr ⟨source, habove, hbrings⟩
  refine ⟨qualifiedName prefixes iri, schema, schemaName_eq hprefixes iri, hget, hsound, ?_⟩
  constructor
  · intro hsame superclass habove name hbrings
    exact (hshown name).1 ((hsame name).1 ((hcopied name).2 (.inr ⟨superclass, habove, hbrings⟩)))
  · intro hsuffice name
    refine ⟨fun hname => (hshown name).2 ?_, hsound name⟩
    rcases (hcopied name).1 hname with hown | ⟨superclass, habove, hbrings⟩
    · exact ⟨iri, .refl, hown⟩
    · exact hsuffice superclass habove name hbrings

theorem namesApart_library : library.NamesApart := by
  unfold NamesApart
  decide +kernel

theorem modes_agree_library :
    library.prefixes? = some (.ofList [("", "e#")]) ∧ library.Closed ∧ library.NamesApart ∧
      (∀ iri ∈ library.classIris, library.enumeration? iri = none) ∧
      ({} : Configuration).validate = .ok () ∧
      ∃ copying referring,
        library.compile (({} : Configuration).withReferences false) .english = .ok copying ∧
        library.compile (({} : Configuration).withReferences true) .english = .ok referring ∧
        ∀ iri ∈ library.classIris, ∃ component schema,
          library.schemaName iri = .ok component ∧
          copying.schemas.get? component = some schema ∧
          (∀ name, referring.Shows component name → name ∈ schema.propertyNames) ∧
          ((∀ name, name ∈ schema.propertyNames ↔ referring.Shows component name) ↔
            library.ReferencesSuffice {} .english iri) := by
  have hprefixes : library.prefixes? = some (.ofList [("", "e#")]) := rfl
  have hclasses : ∀ iri ∈ library.classIris, library.enumeration? iri = none := fun _ _ => rfl
  have hvalid : ({} : Configuration).validate = .ok () := rfl
  exact ⟨hprefixes, closed_library, namesApart_library, hclasses, hvalid,
    modes_agree_iff hprefixes closed_library namesApart_library hclasses rfl rfl rfl hvalid
      .english⟩

/-- Works bear nothing for books, as only an object property is theirs. So a book has an author as a
copy, and no reference leads there. -/
theorem references_lose_library :
    ∃ copying referring schema,
      library.compile (({} : Configuration).withReferences false) .english = .ok copying ∧
      library.compile (({} : Configuration).withReferences true) .english = .ok referring ∧
      copying.schemas.get? "Book" = some schema ∧ "author" ∈ schema.propertyNames ∧
      ¬ referring.Shows "Book" "author" := by
  have hprefixes : library.prefixes? = some (.ofList [("", "e#")]) := rfl
  have hclasses : ∀ iri ∈ library.classIris, library.enumeration? iri = none := fun _ _ => rfl
  have hvalid : ∀ refers, (({} : Configuration).withReferences refers).validate = .ok () :=
    fun _ => rfl
  have hbook : "e#Book" ∈ library.classIris := List.mem_cons_self
  have hbarren : ∀ superclass,
      ¬ library.KeepsParent (({} : Configuration).withReferences true).schema .english "e#Book"
        superclass := by
    rintro superclass ⟨⟨habove, _⟩, hbears⟩
    obtain rfl : superclass = "e#Work" := by
      have hall : ∀ other ∈ (library.superclasses "e#Book").toList, other = "e#Work" := by decide
      exact hall superclass habove
    simp [Bears, library] at hbears
  have hown : ¬ library.HasOwn (({} : Configuration).withReferences true).schema "e#Book"
      "author" := by
    unfold HasOwn
    rw [← brings_iff, Brings]
    decide +kernel
  obtain ⟨copying, hcopying⟩ := exists_compile hprefixes (hvalid false) .english
  obtain ⟨referring, hreferring⟩ := exists_compile hprefixes (hvalid true) .english
  obtain ⟨schema, hget, hschema⟩ :=
    exists_schema hprefixes namesApart_library rfl hcopying hbook
  refine ⟨copying, referring, schema, hcopying, hreferring, hget, ?_, fun hshows => ?_⟩
  · rw [hschema.mem_propertyNames_iff hprefixes rfl rfl]
    refine .inr ⟨"e#Work", by decide +kernel, .inl ?_⟩
    exact ⟨.object, _, List.mem_cons_self, List.mem_cons_self, by decide⟩
  · obtain ⟨source, hpath, hsource⟩ := (shows_iff hprefixes closed_library namesApart_library
      hclasses rfl rfl rfl rfl hreferring hbook).1 hshows
    rcases Relation.ReflTransGen.cases_head hpath with rfl | ⟨superclass, hkeeps, _⟩
    · exact hown hsource
    · exact hbarren superclass hkeeps

end Ontology

end OntoSchema
