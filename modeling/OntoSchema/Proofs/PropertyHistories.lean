import OntoSchema.Proofs.Stages

/-!
# A visit property by property

A member changes the property of its own name and no other one, and `Member.evolve` says what it
makes of it. So the property that a visit leaves under a name is what the members of that name make,
one after the other, of the property before the visit: this is `ClassBuild.property?_visit`.
-/

namespace OntoSchema

namespace Ontology

variable (ontology : Ontology)

/-- The schema that the filler of a restriction gives to the items of its property. -/
def itemsOf (restriction : ClassExpression) : Option SchemaNode :=
  restriction.filler?.bind fun filler => (filler.fillerSchema? ontology).toOption.join

variable {ontology} {prefixes : NameMap String}

theorem givesItems_itemsOf (hprefixes : ontology.prefixes? = some prefixes)
    (restriction : ClassExpression) :
    ontology.GivesItems restriction (ontology.itemsOf restriction) := by
  unfold GivesItems itemsOf
  cases restriction.filler? with
  | none => rfl
  | some filler =>
    obtain ⟨schema, hschema⟩ := ClassExpression.exists_fillerSchema? hprefixes filler
    simp only [hschema, Option.bind_some, Except.toOption, Option.join_some]

/-- A fresh property is an array, with a description, flags and an example from annotations. -/
theorem exists_freshProperty_eq (configuration : Configuration)
    (hprefixes : ontology.prefixes? = some prefixes) (iri : String)
    (declaration : Option (Role × PropertyDeclaration)) :
    ∃ variants description readOnly writeOnly exampleValue,
      ontology.freshProperty configuration iri declaration =
        { arrayOfVariants variants with description, readOnly, writeOnly, exampleValue } := by
  obtain ⟨node, hnode⟩ := exists_propertySchema hprefixes declaration
  obtain ⟨variants, rfl, _⟩ := exists_variants_of_propertySchema hprefixes hnode
  obtain ⟨d, r, w, e, h⟩ := annotateProperty_eq ontology configuration iri
    (arrayOfVariants variants)
  exact ⟨variants, d, r, w, e, (freshProperty_eq hnode).trans h⟩

end Ontology

/-- What a member makes of the property of its name, present or not. -/
def Member.evolve (ontology : Ontology) (configuration : Configuration) :
    Member → Option SchemaNode → Option SchemaNode
  | declared role declaration, current =>
    match current with
    | none =>
      some (ontology.freshProperty configuration declaration.iri (some (role, declaration)))
    | some existing =>
      if Catalog.isUntouched (Iri.localName declaration.iri) existing then
        some (ontology.freshProperty configuration declaration.iri (some (role, declaration)))
      else some existing
  | restricted part annotations, current =>
    match part.restrictedProperty? with
    | none => current
    | some iri =>
      let property :=
        current.getD (ontology.freshProperty configuration iri (ontology.findProperty? iri))
      some ((property.restrict part (ontology.itemsOf part)).annotateFromAxiom configuration part
        annotations)

section

variable {ontology : Ontology} {configuration : Configuration} {part : ClassExpression}
  {annotations : List Annotation} {current : Option SchemaNode} {iri : String}

/-- A declaration replaces an untouched entry of the catalog and keeps every other property. -/
theorem Member.evolve_declared {role : Role} {declaration : PropertyDeclaration}
    {existing : SchemaNode} :
    (declared role declaration).evolve ontology configuration (some existing) =
      if Catalog.isUntouched (Iri.localName declaration.iri) existing then
        some (ontology.freshProperty configuration declaration.iri (some (role, declaration)))
      else some existing := rfl

/-- A restriction refines the property, or a fresh one if there is none. -/
theorem Member.evolve_restricted (hproperty : part.restrictedProperty? = some iri) :
    (restricted part annotations).evolve ontology configuration current =
      some (((current.getD (ontology.freshProperty configuration iri
          (ontology.findProperty? iri))).restrict part (ontology.itemsOf part)).annotateFromAxiom
        configuration part annotations) := by
  rw [evolve, hproperty]

/-- A member brings the property of its name. -/
theorem Member.isSome_evolve {member : Member} {name : String} (hname : member.name? = some name) :
    (member.evolve ontology configuration current).isSome := by
  cases member with
  | declared role declaration =>
    cases current with
    | none => rfl
    | some existing =>
      rw [evolve_declared]
      split <;> rfl
  | restricted part annotations =>
    obtain ⟨iri, hproperty, _⟩ := Option.map_eq_some_iff.1 hname
    rw [evolve_restricted hproperty]
    rfl

/-- A part that restricts no property changes none. -/
theorem Member.evolve_unrestricted (hproperty : part.restrictedProperty? = none) :
    (restricted part annotations).evolve ontology configuration current = current := by
  rw [evolve, hproperty]

end

namespace Ontology

variable (ontology : Ontology) (configuration : Configuration)

/-- The visit of a class, from its base schema on, ends in a build. -/
def VisitsTo (iri : String) (visited : ClassBuild) : Prop :=
  ∃ schema, ontology.baseSchema configuration.schema iri = .ok schema ∧
    (ClassBuild.start iri schema).visit ontology configuration = .ok visited

/-- What members of one name make of its property, one after the other. -/
def develop (members : List Member) (current : Option SchemaNode) : Option SchemaNode :=
  members.foldl (fun current member => member.evolve ontology configuration current) current

def membersNamed (iri name : String) : List Member :=
  (ontology.members iri).filter fun member => member.name? = some name

/-- The members of a name that the visit of a class takes in, in their order. -/
def history (options : SchemaOptions) (iri name : String) : List Member :=
  (ontology.contributors options iri).flatMap fun other => ontology.membersNamed other name

variable {ontology configuration} {prefixes : NameMap String} {options : SchemaOptions}
  {iri name : String} {visited : ClassBuild}

theorem visitsTo_iff (hprefixes : ontology.prefixes? = some prefixes) :
    ontology.VisitsTo configuration iri visited ↔
      (ontology.firstBuild prefixes configuration.schema iri).visit ontology configuration =
        .ok visited := by
  unfold VisitsTo
  rw [baseSchema_eq hprefixes]
  constructor
  · rintro ⟨schema, hschema, hvisit⟩
    obtain rfl := Except.ok.inj hschema
    exact hvisit
  · exact fun hvisit => ⟨_, rfl, hvisit⟩

theorem exists_visitsTo (hprefixes : ontology.prefixes? = some prefixes)
    (configuration : Configuration) (iri : String) :
    ∃ visited, ontology.VisitsTo configuration iri visited := by
  obtain ⟨visited, hvisit, _⟩ := ClassBuild.exists_visited hprefixes configuration iri
  exact ⟨visited, (visitsTo_iff hprefixes).2 hvisit⟩

theorem mem_history_iff {member : Member} :
    member ∈ ontology.history options iri name ↔
      member ∈ (ontology.contributors options iri).flatMap ontology.members ∧
        member.name? = some name := by
  unfold history membersNamed
  rw [← List.filter_flatMap, List.mem_filter, decide_eq_true_eq]

/-- The class comes first, and then the superclasses, if they are taken in. -/
theorem history_eq : ontology.history options iri name = ontology.membersNamed iri name ++
    if options.followReferences && !options.useInheritanceReferences then
      (ontology.superclasses iri).toList.flatMap fun other => ontology.membersNamed other name
    else [] := by
  unfold history contributors
  rw [List.flatMap_cons]
  split <;> rfl

theorem develop_append (first second : List Member) (current : Option SchemaNode) :
    ontology.develop configuration (first ++ second) current =
      ontology.develop configuration second (ontology.develop configuration first current) :=
  List.foldl_append

theorem develop_cons (member : Member) (rest : List Member) (current : Option SchemaNode) :
    ontology.develop configuration (member :: rest) current =
      ontology.develop configuration rest (member.evolve ontology configuration current) := rfl

/-- Some member of a name brings its property. -/
theorem isSome_develop_history (configuration : Configuration)
    (hbrought : ontology.history options iri name ≠ []) (current : Option SchemaNode) :
    (ontology.develop configuration (ontology.history options iri name) current).isSome := by
  rw [← List.dropLast_append_getLast hbrought, develop_append]
  exact Member.isSome_evolve (mem_history_iff.1 (List.getLast_mem hbrought)).2

/-- Members of other names do not count. -/
theorem develop_membersNamed (iri name : String) (current : Option SchemaNode) :
    ontology.develop configuration (ontology.membersNamed iri name) current =
      (ontology.members iri).foldl (fun current member => if member.name? = some name then
        member.evolve ontology configuration current else current) current := by
  unfold develop membersNamed
  rw [List.foldl_filter]
  simp only [decide_eq_true_eq]

end Ontology

namespace ClassBuild

variable {ontology : Ontology} {configuration : Configuration} {prefixes : NameMap String}
  {build next visited : ClassBuild} {name : String}

/-- An attempt succeeds, and every property becomes what a change makes of it. -/
def Evolves (change : String → Option SchemaNode → Option SchemaNode) (build : ClassBuild)
    (attempt : Attempt) : Prop :=
  ∃ next, attempt = .ok next ∧ next.schema.isEnum = false ∧
    ∀ name, next.schema.property? name = change name (build.schema.property? name)

/-- A change of the property of one name. -/
def onlyAt (wanted : Option String) (change : Option SchemaNode → Option SchemaNode)
    (name : String) (current : Option SchemaNode) : Option SchemaNode :=
  if wanted = some name then change current else current

variable (configuration) in
theorem evolves_addDeclared (hprefixes : ontology.prefixes? = some prefixes) (role : Role)
    (declaration : PropertyDeclaration) (henum : build.schema.isEnum = false) :
    Evolves (onlyAt (Member.declared role declaration).name?
        ((Member.declared role declaration).evolve ontology configuration)) build
      (addDeclared ontology configuration role declaration build) := by
  rw [addDeclared_eq]
  cases hexisting : build.schema.property? (Iri.localName declaration.iri) with
  | none =>
    refine ⟨_, addProperty_eq hprefixes _ _ henum, henum, fun name => ?_⟩
    refine (Entries.get?_insert _ _ _ _).trans ?_
    simp only [onlyAt, Member.name?, Option.some_inj]
    split
    · rename_i hname
      rw [← hname, hexisting]
      rfl
    · rfl
  | some existing =>
    dsimp only
    split
    · rename_i huntouched
      refine ⟨_, addProperty_eq hprefixes _ _ henum, henum, fun name => ?_⟩
      refine (Entries.get?_insert _ _ _ _).trans ?_
      simp only [onlyAt, Member.name?, Option.some_inj]
      split
      · rename_i hname
        rw [← hname, hexisting]
        exact (if_pos huntouched).symm
      · rename_i hname
        exact (Entries.get?_erase _ _ _).trans (if_neg hname)
    · rename_i htouched
      refine ⟨_, rfl, henum, fun name => ?_⟩
      simp only [onlyAt, Member.name?, Option.some_inj]
      split
      · rename_i hname
        rw [← hname, hexisting]
        exact hexisting.trans (if_neg htouched).symm
      · rfl

variable (configuration) in
/-- A restriction refines a property that is present. -/
theorem evolves_refineProperty (hprefixes : ontology.prefixes? = some prefixes)
    {part : ClassExpression} {iri : String} (hproperty : part.restrictedProperty? = some iri)
    (annotations : List Annotation) (henum : build.schema.isEnum = false)
    (hpresent : build.schema.hasProperty (Iri.localName iri) = true) :
    Evolves (onlyAt (some (Iri.localName iri))
        ((Member.restricted part annotations).evolve ontology configuration)) build
      (refineProperty ontology configuration (Iri.localName iri) part annotations build) := by
  obtain ⟨classes, enumerated, hnote, _⟩ := noteFiller_eq build (Iri.localName iri) part
  rw [refineProperty_eq annotations (Ontology.givesItems_itemsOf hprefixes part), hnote]
  refine ⟨_, rfl, henum, fun name => ?_⟩
  refine (Entries.get?_modify _ _ _ _).trans ?_
  simp only [onlyAt, Option.some_inj]
  split
  · rename_i hname
    obtain ⟨existing, hexisting⟩ := Option.isSome_iff_exists.1 hpresent
    rw [← hname, Member.evolve_restricted hproperty]
    unfold SchemaNode.property?
    simp only [hexisting, Option.map_some, Option.getD_some]
  · rfl

variable (configuration) in
theorem evolves_applyRestriction (hprefixes : ontology.prefixes? = some prefixes)
    (part : ClassExpression) (annotations : List Annotation)
    (henum : build.schema.isEnum = false) :
    Evolves (onlyAt (Member.restricted part annotations).name?
        ((Member.restricted part annotations).evolve ontology configuration)) build
      (applyRestriction ontology configuration part annotations build) := by
  have hname : (Member.restricted part annotations).name? =
      part.restrictedProperty?.map Iri.localName := rfl
  unfold applyRestriction
  rw [hname]
  cases hproperty : part.restrictedProperty? with
  | none => exact ⟨build, rfl, henum, fun name => rfl⟩
  | some iri =>
    dsimp only [Option.map_some]
    by_cases hpresent : build.schema.hasProperty (Iri.localName iri) = true
    · rw [if_pos hpresent]
      simp only [Except.bind, if_pos hpresent]
      exact evolves_refineProperty configuration hprefixes hproperty annotations henum hpresent
    · -- The property is added first; then it is there, as fresh as a restriction would have it.
      rw [if_neg hpresent]
      obtain ⟨middle, hmiddle, hmiddleEnum, hadded⟩ : Evolves
          (onlyAt (some (Iri.localName iri)) fun _ =>
            some (ontology.freshProperty configuration iri (ontology.findProperty? iri)))
          build (addProperty ontology configuration iri (ontology.findProperty? iri) build) := by
        refine ⟨_, addProperty_eq hprefixes _ _ henum, henum, fun name => ?_⟩
        refine (Entries.get?_insert _ _ _ _).trans ?_
        simp only [onlyAt, Option.some_inj]
        rfl
      have hsome := hadded (Iri.localName iri)
      rw [onlyAt, if_pos rfl] at hsome
      have hpresent' : middle.schema.hasProperty (Iri.localName iri) = true :=
        Option.isSome_of_mem hsome
      obtain ⟨next, hnext, hnextEnum, hrefined⟩ := evolves_refineProperty configuration hprefixes
        hproperty annotations hmiddleEnum hpresent'
      refine ⟨next, ?_, hnextEnum, fun name => ?_⟩
      · rw [hmiddle]
        simp only [Except.bind, if_pos hpresent']
        exact hnext
      · rw [hrefined, hadded]
        unfold onlyAt
        split
        · rename_i heq
          have habsent : build.schema.property? name = none := by
            rw [← Option.some.inj heq]
            exact Option.not_isSome_iff_eq_none.1 hpresent
          rw [habsent, Member.evolve_restricted hproperty, Member.evolve_restricted hproperty]
          rfl
        · rfl

variable (configuration) in
/-- A member changes the property of its name, as `Member.evolve` says, and no other one. -/
theorem evolves_addMember (hprefixes : ontology.prefixes? = some prefixes) (member : Member)
    (henum : build.schema.isEnum = false) :
    Evolves (onlyAt member.name? (member.evolve ontology configuration)) build
      (addMember ontology configuration build member) := by
  cases member with
  | declared role declaration =>
    exact evolves_addDeclared configuration hprefixes role declaration henum
  | restricted part annotations =>
    exact evolves_applyRestriction configuration hprefixes part annotations henum

/-- A run of steps changes the properties as they do one after the other. -/
theorem evolves_foldlM {α : Type} {step : ClassBuild → α → Attempt}
    {change : α → String → Option SchemaNode → Option SchemaNode} (list : List α)
    (hstep : ∀ item ∈ list, ∀ build : ClassBuild, build.schema.isEnum = false →
      Evolves (change item) build (step build item))
    (henum : build.schema.isEnum = false) :
    Evolves (fun name current => list.foldl (fun current item => change item name current) current)
      build (list.foldlM step build) := by
  induction list generalizing build with
  | nil => exact ⟨build, rfl, henum, fun _ => rfl⟩
  | cons item rest ih =>
    obtain ⟨middle, hmiddle, hmiddleEnum, hfirst⟩ := hstep item List.mem_cons_self build henum
    obtain ⟨next, hnext, hnextEnum, hrest⟩ :=
      ih (fun other hm => hstep other (List.mem_cons_of_mem _ hm)) hmiddleEnum
    refine ⟨next, ?_, hnextEnum, fun name => ?_⟩
    · rw [List.foldlM_cons, hmiddle]
      exact hnext
    · rw [hrest, hfirst]
      rfl

variable (configuration) in
theorem evolves_addMembers (hprefixes : ontology.prefixes? = some prefixes) (iri : String)
    (henum : build.schema.isEnum = false) :
    Evolves (fun name => ontology.develop configuration (ontology.membersNamed iri name)) build
      (addMembers ontology configuration iri build) := by
  obtain ⟨next, hnext, hnextEnum, hproperties⟩ := evolves_foldlM (ontology.members iri)
    (fun member _ _ henum => evolves_addMember configuration hprefixes member henum) henum
  refine ⟨next, hnext, hnextEnum, fun name => ?_⟩
  exact (hproperties name).trans (Ontology.develop_membersNamed iri name _).symm

variable (configuration) in
theorem evolves_addAncestor (hprefixes : ontology.prefixes? = some prefixes) (iri : String)
    (henum : build.schema.isEnum = false) :
    Evolves (fun name current => if configuration.schema.useInheritanceReferences then current
        else ontology.develop configuration (ontology.membersNamed iri name) current) build
      (addAncestor ontology configuration build iri) := by
  unfold addAncestor
  dsimp only
  split
  · exact ⟨_, rfl, henum, fun _ => rfl⟩
  · exact evolves_addMembers configuration hprefixes iri henum

/-- A visit leaves under a name what the members of that name make of the property before it. -/
theorem property?_visit (hprefixes : ontology.prefixes? = some prefixes)
    (hclass : ontology.enumeration? build.subject = none) (henum : build.schema.isEnum = false)
    (h : build.visit ontology configuration = .ok visited) (name : String) :
    visited.schema.property? name = ontology.develop configuration
      (ontology.history configuration.schema build.subject name)
      (build.schema.property? name) := by
  obtain ⟨middle, hmiddle, hmiddleEnum, hown⟩ :=
    evolves_addMembers configuration hprefixes build.subject henum
  have hsubject : middle.subject = build.subject := by
    obtain ⟨other, hother, hgrows⟩ := exists_addMembers configuration hprefixes build.subject henum
    obtain rfl : other = middle := Except.ok.inj (hother.symm.trans hmiddle)
    exact hgrows.subject
  unfold visit at h
  rw [hclass] at h
  simp only [hmiddle, bind, Except.bind] at h
  have hmembers : ontology.develop configuration (ontology.membersNamed build.subject name)
      (build.schema.property? name) = middle.schema.property? name := (hown name).symm
  rw [Ontology.history_eq, Ontology.develop_append, hmembers]
  by_cases hfollow : configuration.schema.followReferences = true
  · obtain ⟨next, hnext, _, hproperties⟩ := evolves_foldlM
      (ontology.superclasses build.subject).toList
      (fun iri _ _ henum => evolves_addAncestor configuration hprefixes iri henum) hmiddleEnum
    rw [if_pos hfollow, hsubject] at h
    obtain rfl : next = visited := Except.ok.inj (hnext.symm.trans h)
    rw [hproperties]
    cases huse : configuration.schema.useInheritanceReferences with
    | true => simp [hfollow, Ontology.develop]
    | false => simp [hfollow, Ontology.develop, List.foldl_flatMap]
  · rw [if_neg hfollow] at h
    obtain rfl : middle = visited := Except.ok.inj h
    simp [hfollow, Ontology.develop]

end ClassBuild

namespace Ontology

variable {ontology : Ontology} {configuration : Configuration} {prefixes : NameMap String}
  {iri : String} {visited : ClassBuild}

/-- On the base schema of a class the members find the catalog, or nothing at all. -/
theorem VisitsTo.property?_eq (hprefixes : ontology.prefixes? = some prefixes)
    (hclass : ontology.enumeration? iri = none) (h : ontology.VisitsTo configuration iri visited)
    (name : String) :
    visited.schema.property? name = ontology.develop configuration
      (ontology.history configuration.schema iri name)
      (if configuration.schema.defaultProperties then Entries.get? name Catalog.entries
        else none) := by
  have hfirst : (ontology.firstBuild prefixes configuration.schema iri).schema.property? name =
      if configuration.schema.defaultProperties then Entries.get? name Catalog.entries
        else none := by
    have hproperties : (ontology.firstBuild prefixes configuration.schema iri).schema.properties =
      if configuration.schema.defaultProperties then Catalog.entries else [] := rfl
    unfold SchemaNode.property?
    rw [hproperties]
    split <;> rfl
  rw [← hfirst]
  exact ClassBuild.property?_visit hprefixes hclass rfl ((visitsTo_iff hprefixes).1 h) name

/-- A class that equals an enumeration has no properties. -/
theorem VisitsTo.property?_eq_none (hprefixes : ontology.prefixes? = some prefixes)
    {values : List Json} (hclass : ontology.enumeration? iri = some values)
    (h : ontology.VisitsTo configuration iri visited) (name : String) :
    visited.schema.property? name = none := by
  have hvisit := (visitsTo_iff hprefixes).1 h
  rw [ClassBuild.visit_of_enumeration hclass] at hvisit
  obtain rfl := Except.ok.inj hvisit
  rfl

end Ontology

end OntoSchema
