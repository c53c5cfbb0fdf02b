import OntoSchema.Proofs.Formation

/-!
# What a visit does to a build

`ClassBuild.Grows` says what taking in members and superclasses does to a build: it adds the names
these bring and none else, keeps the rest of the schema, and lets every property have a history.
Every operation of a visit has a result on an ontology with namespaces, and that result grows from
where the operation began. `exists_visit` joins the operations to the whole visit of a class.
-/

namespace OntoSchema

/-- The name of the property that a member is about. -/
def Member.name? : Member → Option String
  | declared _ declaration => some (Iri.localName declaration.iri)
  | restricted part _ => part.restrictedProperty?.map Iri.localName

/-- A schema without its properties. -/
def SchemaNode.shell (node : SchemaNode) : SchemaNode := { node with properties := [] }

namespace Ontology

variable (ontology : Ontology)

/-- A range of an object property or a filler of a restriction names a class. -/
def PointsTo (iri : String) : Prop :=
  (∃ declaration ∈ ontology.objectProperties, iri ∈ declaration.rangeClasses) ∨
    ∃ part annotations filler, ontology.Restricts part annotations ∧
      part.filler? = some filler ∧ iri ∈ filler.fillerClasses

/-- The classes whose members a visit takes in. -/
def contributors (options : SchemaOptions) (iri : String) : List String :=
  iri :: if options.followReferences && !options.useInheritanceReferences then
    (ontology.superclasses iri).toList else []

/-- The superclasses that a visit meets. -/
def metSuperclasses (options : SchemaOptions) (iri : String) : List String :=
  if options.followReferences then (ontology.superclasses iri).toList else []

/-- A class brings a property of a name. -/
def Brings (iri name : String) : Prop := ∃ member ∈ ontology.members iri, member.name? = some name

end Ontology

namespace ClassBuild

variable (ontology : Ontology) (configuration : Configuration)

/-- Every property of a build has a history. -/
def AllFormed (build : ClassBuild) : Prop :=
  ∀ entry ∈ build.schema.properties, ontology.Formed configuration entry.1 entry.2

structure Grows (brought : String → Prop) (ancestors : List String) (build next : ClassBuild) :
    Prop where
  subject : next.subject = build.subject
  mandatory : next.mandatory = build.mandatory
  required : next.required = build.required
  markdown : next.markdown = build.markdown
  shell : next.schema.shell = build.schema.shell
  processed : ∀ iri, iri ∈ next.processed ↔ iri ∈ ancestors ∨ iri ∈ build.processed
  referenced : ∀ iri, iri ∈ ancestors ∨ iri ∈ build.referenced → iri ∈ next.referenced
  referenced_of : ∀ iri ∈ next.referenced,
    (iri ∈ ancestors ∨ iri ∈ build.referenced) ∨ ontology.PointsTo iri
  names : ∀ name, name ∈ next.schema.propertyNames ↔
    brought name ∨ name ∈ build.schema.propertyNames
  functional : ∀ name ∈ next.functional, brought name ∨ name ∈ build.functional
  enumerated : ∀ name ∈ next.enumerated, brought name ∨ name ∈ build.enumerated
  ordered : Entries.Ordered build.schema.properties → Entries.Ordered next.schema.properties
  formed : build.AllFormed ontology configuration → next.AllFormed ontology configuration

variable {ontology configuration} {prefixes : NameMap String} {build middle next : ClassBuild}
  {brought brought' : String → Prop} {ancestors ancestors' : List String}

theorem Grows.refl (build : ClassBuild) :
    Grows ontology configuration (fun _ => False) [] build build where
  subject := rfl
  mandatory := rfl
  required := rfl
  markdown := rfl
  shell := rfl
  processed := by simp
  referenced := by simp
  referenced_of := by simp_all
  names := by simp
  functional := by simp
  enumerated := by simp
  ordered := id
  formed := id

theorem Grows.trans (h₁ : Grows ontology configuration brought ancestors build middle)
    (h₂ : Grows ontology configuration brought' ancestors' middle next) :
    Grows ontology configuration (fun name => brought name ∨ brought' name)
      (ancestors ++ ancestors') build next where
  subject := h₂.subject.trans h₁.subject
  mandatory := h₂.mandatory.trans h₁.mandatory
  required := h₂.required.trans h₁.required
  markdown := h₂.markdown.trans h₁.markdown
  shell := h₂.shell.trans h₁.shell
  processed iri := by
    rw [h₂.processed, h₁.processed, List.mem_append, or_left_comm, or_assoc]
  referenced iri h := by
    apply h₂.referenced
    rw [List.mem_append, or_right_comm] at h
    exact h.elim (fun h => .inr (h₁.referenced iri h)) .inl
  referenced_of iri h := by
    rw [List.mem_append]
    rcases h₂.referenced_of iri h with (h | h) | h
    · exact .inl (.inl (.inr h))
    · rcases h₁.referenced_of iri h with (h | h) | h
      · exact .inl (.inl (.inl h))
      · exact .inl (.inr h)
      · exact .inr h
    · exact .inr h
  names name := by rw [h₂.names, h₁.names, or_left_comm, or_assoc]
  functional name h := by
    rcases h₂.functional name h with h | h
    · exact .inl (.inr h)
    · exact (h₁.functional name h).imp .inl id
  enumerated name h := by
    rcases h₂.enumerated name h with h | h
    · exact .inl (.inr h)
    · exact (h₁.enumerated name h).imp .inl id
  ordered h := h₂.ordered (h₁.ordered h)
  formed h := h₂.formed (h₁.formed h)

theorem Grows.congr (h : Grows ontology configuration brought ancestors build next)
    (hbrought : ∀ name, brought name ↔ brought' name) :
    Grows ontology configuration brought' ancestors build next := by
  obtain rfl : brought = brought' := funext fun name => propext (hbrought name)
  exact h

theorem Grows.isEnum (h : Grows ontology configuration brought ancestors build next) :
    next.schema.isEnum = build.schema.isEnum := by
  have hshell := congrArg SchemaNode.isEnum h.shell
  exact hshell

/-- A change that concerns the property of one name. -/
theorem grows_of_property {name : String} {classes : List String} {functional enumerated : NameSet}
    {schema : SchemaNode} (hshell : schema.shell = build.schema.shell)
    (hclasses : ∀ iri ∈ classes, ontology.PointsTo iri)
    (hfunctional : ∀ other ∈ functional, other = name ∨ other ∈ build.functional)
    (henumerated : ∀ other ∈ enumerated, other = name ∨ other ∈ build.enumerated)
    (hnames : ∀ other, other ∈ schema.propertyNames ↔
      other = name ∨ other ∈ build.schema.propertyNames)
    (hordered : Entries.Ordered build.schema.properties → Entries.Ordered schema.properties)
    (hformed : build.AllFormed ontology configuration →
      ∀ entry ∈ schema.properties, ontology.Formed configuration entry.1 entry.2) :
    Grows ontology configuration (· = name) [] build { build with
      referenced := build.referenced.insertAll classes, functional, enumerated, schema } where
  subject := rfl
  mandatory := rfl
  required := rfl
  markdown := rfl
  shell := hshell
  processed := by simp
  referenced iri h := NameSet.mem_insertAll.2 (.inr (h.resolve_left List.not_mem_nil))
  referenced_of iri h := by
    rcases NameSet.mem_insertAll.1 h with h | h
    · exact .inr (hclasses iri h)
    · exact .inl (.inr h)
  names := hnames
  functional := hfunctional
  enumerated := henumerated
  ordered := hordered
  formed := hformed

theorem pointsTo_of_propertyClasses {iri other : String}
    {declaration : Option (Role × PropertyDeclaration)}
    (hdeclares : ontology.Declares iri declaration)
    (h : other ∈ propertyClasses declaration) : ontology.PointsTo other := by
  rcases declaration with _ | ⟨_ | _, declared⟩
  · cases h
  · exact .inl ⟨declared, (hdeclares .object declared rfl).1, h⟩
  · cases h

/-- A property is added under its local name, with the schema of its declaration. -/
theorem addProperty_eq (hprefixes : ontology.prefixes? = some prefixes) (iri : String)
    (declaration : Option (Role × PropertyDeclaration)) (henum : build.schema.isEnum = false) :
    addProperty ontology configuration iri declaration build = .ok { build with
      referenced := build.referenced.insertAll (propertyClasses declaration)
      schema := { build.schema with
        properties := Entries.insert (Iri.localName iri)
          (ontology.freshProperty configuration iri declaration) build.schema.properties } } := by
  obtain ⟨node, hnode⟩ := Ontology.exists_propertySchema hprefixes declaration
  unfold addProperty proceed
  dsimp only [refer]
  rw [hnode, Ontology.freshProperty_eq hnode]
  simp only [SchemaNode.insertProperty?, henum, Bool.false_eq_true, ↓reduceIte]

variable (configuration) in
/-- The property that is added has a history of its own. -/
theorem exists_addProperty (build : ClassBuild) (hprefixes : ontology.prefixes? = some prefixes)
    {iri : String} {declaration : Option (Role × PropertyDeclaration)}
    (hdeclares : ontology.Declares iri declaration)
    (henum : build.schema.isEnum = false) :
    ∃ node, ontology.Formed configuration (Iri.localName iri) node ∧
      addProperty ontology configuration iri declaration build = .ok { build with
        referenced := build.referenced.insertAll (propertyClasses declaration)
        schema := { build.schema with
          properties := Entries.insert (Iri.localName iri) node build.schema.properties } } := by
  obtain ⟨node, hnode⟩ := Ontology.exists_propertySchema hprefixes declaration
  refine ⟨_, ?_, addProperty_eq hprefixes iri declaration henum⟩
  rw [Ontology.freshProperty_eq hnode]
  exact .fresh hdeclares hnode

theorem formed_insert {name : String} {node : SchemaNode} {properties : List (String × SchemaNode)}
    (hnode : ontology.Formed configuration name node)
    (h : ∀ entry ∈ properties, ontology.Formed configuration entry.1 entry.2) :
    ∀ entry ∈ Entries.insert name node properties,
      ontology.Formed configuration entry.1 entry.2 := by
  intro entry hm
  rcases Entries.mem_insert hm with rfl | hm
  · exact hnode
  · exact h entry hm

/-- A build that knows whether a declared property is functional. -/
def noteFunctional (declaration : PropertyDeclaration) (build : ClassBuild) : ClassBuild :=
  { build with functional :=
      if declaration.functional then build.functional.insert (Iri.localName declaration.iri)
      else build.functional }

theorem mem_functional_noteFunctional {declaration : PropertyDeclaration} {other : String}
    (h : other ∈ (build.noteFunctional declaration).functional) :
    other = Iri.localName declaration.iri ∨ other ∈ build.functional := by
  unfold noteFunctional at h
  dsimp only at h
  split at h
  · exact NameSet.mem_insert.1 h
  · exact .inr h

theorem addDeclared_eq (role : Role) (declaration : PropertyDeclaration) :
    addDeclared ontology configuration role declaration build =
      match build.schema.property? (Iri.localName declaration.iri) with
      | none => addProperty ontology configuration declaration.iri (some (role, declaration))
          (build.noteFunctional declaration)
      | some existing =>
        if Catalog.isUntouched (Iri.localName declaration.iri) existing then
          addProperty ontology configuration declaration.iri (some (role, declaration))
            { build.noteFunctional declaration with
              schema := build.schema.eraseProperty (Iri.localName declaration.iri) }
        else .ok (build.noteFunctional declaration) := by
  have hnoted : (if declaration.functional then
      { build with functional := build.functional.insert (Iri.localName declaration.iri) }
    else build) = build.noteFunctional declaration := by
    unfold noteFunctional
    split <;> rfl
  unfold addDeclared
  dsimp only
  rw [hnoted]
  rfl

theorem names_insert_erase (name : String) (node : SchemaNode)
    (properties : List (String × SchemaNode)) (other : String) :
    other ∈ Entries.names (Entries.insert name node (Entries.erase name properties)) ↔
      other = name ∨ other ∈ Entries.names properties := by
  rw [Entries.mem_names_insert, Entries.mem_names_erase]
  by_cases ho : other = name <;> simp [ho]

theorem exists_addDeclared (hprefixes : ontology.prefixes? = some prefixes) {role : Role}
    {declaration : PropertyDeclaration} (hmem : declaration ∈ ontology.declarations role)
    (henum : build.schema.isEnum = false) :
    ∃ next, addDeclared ontology configuration role declaration build = .ok next ∧
      Grows ontology configuration (· = Iri.localName declaration.iri) [] build next := by
  have hdeclares : ontology.Declares declaration.iri (some (role, declaration)) := by
    intro _ _ h
    cases h
    exact ⟨hmem, rfl⟩
  have hpoints : ∀ iri ∈ propertyClasses (some (role, declaration)), ontology.PointsTo iri :=
    fun _ => pointsTo_of_propertyClasses hdeclares
  rw [addDeclared_eq]
  cases hexisting : build.schema.property? (Iri.localName declaration.iri) with
  | none =>
    obtain ⟨node, hnode, hadd⟩ := exists_addProperty configuration
      (build.noteFunctional declaration) hprefixes hdeclares henum
    refine ⟨_, hadd, ?_⟩
    exact grows_of_property rfl hpoints (fun _ => mem_functional_noteFunctional) (fun _ => .inr)
      (fun _ => Entries.mem_names_insert) (Entries.ordered_insert _ _) (formed_insert hnode)
  | some existing =>
    have hpresent : Iri.localName declaration.iri ∈ build.schema.propertyNames :=
      (Entries.mem_names_iff _ _).2 (Option.isSome_of_mem hexisting)
    dsimp only
    split
    · obtain ⟨node, hnode, hadd⟩ := exists_addProperty configuration
        { build.noteFunctional declaration with
          schema := build.schema.eraseProperty (Iri.localName declaration.iri) }
        hprefixes hdeclares henum
      refine ⟨_, hadd, ?_⟩
      exact grows_of_property rfl hpoints (fun _ => mem_functional_noteFunctional) (fun _ => .inr)
        (names_insert_erase _ _ _)
        (fun h => Entries.ordered_insert _ _ (Entries.ordered_erase _ h))
        (fun h => formed_insert hnode fun entry hm => h entry (Entries.mem_erase hm))
    · refine ⟨_, rfl, ?_⟩
      exact grows_of_property rfl (fun iri (h : iri ∈ []) => absurd h List.not_mem_nil)
        (fun _ => mem_functional_noteFunctional) (fun _ => .inr)
        (fun other => ⟨.inr, fun h => h.elim (fun he => he ▸ hpresent) id⟩) id id

variable (build) in
theorem noteFiller_eq (name : String) (restriction : ClassExpression) :
    ∃ classes enumerated, build.noteFiller name restriction =
      { build with referenced := build.referenced.insertAll classes, enumerated } ∧
      (∀ iri ∈ classes, ∃ filler, restriction.filler? = some filler ∧ iri ∈ filler.fillerClasses) ∧
      ∀ other ∈ enumerated, other = name ∨ other ∈ build.enumerated := by
  unfold noteFiller
  split
  · exact ⟨[], build.enumerated, rfl, fun _ h => absurd h List.not_mem_nil, fun _ => .inr⟩
  · rename_i filler hfiller
    dsimp only [refer]
    split
    · exact ⟨filler.fillerClasses, build.enumerated.insert name, rfl,
        fun iri h => ⟨filler, hfiller, h⟩, fun _ => NameSet.mem_insert.1⟩
    · exact ⟨filler.fillerClasses, build.enumerated, rfl, fun iri h => ⟨filler, hfiller, h⟩,
        fun _ => .inr⟩

theorem exists_givesItems (hprefixes : ontology.prefixes? = some prefixes)
    (restriction : ClassExpression) : ∃ items, ontology.GivesItems restriction items := by
  unfold Ontology.GivesItems
  cases restriction.filler? with
  | none => exact ⟨none, rfl⟩
  | some filler => exact ClassExpression.exists_fillerSchema? hprefixes filler

theorem refineProperty_eq {name : String} {part : ClassExpression} {items : Option SchemaNode}
    (annotations : List Annotation) (h : ontology.GivesItems part items) :
    refineProperty ontology configuration name part annotations build =
      .ok { build.noteFiller name part with
        schema := (build.noteFiller name part).schema.modifyProperty name fun property =>
          (property.restrict part items).annotateFromAxiom configuration part annotations
        functional :=
          if part.demandsOne then (build.noteFiller name part).functional.insert name
          else (build.noteFiller name part).functional
        enumerated :=
          if part.fixesValue then (build.noteFiller name part).enumerated.insert name
          else (build.noteFiller name part).enumerated } := by
  unfold refineProperty proceed
  unfold Ontology.GivesItems at h
  cases hfiller : part.filler? with
  | none =>
    rw [hfiller] at h
    simp only [h]
  | some filler =>
    rw [hfiller] at h
    simp only [h]

theorem exists_refineProperty (hprefixes : ontology.prefixes? = some prefixes) {name : String}
    {part : ClassExpression} {annotations : List Annotation}
    (hname : part.restrictedProperty?.map Iri.localName = some name)
    (hpart : ontology.Restricts part annotations) (hpresent : name ∈ build.schema.propertyNames) :
    ∃ next, refineProperty ontology configuration name part annotations build = .ok next ∧
      Grows ontology configuration (· = name) [] build next := by
  obtain ⟨classes, enumerated, hnote, hclasses, henumerated⟩ := noteFiller_eq build name part
  obtain ⟨items, hgives⟩ := exists_givesItems hprefixes part
  rw [refineProperty_eq annotations hgives, hnote]
  refine ⟨_, rfl, ?_⟩
  refine grows_of_property rfl ?_ ?_ ?_ ?_ ?_ ?_
  · intro iri hm
    obtain ⟨filler, hfiller, hmem⟩ := hclasses iri hm
    exact .inr ⟨part, annotations, filler, hpart, hfiller, hmem⟩
  · intro other hm
    dsimp only at hm
    split at hm
    · exact NameSet.mem_insert.1 hm
    · exact .inr hm
  · intro other hm
    dsimp only at hm
    split at hm
    · exact (NameSet.mem_insert.1 hm).elim .inl (henumerated other)
    · exact henumerated other hm
  · intro other
    have hsame : other ∈ Entries.names (Entries.modify name (fun property =>
        (property.restrict part items).annotateFromAxiom configuration part annotations)
        build.schema.properties) ↔ other ∈ build.schema.propertyNames := by
      rw [Entries.names_modify]
      exact Iff.rfl
    exact hsame.trans ⟨.inr, fun h => h.elim (fun he => he ▸ hpresent) id⟩
  · exact Entries.ordered_modify _ _
  · intro hformed entry hm
    rcases Entries.mem_modify hm with hsame | ⟨old, hmem, rfl⟩
    · exact hformed entry hsame
    · have hold : ontology.Formed configuration name old := hformed (name, old) hmem
      exact .refined hold hname hpart hgives

theorem exists_applyRestriction (hprefixes : ontology.prefixes? = some prefixes)
    {part : ClassExpression} {annotations : List Annotation}
    (hpart : ontology.Restricts part annotations) (henum : build.schema.isEnum = false) :
    ∃ next, applyRestriction ontology configuration part annotations build = .ok next ∧
      Grows ontology configuration
        (fun name => part.restrictedProperty?.map Iri.localName = some name) [] build next := by
  unfold applyRestriction
  cases hproperty : part.restrictedProperty? with
  | none => exact ⟨build, rfl, (Grows.refl build).congr fun _ => ⟨False.elim, nofun⟩⟩
  | some iri =>
    have hname : part.restrictedProperty?.map Iri.localName = some (Iri.localName iri) := by
      rw [hproperty]
      rfl
    -- First the property is present, whether it was before or is added now.
    have hpresent : ∃ middle,
        (if build.schema.hasProperty (Iri.localName iri) then .ok build
          else addProperty ontology configuration iri (ontology.findProperty? iri) build) =
            Except.ok middle ∧
          Iri.localName iri ∈ middle.schema.propertyNames ∧
          (middle = build ∨
            Grows ontology configuration (· = Iri.localName iri) [] build middle) := by
      by_cases hhas : build.schema.hasProperty (Iri.localName iri) = true
      · exact ⟨build, by rw [if_pos hhas], Entries.contains_iff.1 hhas, .inl rfl⟩
      · rw [if_neg hhas]
        obtain ⟨node, hnode, hadd⟩ := exists_addProperty configuration build hprefixes
          (Ontology.declares_findProperty? iri) henum
        refine ⟨_, hadd, Entries.mem_names_insert.2 (.inl rfl), .inr ?_⟩
        exact grows_of_property rfl
          (fun _ => pointsTo_of_propertyClasses (Ontology.declares_findProperty? iri))
          (fun _ => .inr) (fun _ => .inr) (fun _ => Entries.mem_names_insert)
          (Entries.ordered_insert _ _) (formed_insert hnode)
    obtain ⟨middle, hmiddle, hmem, hgrown⟩ := hpresent
    obtain ⟨next, hnext, hrefined⟩ := exists_refineProperty hprefixes hname hpart hmem
    refine ⟨next, ?_, ?_⟩
    · dsimp only
      rw [hmiddle]
      simp only [Except.bind, SchemaNode.hasProperty, Entries.contains_iff.2 hmem, if_true]
      exact hnext
    · rcases hgrown with rfl | hgrown
      · exact hrefined.congr fun name => by simp [eq_comm]
      · exact (hgrown.trans hrefined).congr fun name => by simp [eq_comm]

variable (configuration) in
theorem exists_addMember (hprefixes : ontology.prefixes? = some prefixes) {iri : String}
    {member : Member} (hmem : member ∈ ontology.members iri) (henum : build.schema.isEnum = false) :
    ∃ next, addMember ontology configuration build member = .ok next ∧
      Grows ontology configuration (fun name => member.name? = some name) [] build next := by
  rcases List.mem_append.1 hmem with hmem | hmem
  · have hdeclared : ∃ role declaration, member = .declared role declaration ∧
        declaration ∈ ontology.declarations role := by
      rcases List.mem_append.1 hmem with hmem | hmem <;>
        obtain ⟨declaration, hd, rfl⟩ := List.mem_map.1 hmem <;>
        exact ⟨_, declaration, rfl, (Ontology.mem_propertiesOf_iff.1 hd).1⟩
    obtain ⟨role, declaration, rfl, hd⟩ := hdeclared
    obtain ⟨next, hnext, hgrows⟩ := exists_addDeclared hprefixes hd henum
    exact ⟨next, hnext, hgrows.congr fun name => by simp [Member.name?, eq_comm]⟩
  · obtain ⟨statement, hstatement, hmem⟩ := List.mem_flatMap.1 hmem
    obtain ⟨part, hpart, rfl⟩ := List.mem_map.1 hmem
    have hrestricts : ontology.Restricts part statement.annotations :=
      ⟨statement, (List.mem_filter.1 hstatement).1, hpart, rfl⟩
    exact exists_applyRestriction hprefixes hrestricts henum

/-- A run of growing steps grows by what all of them bring. -/
theorem exists_foldlM_grows {α : Type} (list : List α) {step : ClassBuild → α → Attempt}
    {brings : α → String → Prop} (meets : α → List String)
    (hstep : ∀ item ∈ list, ∀ build : ClassBuild, build.schema.isEnum = false →
      ∃ next, step build item = .ok next ∧
        Grows ontology configuration (brings item) (meets item) build next)
    (henum : build.schema.isEnum = false) :
    ∃ next, list.foldlM step build = .ok next ∧
      Grows ontology configuration (fun name => ∃ item ∈ list, brings item name)
        (list.flatMap meets) build next := by
  induction list generalizing build with
  | nil => exact ⟨build, rfl, (Grows.refl build).congr fun _ => by simp⟩
  | cons item rest ih =>
    obtain ⟨middle, hmiddle, hfirst⟩ := hstep item List.mem_cons_self build henum
    obtain ⟨next, hnext, hrest⟩ := ih (fun other hm => hstep other (List.mem_cons_of_mem _ hm))
      (hfirst.isEnum.trans henum)
    refine ⟨next, ?_, ?_⟩
    · rw [List.foldlM_cons, hmiddle]
      exact hnext
    · rw [List.flatMap_cons]
      exact (hfirst.trans hrest).congr fun name => by simp

variable (configuration) in
theorem exists_addMembers (hprefixes : ontology.prefixes? = some prefixes) (iri : String)
    (henum : build.schema.isEnum = false) :
    ∃ next, addMembers ontology configuration iri build = .ok next ∧
      Grows ontology configuration (ontology.Brings iri) [] build next := by
  have hstep : ∀ member ∈ ontology.members iri, ∀ build : ClassBuild,
      build.schema.isEnum = false →
      ∃ next, addMember ontology configuration build member = .ok next ∧
        Grows ontology configuration (fun name => member.name? = some name) [] build next :=
    fun _ hmem _ henum => exists_addMember configuration hprefixes hmem henum
  obtain ⟨next, hnext, hgrows⟩ := exists_foldlM_grows _ (fun _ => []) hstep henum
  have hnone : (ontology.members iri).flatMap (fun _ => ([] : List String)) = [] := by simp
  rw [hnone] at hgrows
  exact ⟨next, hnext, hgrows⟩

variable (ontology configuration build) in
theorem grows_meet (iri : String) :
    Grows ontology configuration (fun _ => False) [iri] build { build with
      processed := build.processed.insert iri, referenced := build.referenced.insert iri } where
  subject := rfl
  mandatory := rfl
  required := rfl
  markdown := rfl
  shell := rfl
  processed _ := by rw [NameSet.mem_insert, List.mem_singleton]
  referenced _ h := by rwa [NameSet.mem_insert, ← List.mem_singleton]
  referenced_of _ h := by
    rw [NameSet.mem_insert, ← List.mem_singleton] at h
    exact .inl h
  names := by simp
  functional _ := .inr
  enumerated _ := .inr
  ordered := id
  formed := id

variable (configuration) in
theorem exists_addAncestor (hprefixes : ontology.prefixes? = some prefixes) (iri : String)
    (henum : build.schema.isEnum = false) :
    ∃ next, addAncestor ontology configuration build iri = .ok next ∧
      Grows ontology configuration (fun name =>
        configuration.schema.useInheritanceReferences = false ∧ ontology.Brings iri name)
        [iri] build next := by
  have hmeet := grows_meet ontology configuration build iri
  unfold addAncestor
  dsimp only
  cases huse : configuration.schema.useInheritanceReferences with
  | true => exact ⟨_, rfl, hmeet.congr fun _ => by simp⟩
  | false =>
    obtain ⟨next, hnext, hgrows⟩ := exists_addMembers configuration hprefixes iri
      (hmeet.isEnum.trans henum)
    exact ⟨next, hnext, (hmeet.trans hgrows).congr fun _ => by simp⟩

/-- The visit of a class that is no enumeration takes in the members of its contributors and meets
its superclasses. -/
theorem exists_visit (hprefixes : ontology.prefixes? = some prefixes)
    (hclass : ontology.enumeration? build.subject = none) (henum : build.schema.isEnum = false) :
    ∃ visited, build.visit ontology configuration = .ok visited ∧
      Grows ontology configuration
        (fun name => ∃ iri ∈ ontology.contributors configuration.schema build.subject,
          ontology.Brings iri name)
        (ontology.metSuperclasses configuration.schema build.subject) build visited := by
  obtain ⟨middle, hmiddle, hown⟩ := exists_addMembers configuration hprefixes
    build.subject henum
  unfold visit
  rw [hclass]
  simp only [hmiddle, bind, Except.bind]
  by_cases hfollow : configuration.schema.followReferences = true
  · rw [if_pos hfollow, hown.subject]
    obtain ⟨visited, hvisited, hall⟩ := exists_foldlM_grows
      (ontology.superclasses build.subject).toList (fun iri => [iri])
      (fun iri _ _ henum => exists_addAncestor configuration hprefixes iri henum)
      (hown.isEnum.trans henum)
    refine ⟨visited, hvisited, ?_⟩
    have hmet : [] ++ (ontology.superclasses build.subject).toList.flatMap (fun iri => [iri]) =
        ontology.metSuperclasses configuration.schema build.subject := by
      rw [Ontology.metSuperclasses, if_pos hfollow, List.nil_append, List.flatMap_singleton']
    rw [← hmet]
    refine (hown.trans hall).congr fun name => ?_
    cases huse : configuration.schema.useInheritanceReferences <;>
      simp [Ontology.contributors, hfollow, huse]
  · rw [if_neg hfollow]
    refine ⟨middle, rfl, ?_⟩
    rw [Ontology.metSuperclasses, if_neg hfollow]
    exact hown.congr fun name => by simp [Ontology.contributors, hfollow]

end ClassBuild

end OntoSchema
