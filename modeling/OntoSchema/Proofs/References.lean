import OntoSchema.Proofs.Compilation

/-!
# References in compiled schemas

References come from ranges, from fillers at any depth and from superclasses. `OnlyMentions` says
where all references inside a schema lead, at any depth of it. It holds of every property a visit
can produce, and every stage keeps it. So a compilation of all classes leaves no reference without
its component, if the classes that the ontology uses are declared.
-/

namespace OntoSchema

namespace SchemaNode

/-- A reference stands somewhere in a schema. -/
inductive Mentions (reference : String) : SchemaNode → Prop
  | here {node : SchemaNode} : node.reference = some reference → Mentions reference node
  | property {node child : SchemaNode} {name : String} :
      (name, child) ∈ node.properties → Mentions reference child → Mentions reference node
  | item {node child : SchemaNode} :
      node.items = some child → Mentions reference child → Mentions reference node
  | variant {node child : SchemaNode} :
      child ∈ node.oneOf → Mentions reference child → Mentions reference node
  | part {node child : SchemaNode} :
      child ∈ node.allOf → Mentions reference child → Mentions reference node

variable (leads : String → Prop)

/-- All references in a schema lead somewhere. -/
def OnlyMentions (node : SchemaNode) : Prop :=
  ∀ reference, Mentions reference node → leads reference

variable {leads} {node : SchemaNode}

theorem onlyMentions_iff : node.OnlyMentions leads ↔
    (∀ reference, node.reference = some reference → leads reference) ∧
      ∀ child, node.HasPart child → child.OnlyMentions leads := by
  constructor
  · intro h
    refine ⟨fun _ href => h _ (.here href), fun child hpart reference hmention => ?_⟩
    cases hpart with
    | property hm => exact h _ (.property hm hmention)
    | item hm => exact h _ (.item hm hmention)
    | variant hm => exact h _ (.variant hm hmention)
    | part hm => exact h _ (.part hm hmention)
  · rintro ⟨hhere, hparts⟩ reference hmention
    cases hmention with
    | here href => exact hhere _ href
    | property hm hr => exact hparts _ (.property hm) _ hr
    | item hm hr => exact hparts _ (.item hm) _ hr
    | variant hm hr => exact hparts _ (.variant hm) _ hr
    | part hm hr => exact hparts _ (.part hm) _ hr

theorem onlyMentions_ofKeywords (keywords : Keywords) (href : keywords.reference = none) :
    OnlyMentions leads { toKeywords := keywords } := by
  refine onlyMentions_iff.2 ⟨fun _ h => ?_, fun _ hpart => absurd hpart not_hasPart_ofKeywords⟩
  rw [href] at h
  cases h

theorem onlyMentions_referenceTo {component : String} (h : leads (componentPath ++ component)) :
    (referenceTo component).OnlyMentions leads := by
  refine onlyMentions_iff.2 ⟨fun _ href => ?_, fun _ hpart => absurd hpart not_hasPart_ofKeywords⟩
  obtain rfl := Option.some.inj href
  exact h

theorem onlyMentions_oneOfNodes {variants : List SchemaNode}
    (h : ∀ variant ∈ variants, variant.OnlyMentions leads) :
    (oneOfNodes variants).OnlyMentions leads :=
  onlyMentions_iff.2 ⟨nofun, fun _ hpart => h _ hpart.mem_of_oneOfNodes⟩

theorem onlyMentions_allOfNodes {parts : List SchemaNode}
    (h : ∀ part ∈ parts, part.OnlyMentions leads) : (allOfNodes parts).OnlyMentions leads :=
  onlyMentions_iff.2 ⟨nofun, fun _ hpart => h _ hpart.mem_of_allOfNodes⟩

/-- Keywords other than the reference do not matter. -/
theorem OnlyMentions.withKeywords (h : node.OnlyMentions leads) {keywords : Keywords}
    (href : keywords.reference = node.reference ∨ keywords.reference = none) :
    OnlyMentions leads { node with toKeywords := keywords } := by
  obtain ⟨hhere, hparts⟩ := onlyMentions_iff.1 h
  refine onlyMentions_iff.2 ⟨fun reference hreference => ?_,
    fun child hpart => hparts child hpart.of_withKeywords⟩
  rcases href with href | href
  · exact hhere reference (href ▸ hreference)
  · have hreference : keywords.reference = some reference := hreference
    rw [href] at hreference
    cases hreference

theorem OnlyMentions.withoutVariants (h : node.OnlyMentions leads) :
    OnlyMentions leads { node with oneOf := [] } := by
  obtain ⟨hhere, hparts⟩ := onlyMentions_iff.1 h
  exact onlyMentions_iff.2 ⟨hhere, fun child hpart => hparts child hpart.of_withoutVariants⟩

theorem OnlyMentions.item (h : node.OnlyMentions leads) {items : SchemaNode}
    (hitems : node.items = some items) : items.OnlyMentions leads :=
  (onlyMentions_iff.1 h).2 items (.item hitems)

/-- A node with given items, and whatever keywords. -/
theorem OnlyMentions.replaceItems (h : node.OnlyMentions leads) {items : SchemaNode}
    (hitems : items.OnlyMentions leads) {keywords : Keywords}
    (href : keywords.reference = node.reference) :
    OnlyMentions leads { node with toKeywords := keywords, items := some items } := by
  obtain ⟨hhere, hparts⟩ := onlyMentions_iff.1 h
  refine onlyMentions_iff.2 ⟨fun reference hreference => hhere reference (href ▸ hreference),
    fun child hpart => ?_⟩
  rcases hpart.of_replaceItems with rfl | hpart
  · exact hitems
  · exact hparts child hpart

theorem OnlyMentions.settle (h : node.OnlyMentions leads) : node.settle.OnlyMentions leads := by
  unfold SchemaNode.settle
  split
  · rename_i items hitems
    refine h.replaceItems ?_ rfl
    unfold dropSingleValue
    split
    · exact (h.item hitems).withKeywords (.inl rfl)
    · exact h.item hitems
  · split
    · exact h.withKeywords (.inl rfl)
    · exact h

theorem OnlyMentions.collapsed (h : node.OnlyMentions leads) :
    node.collapsed.OnlyMentions leads := by
  unfold SchemaNode.collapsed
  split
  · exact h
  · rename_i items hitems
    exact (h.item hitems).withKeywords (.inl rfl)

end SchemaNode

namespace Ontology

variable (ontology : Ontology) (prefixes : NameMap String)

/-- A class is declared, or the class of everything. -/
def Knows (iri : String) : Prop := iri ∈ ontology.classIris ∨ iri = owlThing

/-- The classes that an ontology uses in ranges, in fillers at any depth and as superclasses are
declared. -/
structure Closed : Prop where
  ranges : ∀ declaration ∈ ontology.objectProperties, ∀ iri ∈ declaration.ranges,
    ontology.Knows iri
  fillers : ∀ statement ∈ ontology.subclassAxioms, ∀ part filler,
    ClassExpression.Within ClassExpression.OpensIntersections part statement.sup →
      part.filler? = some filler → ∀ iri,
        ClassExpression.Within ClassExpression.OpensAll (.named iri) filler → ontology.Knows iri
  superclasses : ∀ statement ∈ ontology.subclassAxioms, ∀ iri,
    ClassExpression.Within ClassExpression.OpensIntersections (.named iri) statement.sup →
      ontology.Knows iri
  /-- An equivalence with an intersection makes its operands superclasses. -/
  operands : ∀ statement ∈ ontology.equivalences, ∀ operands,
    statement.expression = .combination .object .intersection operands →
      ∀ operand ∈ operands, ∀ iri,
        ClassExpression.Within ClassExpression.OpensIntersections (.named iri) operand →
          ontology.Knows iri

/-- A text refers to the schema of a declared class. -/
def RefersToClass (reference : String) : Prop :=
  ∃ iri ∈ ontology.classIris, reference = componentPath ++ qualifiedName prefixes iri

variable {ontology prefixes} {configuration : Configuration} {leads : String → Prop}

theorem Knows.declared {iri : String} (h : ontology.Knows iri) (hne : iri ≠ owlThing) :
    iri ∈ ontology.classIris :=
  h.resolve_right hne

theorem Closed.mem_of_rangeClasses (h : ontology.Closed) {declaration : PropertyDeclaration}
    (hmem : declaration ∈ ontology.objectProperties) {iri : String}
    (hiri : iri ∈ declaration.rangeClasses) : iri ∈ ontology.classIris := by
  obtain ⟨hrange, hne⟩ := List.mem_filter.1 hiri
  exact (h.ranges declaration hmem iri hrange).declared (of_decide_eq_true hne)

theorem Closed.mem_of_fillerClasses (h : ontology.Closed) {part filler : ClassExpression}
    {annotations : List Annotation} (hpart : ontology.Restricts part annotations)
    (hfiller : part.filler? = some filler) {iri : String} (hiri : iri ∈ filler.fillerClasses) :
    iri ∈ ontology.classIris := by
  obtain ⟨statement, hmem, hconjunct, _⟩ := hpart
  obtain ⟨hne, hwithin⟩ := (ClassExpression.mem_fillerClasses_iff filler).1 hiri
  have hproperty := ClassExpression.property?_isSome_of_filler hfiller
  have hinside := (ClassExpression.mem_conjuncts_iff hproperty _).1 hconjunct
  exact (h.fillers statement hmem part filler hinside hfiller iri hwithin).declared hne

theorem Closed.knows_of_implied (h : ontology.Closed) {iri other : String}
    (hother : other ∈ ontology.impliedClasses iri) : ontology.Knows other := by
  rcases List.mem_append.1 hother with hmem | hmem
  · obtain ⟨statement, hstatement, hclass⟩ := List.mem_flatMap.1 hmem
    exact h.superclasses statement (List.mem_filter.1 hstatement).1 other
      ((ClassExpression.mem_conjunctClasses_iff _).1 hclass)
  · obtain ⟨statement, hstatement, hclass⟩ := List.mem_flatMap.1 hmem
    unfold equivalenceClasses at hclass
    split at hclass
    · rename_i operands hexpression
      rw [ClassExpression.conjunctClassesOfAll_eq_flatMap] at hclass
      obtain ⟨operand, hoperand, hclass⟩ := List.mem_flatMap.1 hclass
      exact h.operands statement (List.mem_filter.1 hstatement).1 operands hexpression operand
        hoperand other ((ClassExpression.mem_conjunctClasses_iff _).1 hclass)
    · exact absurd hclass List.not_mem_nil

theorem Closed.mem_of_superclasses (h : ontology.Closed) {iri other : String}
    (hother : other ∈ ontology.superclasses iri) : other ∈ ontology.classIris := by
  obtain ⟨below, hbelow⟩ := exists_isBelow_of_mem_superclasses hother
  obtain ⟨himplied, _, hne⟩ := mem_directSuperclasses.1 hbelow
  exact (h.knows_of_implied himplied).declared hne

/-- The schema of a filler refers to the classes of the filler. -/
theorem onlyMentions_fillerSchema? (hprefixes : ontology.prefixes? = some prefixes)
    {filler : ClassExpression}
    (hclasses : ∀ iri ∈ filler.fillerClasses, leads (componentPath ++ qualifiedName prefixes iri))
    {value : SchemaNode} (h : filler.fillerSchema? ontology = .ok (some value)) :
    value.OnlyMentions leads := by
  induction filler using ClassExpression.induction_on_operands generalizing value with
  | combination role connective operands ih =>
    rw [ClassExpression.fillerClasses, ClassExpression.fillerClassesOfAll_eq_flatMap] at hclasses
    have hall : ∀ schemas, ClassExpression.fillerSchemas ontology operands = .ok schemas →
        ∀ schema ∈ schemas, schema.OnlyMentions leads := by
      intro schemas hschemas schema hm
      obtain ⟨operand, ho, hschema⟩ := exists_operand_of_fillerSchemas hschemas hm
      exact ih operand ho
        (fun iri hiri => hclasses iri (List.mem_flatMap.2 ⟨operand, ho, hiri⟩)) hschema
    cases fills_of_fillerSchema? h with
    | variants _ hschemas => exact SchemaNode.onlyMentions_oneOfNodes (hall _ hschemas)
    | parts _ hschemas => exact SchemaNode.onlyMentions_allOfNodes (hall _ hschemas)
  | simple filler hsimple =>
    cases fills_of_fillerSchema? h with
    | @reference iri name hne hname =>
      rw [schemaName_eq hprefixes] at hname
      obtain rfl := Except.ok.inj hname
      rw [ClassExpression.fillerClasses, if_neg hne] at hclasses
      exact SchemaNode.onlyMentions_referenceTo (hclasses iri List.mem_cons_self)
    | datatype | individuals | literals => exact SchemaNode.onlyMentions_ofKeywords _ rfl
    | variants | parts => exact absurd rfl (hsimple _ _ _)

theorem Offers.onlyMentions (hclosed : ontology.Closed) {iri : String}
    {declaration : Option (Role × PropertyDeclaration)}
    (hdeclares : ontology.Declares iri declaration) {node : SchemaNode}
    (h : Offers prefixes declaration node) :
    node.OnlyMentions (ontology.RefersToClass prefixes) := by
  cases h with
  | datatype => exact SchemaNode.onlyMentions_ofKeywords _ rfl
  | reference hdeclared hrange =>
    have hmem := (hdeclares .object _ hdeclared).1
    exact SchemaNode.onlyMentions_referenceTo
      ⟨_, hclosed.mem_of_rangeClasses hmem hrange, rfl⟩

theorem FormsItems.onlyMentions (hprefixes : ontology.prefixes? = some prefixes)
    (hclosed : ontology.Closed) {items : SchemaNode} (h : FormsItems ontology prefixes items) :
    items.OnlyMentions (ontology.RefersToClass prefixes) := by
  induction h with
  | datatype => exact SchemaNode.onlyMentions_ofKeywords _ rfl
  | offered hdeclares hoffers => exact hoffers.onlyMentions hclosed hdeclares
  | choice hdeclares _ hoffers =>
    exact SchemaNode.onlyMentions_oneOfNodes fun variant hm =>
      (hoffers variant hm).onlyMentions hclosed hdeclares
  | filler hpart hfiller hschema =>
    refine onlyMentions_fillerSchema? hprefixes (fun iri hiri => ?_) hschema
    exact ⟨iri, hclosed.mem_of_fillerClasses hpart hfiller hiri, rfl⟩
  | pinned value _ _ ih => exact ih.withoutVariants.withKeywords (.inr rfl)

/-- Every reference in a property that a visit can produce leads to a declared class. -/
theorem Formed.onlyMentions (hprefixes : ontology.prefixes? = some prefixes)
    (hclosed : ontology.Closed) {name : String} {node : SchemaNode}
    (h : ontology.Formed configuration name node) :
    node.OnlyMentions (ontology.RefersToClass prefixes) := by
  have hholds := h.holdsItems hprefixes
  refine SchemaNode.onlyMentions_iff.2 ⟨fun reference href => ?_, fun child hpart => ?_⟩
  · rw [hholds.reference] at href
    cases href
  · exact (hholds.items child (hholds.eq_items_of_hasPart hpart)).2.onlyMentions hprefixes hclosed

end Ontology

namespace ClassBuild

variable {ontology : Ontology} {prefixes : NameMap String} {configuration : Configuration}
  {leads : String → Prop}

/-- The stages add references to superclasses only. -/
theorem onlyMentions_staged (inflector : Inflector) (hclosed : ontology.Closed) {iri : String}
    {build : ClassBuild} (hvisited : build.Visited ontology prefixes configuration iri)
    (hformed : ∀ entry ∈ build.schema.properties,
      entry.2.OnlyMentions (ontology.RefersToClass prefixes)) :
    (build.staged ontology prefixes configuration inflector).schema.OnlyMentions
      (ontology.RefersToClass prefixes) := by
  have hproperties : ∀ entry ∈ (build.converted configuration inflector).schema.properties,
      entry.2.OnlyMentions (ontology.RefersToClass prefixes) :=
    converted_induction hvisited.ordered (fun entry hm => (hformed entry hm).settle)
      (fun _ _ h => h.withKeywords (.inl rfl)) fun _ => .collapsed
  refine SchemaNode.onlyMentions_iff.2 ⟨fun reference href => ?_, fun child hpart => ?_⟩
  · obtain ⟨_, _, _, _, _, hconverted⟩ := exists_converted_eq configuration inflector build
    obtain ⟨_, _, hshell⟩ := hvisited.shell
    rw [schema_staged, hconverted] at href
    have hnone : build.schema.reference = none := congrArg (fun node => node.reference) hshell
    exact absurd (href.symm.trans hnone) (Option.some_ne_none reference)
  · rcases part_of_staged hvisited hpart with ⟨entry, hm, rfl⟩ | ⟨other, habove, rfl⟩ | rfl
    · exact hproperties entry hm
    · exact SchemaNode.onlyMentions_referenceTo
        ⟨other, hclosed.mem_of_superclasses habove, rfl⟩
    · exact SchemaNode.onlyMentions_ofKeywords _ rfl

end ClassBuild

namespace Ontology

variable {ontology : Ontology} {configuration : Configuration} {inflector : Inflector}

/-- In a compilation of all classes, every reference at any depth of a schema names a component of
the compilation, if the classes that the ontology uses are declared. -/
theorem references_lead_to_components (hall : configuration.classes = none)
    (hclosed : ontology.Closed) {compilation : Compilation}
    (hcompile : ontology.compile configuration inflector = .ok compilation) :
    ∀ name schema, compilation.schemas.get? name = some schema →
      ∀ reference, schema.Mentions reference →
        ∃ component, reference = componentPath ++ component ∧
          compilation.schemas.contains component = true := by
  intro name schema hget reference hmention
  obtain ⟨prefixes, hprefixes⟩ := prefixes?_of_compile hcompile hget
  obtain ⟨hfound, hcontains⟩ := schemas_of_compile hprefixes hall hcompile
  obtain ⟨iri, _, _, compiled, hcompiled, rfl⟩ := hfound name schema hget
  obtain ⟨visited, compiled', _, hvisited, hcompiled', _, hschema⟩ :=
    exists_compileClass hprefixes configuration inflector iri
  obtain rfl : compiled' = compiled := Except.ok.inj (hcompiled'.symm.trans hcompiled)
  have hformed : ∀ entry ∈ visited.schema.properties,
      entry.2.OnlyMentions (ontology.RefersToClass prefixes) := fun entry hm =>
    (hvisited.formed entry hm).onlyMentions hprefixes hclosed
  have honly := ClassBuild.onlyMentions_staged inflector hclosed hvisited hformed
  rw [hschema] at hmention
  obtain ⟨other, hother, hreference⟩ := honly reference hmention
  exact ⟨_, hreference, (hcontains _).2 ⟨other, hother, rfl⟩⟩

/-- Books are works; they have authors, and they cite books and works. -/
def library : Ontology where
  iri := "e"
  prefixes := some (.ofList [("", "e#")])
  classes := [{ iri := "e#Book" }, { iri := "e#Person" }, { iri := "e#Work" }]
  objectProperties := [{ iri := "e#author", domains := ["e#Work"], ranges := ["e#Person"] }]
  subclassAxioms := [{ sub := "e#Book", sup := .named "e#Work" },
    { sub := "e#Book", sup := .quantified .object .existential "e#cites"
        (.combination .object .union [.named "e#Book", .named "e#Work"]) }]

theorem closed_library : library.Closed where
  ranges declaration hmem iri hrange := by
    obtain rfl := List.mem_singleton.1 hmem
    obtain rfl := List.mem_singleton.1 hrange
    exact .inl (by decide)
  fillers statement hmem part filler hpart hfiller iri hwithin := by
    have hproperty := ClassExpression.property?_isSome_of_filler hfiller
    have hconjunct := (ClassExpression.mem_conjuncts_iff hproperty _).2 hpart
    simp only [library, List.mem_cons, List.not_mem_nil, or_false] at hmem
    rcases hmem with rfl | rfl
    · cases hconjunct
    · obtain rfl := List.mem_singleton.1 hconjunct
      obtain rfl := Option.some.inj hfiller
      by_cases hthing : iri = owlThing
      · exact .inr hthing
      · have hclass := (ClassExpression.mem_fillerClasses_iff _).2 ⟨hthing, hwithin⟩
        have hdeclared : ∀ iri ∈ ["e#Book", "e#Work"], iri ∈ library.classIris := by decide
        exact .inl (hdeclared iri hclass)
  superclasses statement hmem iri hwithin := by
    have hclass := (ClassExpression.mem_conjunctClasses_iff _).2 hwithin
    have hdeclared : ∀ statement ∈ library.subclassAxioms, ∀ iri ∈ statement.sup.conjunctClasses,
        iri ∈ library.classIris := by decide
    exact .inl (hdeclared statement hmem iri hclass)
  operands _ hmem := absurd hmem List.not_mem_nil

/-- A book refers to works, among the variants of what it cites. -/
theorem references_lead_to_components_library :
    ({} : Configuration).classes = none ∧ library.Closed ∧
      ∃ compilation, library.compile {} .english = .ok compilation ∧
        (∀ name schema, compilation.schemas.get? name = some schema →
          ∀ reference, schema.Mentions reference →
            ∃ component, reference = componentPath ++ component ∧
              compilation.schemas.contains component = true) ∧
        ∃ book, compilation.schemas.get? "Book" = some book ∧
          book.Mentions (componentPath ++ "Work") ∧
          compilation.schemas.contains "Work" = true := by
  have hprefixes : library.prefixes? = some (.ofList [("", "e#")]) := rfl
  have hvalid : ({} : Configuration).validate = .ok () := rfl
  obtain ⟨compilation, hcompile⟩ := exists_compile hprefixes hvalid .english
  have hlead := references_lead_to_components rfl closed_library hcompile
  have hread : (library.compile {} .english).map (fun compilation =>
      (compilation.schemas.get? "Book").bind fun book => (book.property? "cites").bind fun cites =>
        cites.items.map (·.oneOf)) =
      .ok (some [.referenceTo "Book", .referenceTo "Work"]) := by decide +kernel
  rw [hcompile] at hread
  obtain ⟨book, hbook, hread⟩ := Option.bind_eq_some_iff.1 (Except.ok.inj hread)
  obtain ⟨cites, hcites, hread⟩ := Option.bind_eq_some_iff.1 hread
  obtain ⟨items, hitems, hvariants⟩ := Option.map_eq_some_iff.1 hread
  have hwork : SchemaNode.referenceTo "Work" ∈ items.oneOf := by
    rw [hvariants]
    exact List.mem_cons_of_mem _ List.mem_cons_self
  have hmention : book.Mentions (componentPath ++ "Work") :=
    .property (Entries.mem_of_get? hcites) (.item hitems (.variant hwork (.here rfl)))
  obtain ⟨component, hreference, hcomponent⟩ := hlead "Book" book hbook _ hmention
  obtain rfl : "Work" = component := (String.append_right_inj _).1 hreference
  exact ⟨rfl, closed_library, compilation, hcompile, hlead, book, hbook, hmention, hcomponent⟩

end Ontology

end OntoSchema
