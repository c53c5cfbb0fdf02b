import Mathlib.Data.List.Induction
import OntoSchema.Proofs.PropertyHistories
import OntoSchema.Proofs.PropertyNames

/-!
# Visits with and without the default properties

Two visits of a class that differ only in whether its schema begins with the catalog agree on every
name that the catalog lacks. On a name of the catalog they need not agree: a declaration replaces
the entry as long as it is untouched, but a restriction refines it where it would refine a fresh
property without the catalog. Entries of the catalog say whether they are nullable, and a visit
never says so. Hence an entry that no declaration replaces differs from the property of the other
visit, and `Ontology.harmless_iff` says which ontologies tell the two visits apart.
-/

namespace OntoSchema

/-- A configuration with the default properties, or without them. -/
def Configuration.withDefaults (configuration : Configuration) (defaults : Bool) : Configuration :=
  { configuration with schema := { configuration.schema with defaultProperties := defaults } }

section Nullability

variable {ontology : Ontology} {configuration : Configuration} {prefixes : NameMap String}
  {node : SchemaNode}

theorem SchemaNode.nullable_restrict (part : ClassExpression) (items : Option SchemaNode) :
    (node.restrict part items).nullable = node.nullable := by
  have hwith : (node.withItems items).nullable = node.nullable := by cases items <;> rfl
  rw [← hwith]
  cases part with
  | cardinality role bound property count filler => cases bound <;> rfl
  | _ => rfl

theorem SchemaNode.nullable_annotateFromAxiom (part : ClassExpression)
    (annotations : List Annotation) :
    (node.annotateFromAxiom configuration part annotations).nullable = node.nullable := by
  obtain ⟨r, w, e, h⟩ := annotateFromAxiom_eq configuration part annotations node
  rw [h]

theorem Ontology.nullable_arrayOfVariants (variants : List SchemaNode) :
    (arrayOfVariants variants).nullable = none := by
  cases variants with
  | nil => rfl
  | cons first rest => cases rest <;> rfl

theorem Ontology.nullable_freshProperty (hprefixes : ontology.prefixes? = some prefixes)
    (iri : String) (declaration : Option (Role × PropertyDeclaration)) :
    (ontology.freshProperty configuration iri declaration).nullable = none := by
  obtain ⟨variants, d, r, w, e, h⟩ :=
    exists_freshProperty_eq configuration hprefixes iri declaration
  rw [h]
  exact nullable_arrayOfVariants variants

theorem nullable_ne_none_of_mem_catalog {name : String} (h : (name, node) ∈ Catalog.entries) :
    node.nullable ≠ none := by
  rcases Ontology.cases_of_mem_catalog h with ⟨datatype, text, _, rfl⟩ | rfl <;> exact nofun

/-- No member makes a property nullable. -/
theorem Member.nullable_evolve (hprefixes : ontology.prefixes? = some prefixes) (member : Member)
    {current : Option SchemaNode} (h : current.bind (·.nullable) = none) :
    (member.evolve ontology configuration current).bind (·.nullable) = none := by
  cases member with
  | declared role declaration =>
    unfold evolve
    cases current with
    | none => exact Ontology.nullable_freshProperty hprefixes _ _
    | some existing =>
      dsimp only
      split
      · exact Ontology.nullable_freshProperty hprefixes _ _
      · exact h
  | restricted part annotations =>
    cases hproperty : part.restrictedProperty? with
    | none => rwa [evolve_unrestricted hproperty]
    | some iri =>
      rw [evolve_restricted hproperty, Option.bind_some, SchemaNode.nullable_annotateFromAxiom,
        SchemaNode.nullable_restrict]
      cases current with
      | none => exact Ontology.nullable_freshProperty hprefixes _ _
      | some existing => exact h

theorem Ontology.nullable_develop (hprefixes : ontology.prefixes? = some prefixes)
    (members : List Member) {current : Option SchemaNode}
    (h : current.bind (·.nullable) = none) :
    (ontology.develop configuration members current).bind (·.nullable) = none := by
  induction members generalizing current with
  | nil => exact h
  | cons member rest ih => exact ih (member.nullable_evolve hprefixes h)

end Nullability

namespace Ontology

variable (ontology : Ontology) (configuration : Configuration)

/-- Among members of one name a declaration finds the entry of the catalog as it stands there, and
those before it do not matter without the catalog either: what they make of the property is what the
declaration and the members behind it make alone. -/
def Recovers (members : List Member) (entry : SchemaNode) : Prop :=
  ∃ before role declaration after, members = before ++ .declared role declaration :: after ∧
    ontology.develop configuration before (some entry) = some entry ∧
    ontology.develop configuration members none = ontology.develop configuration after
      (some (ontology.freshProperty configuration declaration.iri (some (role, declaration))))

variable {ontology configuration} {prefixes : NameMap String} {name : String} {entry : SchemaNode}
  {members : List Member}

/-- The first of some members is a declaration. -/
def startsDeclared : List Member → Bool
  | .declared _ _ :: _ => true
  | _ => false

/-- A declaration that comes first replaces the entry before anything else sees it. -/
theorem recovers_of_startsDeclared (h : startsDeclared members = true) (entry : SchemaNode) :
    ontology.Recovers configuration members entry := by
  unfold startsDeclared at h
  split at h
  · exact ⟨[], _, _, _, rfl, rfl, rfl⟩
  · cases h

theorem isUntouched_iff (hentry : Entries.get? name Catalog.entries = some entry)
    {node : SchemaNode} : Catalog.isUntouched name node = true ↔ node = entry := by
  rw [Catalog.isUntouched, beq_iff_eq, hentry, Option.some_inj, eq_comm]

theorem evolve_declared_of_entry (hentry : Entries.get? name Catalog.entries = some entry)
    {role : Role} {declaration : PropertyDeclaration}
    (hname : (Member.declared role declaration).name? = some name) :
    (Member.declared role declaration).evolve ontology configuration (some entry) =
      some (ontology.freshProperty configuration declaration.iri (some (role, declaration))) := by
  obtain rfl : Iri.localName declaration.iri = name := Option.some.inj hname
  rw [Member.evolve_declared, if_pos ((isUntouched_iff hentry).2 rfl)]

/-- A member keeps a property as nullable as it was, unless it is a declaration and finds the entry
of the catalog. -/
theorem nullable_evolve_entry (hentry : Entries.get? name Catalog.entries = some entry)
    {member : Member} (hname : member.name? = some name) (node : SchemaNode) :
    (∃ role declaration, member = .declared role declaration ∧ node = entry) ∨
      (member.evolve ontology configuration (some node)).bind (·.nullable) = node.nullable := by
  cases member with
  | declared role declaration =>
    obtain rfl : Iri.localName declaration.iri = name := Option.some.inj hname
    by_cases hsame : node = entry
    · exact .inl ⟨role, declaration, rfl, hsame⟩
    · refine .inr ?_
      rw [Member.evolve_declared, if_neg fun huntouched =>
        hsame ((isUntouched_iff hentry).1 huntouched)]
      rfl
  | restricted part annotations =>
    obtain ⟨iri, hproperty, _⟩ := Option.map_eq_some_iff.1 hname
    refine .inr ?_
    rw [Member.evolve_restricted hproperty, Option.bind_some,
      SchemaNode.nullable_annotateFromAxiom, SchemaNode.nullable_restrict]
    rfl

/-- An entry of the catalog stays as nullable as it was, unless a declaration finds it untouched. -/
theorem nullable_develop_entry (hentry : Entries.get? name Catalog.entries = some entry)
    (hnames : ∀ member ∈ members, member.name? = some name) :
    (∃ before role declaration after, members = before ++ .declared role declaration :: after ∧
      ontology.develop configuration before (some entry) = some entry) ∨
    (ontology.develop configuration members (some entry)).bind (·.nullable) = entry.nullable := by
  have hnullable := nullable_ne_none_of_mem_catalog (Entries.mem_of_get? hentry)
  induction members using List.reverseRecOn with
  | nil => exact .inr rfl
  | append_singleton rest member ih =>
    rcases ih fun other hm => hnames other (List.mem_append_left _ hm) with hfound | hkept
    · obtain ⟨before, role, declaration, after, rfl, hbefore⟩ := hfound
      refine .inl ⟨before, role, declaration, after ++ [member], ?_, hbefore⟩
      rw [List.append_assoc, List.cons_append]
    · -- What is as nullable as the entry is there, for the entry says whether it is nullable.
      cases hrest : ontology.develop configuration rest (some entry) with
      | none =>
        rw [hrest] at hkept
        exact absurd hkept.symm hnullable
      | some node =>
        rw [hrest] at hkept
        have hname := hnames member (List.mem_append_right _ List.mem_cons_self)
        rcases nullable_evolve_entry hentry hname node with
          ⟨role, declaration, rfl, rfl⟩ | hsame
        · exact .inl ⟨rest, role, declaration, [], rfl, hrest⟩
        · refine .inr ?_
          rw [develop_append, hrest]
          exact hsame.trans hkept

/-- The two visits agree on a name of the catalog exactly if the entry gives way in time. -/
theorem develop_entry_eq_iff (hprefixes : ontology.prefixes? = some prefixes)
    (hentry : Entries.get? name Catalog.entries = some entry)
    (hnames : ∀ member ∈ members, member.name? = some name) :
    ontology.develop configuration members (some entry) =
        ontology.develop configuration members none ↔
      ontology.Recovers configuration members entry := by
  -- Where a declaration finds the entry, what follows starts from the fresh property.
  have hreplaced : ∀ before role declaration after,
      members = before ++ .declared role declaration :: after →
      ontology.develop configuration before (some entry) = some entry →
      ontology.develop configuration members (some entry) = ontology.develop configuration after
        (some (ontology.freshProperty configuration declaration.iri
          (some (role, declaration)))) := by
    rintro before role declaration after rfl hbefore
    have hname := hnames _ (List.mem_append_right before List.mem_cons_self)
    rw [develop_append, hbefore, develop_cons, evolve_declared_of_entry hentry hname]
  constructor
  · intro heq
    rcases nullable_develop_entry hentry hnames with
      ⟨before, role, declaration, after, hmembers, hbefore⟩ | hkept
    · refine ⟨before, role, declaration, after, hmembers, hbefore, ?_⟩
      rw [← heq, hreplaced before role declaration after hmembers hbefore]
    · have hnone : (ontology.develop configuration members none).bind (·.nullable) = none :=
        nullable_develop hprefixes members rfl
      rw [heq, hnone] at hkept
      exact absurd hkept.symm (nullable_ne_none_of_mem_catalog (Entries.mem_of_get? hentry))
  · rintro ⟨before, role, declaration, after, hmembers, hbefore, halone⟩
    rw [hreplaced before role declaration after hmembers hbefore, halone]

theorem develop_withDefaults (configuration : Configuration) (defaults : Bool)
    (members : List Member) (current : Option SchemaNode) :
    ontology.develop (configuration.withDefaults defaults) members current =
      ontology.develop configuration members current := by
  have hevolve : ∀ (member : Member) (current : Option SchemaNode),
      member.evolve ontology (configuration.withDefaults defaults) current =
        member.evolve ontology configuration current := fun member _ => by cases member <;> rfl
  unfold develop
  simp only [hevolve]

/-- Every property of one schema stands in the other one as it is, and what else stands there is an
untouched entry of the catalog. -/
structure Harmless (full bare : SchemaNode) : Prop where
  kept : ∀ name node, bare.property? name = some node → full.property? name = some node
  untouched : ∀ name node, full.property? name = some node → bare.property? name = none →
    Catalog.isUntouched name node = true

section Visits

variable {iri : String} {full bare : ClassBuild}

/-- What the two visits of a class leave under a name. -/
theorem property?_withDefaults {defaults : Bool} {visited : ClassBuild}
    (hprefixes : ontology.prefixes? = some prefixes) (hclass : ontology.enumeration? iri = none)
    (h : ontology.VisitsTo (configuration.withDefaults defaults) iri visited) (name : String) :
    visited.schema.property? name = ontology.develop configuration
      (ontology.history configuration.schema iri name)
      (if defaults then Entries.get? name Catalog.entries else none) := by
  refine (h.property?_eq hprefixes hclass name).trans ?_
  exact develop_withDefaults configuration defaults _ _

/-- Without the default properties a schema has what the class brings. -/
theorem property?_eq_none_iff (hprefixes : ontology.prefixes? = some prefixes)
    (hclass : ontology.enumeration? iri = none)
    (hbare : ontology.VisitsTo (configuration.withDefaults false) iri bare) :
    bare.schema.property? name = none ↔ ontology.history configuration.schema iri name = [] := by
  rw [property?_withDefaults hprefixes hclass hbare]
  constructor
  · intro hnone
    by_contra hbrought
    have hsome := isSome_develop_history configuration hbrought none
    rw [if_neg Bool.false_ne_true] at hnone
    rw [hnone] at hsome
    cases hsome
  · intro hhistory
    rw [hhistory]
    rfl

theorem property?_eq_of_not_catalog (hprefixes : ontology.prefixes? = some prefixes)
    (hfull : ontology.VisitsTo (configuration.withDefaults true) iri full)
    (hbare : ontology.VisitsTo (configuration.withDefaults false) iri bare)
    (hname : Entries.get? name Catalog.entries = none) :
    full.schema.property? name = bare.schema.property? name := by
  cases hclass : ontology.enumeration? iri with
  | some values =>
    rw [hfull.property?_eq_none hprefixes hclass, hbare.property?_eq_none hprefixes hclass]
  | none =>
    rw [property?_withDefaults hprefixes hclass hfull,
      property?_withDefaults hprefixes hclass hbare, hname]
    rfl

theorem isUntouched_of_absent (hprefixes : ontology.prefixes? = some prefixes)
    (hfull : ontology.VisitsTo (configuration.withDefaults true) iri full)
    (hbare : ontology.VisitsTo (configuration.withDefaults false) iri bare) {node : SchemaNode}
    (hnode : full.schema.property? name = some node) (hnone : bare.schema.property? name = none) :
    Catalog.isUntouched name node = true := by
  cases hclass : ontology.enumeration? iri with
  | some values =>
    rw [hfull.property?_eq_none hprefixes hclass] at hnode
    cases hnode
  | none =>
    have hhistory := (property?_eq_none_iff hprefixes hclass hbare).1 hnone
    rw [property?_withDefaults hprefixes hclass hfull, hhistory] at hnode
    exact beq_iff_eq.2 hnode

/-- Some member has a name if a declaration or a restriction brings it. -/
theorem history_ne_nil_iff {options : SchemaOptions} :
    ontology.history options iri name ≠ [] ↔ ∃ other ∈ ontology.contributors options iri,
      ontology.DeclaresFor other name ∨ ontology.RestrictsFor other name := by
  simp only [← brings_iff]
  constructor
  · intro h
    obtain ⟨member, hmember⟩ := List.exists_mem_of_ne_nil _ h
    obtain ⟨hmember, hname⟩ := mem_history_iff.1 hmember
    obtain ⟨other, hother, hmem⟩ := List.mem_flatMap.1 hmember
    exact ⟨other, hother, member, hmem, hname⟩
  · rintro ⟨other, hother, member, hmem, hname⟩
    exact List.ne_nil_of_mem (mem_history_iff.2 ⟨List.mem_flatMap.2 ⟨other, hother, hmem⟩, hname⟩)

/-- Where the default properties do no harm, the two visits agree on every name that the class
brings. -/
theorem Harmless.develop_eq (hprefixes : ontology.prefixes? = some prefixes)
    (hclass : ontology.enumeration? iri = none)
    (hfull : ontology.VisitsTo (configuration.withDefaults true) iri full)
    (hbare : ontology.VisitsTo (configuration.withDefaults false) iri bare)
    (h : Harmless full.schema bare.schema)
    (hbrought : ontology.history configuration.schema iri name ≠ []) :
    ontology.develop configuration (ontology.history configuration.schema iri name)
        (Entries.get? name Catalog.entries) =
      ontology.develop configuration (ontology.history configuration.schema iri name) none := by
  have hfullName := property?_withDefaults hprefixes hclass hfull name
  have hbareName := property?_withDefaults hprefixes hclass hbare name
  obtain ⟨node, hnode⟩ := Option.isSome_iff_exists.1
    (isSome_develop_history configuration hbrought none)
  have hkept := h.kept name node (hbareName.trans hnode)
  exact hfullName.symm.trans (hkept.trans hnode.symm)

/-- Where every entry that the class brings gives way in time, nothing else changes. -/
theorem harmless_of_recovers (hprefixes : ontology.prefixes? = some prefixes)
    (hfull : ontology.VisitsTo (configuration.withDefaults true) iri full)
    (hbare : ontology.VisitsTo (configuration.withDefaults false) iri bare)
    (h : ontology.enumeration? iri = none → ∀ name entry, (name, entry) ∈ Catalog.entries →
      (∃ other ∈ ontology.contributors configuration.schema iri,
        ontology.DeclaresFor other name ∨ ontology.RestrictsFor other name) →
      ontology.Recovers configuration (ontology.history configuration.schema iri name) entry) :
    Harmless full.schema bare.schema := by
  refine ⟨fun name node hnode => ?_,
    fun name node => isUntouched_of_absent hprefixes hfull hbare⟩
  rw [← hnode]
  cases hget : Entries.get? name Catalog.entries with
  | none => exact property?_eq_of_not_catalog hprefixes hfull hbare hget
  | some entry =>
    cases hclass : ontology.enumeration? iri with
    | some values =>
      rw [hbare.property?_eq_none hprefixes hclass] at hnode
      cases hnode
    | none =>
      have hbrought : ontology.history configuration.schema iri name ≠ [] := by
        intro hhistory
        rw [(property?_eq_none_iff hprefixes hclass hbare).2 hhistory] at hnode
        cases hnode
      have hrecovers := h hclass name entry (Entries.mem_of_get? hget)
        (history_ne_nil_iff.1 hbrought)
      rw [property?_withDefaults hprefixes hclass hfull,
        property?_withDefaults hprefixes hclass hbare, hget]
      exact (develop_entry_eq_iff hprefixes hget fun _ hm => (mem_history_iff.1 hm).2).2 hrecovers

end Visits

/-- Two visits of a class, with the default properties and without them, differ in entries of the
catalog only. They do no harm exactly if every entry that the class brings gives way in time. -/
theorem harmless_iff (hprefixes : ontology.prefixes? = some prefixes)
    (configuration : Configuration) (iri : String) :
    ∃ full bare, ontology.VisitsTo (configuration.withDefaults true) iri full ∧
      ontology.VisitsTo (configuration.withDefaults false) iri bare ∧
      (∀ name, Catalog.contains name = false →
        full.schema.property? name = bare.schema.property? name) ∧
      (∀ name node, full.schema.property? name = some node →
        bare.schema.property? name = none → Catalog.isUntouched name node = true) ∧
      (Harmless full.schema bare.schema ↔ (ontology.enumeration? iri = none →
        ∀ name entry, (name, entry) ∈ Catalog.entries →
          (∃ other ∈ ontology.contributors configuration.schema iri,
            ontology.DeclaresFor other name ∨ ontology.RestrictsFor other name) →
          ontology.Recovers configuration (ontology.history configuration.schema iri name)
            entry)) := by
  obtain ⟨full, hfull⟩ := exists_visitsTo hprefixes (configuration.withDefaults true) iri
  obtain ⟨bare, hbare⟩ := exists_visitsTo hprefixes (configuration.withDefaults false) iri
  refine ⟨full, bare, hfull, hbare, fun name hname => ?_,
    fun name node => isUntouched_of_absent hprefixes hfull hbare,
    fun hharmless hclass name entry hentry hbrought => ?_,
    harmless_of_recovers hprefixes hfull hbare⟩
  · refine property?_eq_of_not_catalog hprefixes hfull hbare ?_
    exact Option.not_isSome_iff_eq_none.1 (Bool.eq_false_iff.1 hname)
  · have hget := (Entries.get?_eq_some_iff Catalog.ordered_entries).2 hentry
    have heq := hharmless.develop_eq hprefixes hclass hfull hbare (history_ne_nil_iff.2 hbrought)
    rw [hget] at heq
    exact (develop_entry_eq_iff hprefixes hget fun _ hm => (mem_history_iff.1 hm).2).1 heq

/-- Books have a label, which is a number. Books and letters have at least one label, and postcards
are books with a label that is a text. -/
def shelf : Ontology where
  iri := "e"
  prefixes := some (.ofList [("", "e#")])
  classes := [{ iri := "e#Book" }, { iri := "e#Letter" }, { iri := "e#Postcard" }]
  dataProperties := [{ iri := "e#label", domains := ["e#Book"], ranges := ["xsd#int"] }]
  subclassAxioms := [{ sub := "e#Book", sup := .cardinality .data .min "e#label" 1 none },
    { sub := "e#Letter", sup := .cardinality .data .min "e#label" 1 none },
    { sub := "e#Postcard", sup := .named "e#Book" },
    { sub := "e#Postcard",
      sup := .quantified .data .existential "e#label" (.datatype "xsd#string") }]

/-- Books declare their label before they restrict it. -/
theorem harmless_book :
    shelf.prefixes? = some (.ofList [("", "e#")]) ∧ ∃ full bare,
      shelf.VisitsTo (({} : Configuration).withDefaults true) "e#Book" full ∧
      shelf.VisitsTo (({} : Configuration).withDefaults false) "e#Book" bare ∧
      Harmless full.schema bare.schema := by
  have hprefixes : shelf.prefixes? = some (.ofList [("", "e#")]) := rfl
  have hdeclared : (Catalog.entries.all fun entry =>
      (shelf.history {} "e#Book" entry.1).isEmpty ||
        startsDeclared (shelf.history {} "e#Book" entry.1)) = true := by decide +kernel
  obtain ⟨full, bare, hfull, hbare, _, _, hharmless⟩ := harmless_iff hprefixes {} "e#Book"
  refine ⟨hprefixes, full, bare, hfull, hbare, hharmless.2 fun _ name entry hentry hbrought => ?_⟩
  have hname := List.all_eq_true.1 hdeclared (name, entry) hentry
  rcases Bool.or_eq_true_iff.1 hname with hempty | hstarts
  · exact absurd (List.isEmpty_iff.1 hempty) (history_ne_nil_iff.2 hbrought)
  · exact recovers_of_startsDeclared hstarts entry

/-- The default properties change what the ontology says about a class. -/
def Interferes (ontology : Ontology) (configuration : Configuration) (iri : String) : Prop :=
  ∃ full bare, ontology.VisitsTo (configuration.withDefaults true) iri full ∧
    ontology.VisitsTo (configuration.withDefaults false) iri bare ∧
    ¬ Harmless full.schema bare.schema

theorem interferes_of_ne {iri : String} (hprefixes : ontology.prefixes? = some prefixes)
    (hclass : ontology.enumeration? iri = none)
    (hne : ontology.develop configuration (ontology.history configuration.schema iri name)
        (Entries.get? name Catalog.entries) ≠
      ontology.develop configuration (ontology.history configuration.schema iri name) none)
    (hbrought : ontology.history configuration.schema iri name ≠ []) :
    ontology.Interferes configuration iri := by
  obtain ⟨full, hfull⟩ := exists_visitsTo hprefixes (configuration.withDefaults true) iri
  obtain ⟨bare, hbare⟩ := exists_visitsTo hprefixes (configuration.withDefaults false) iri
  refine ⟨full, bare, hfull, hbare, fun hharmless => hne ?_⟩
  exact hharmless.develop_eq hprefixes hclass hfull hbare hbrought

/-- The label of a letter stays a text that may be absent, as the catalog has it. The label of a
postcard becomes a number again. -/
theorem shelf_interferes :
    shelf.Interferes {} "e#Letter" ∧ shelf.Interferes {} "e#Postcard" := by
  have hprefixes : shelf.prefixes? = some (.ofList [("", "e#")]) := rfl
  have hletter : shelf.develop {} (shelf.history {} "e#Letter" "label")
      (Entries.get? "label" Catalog.entries) ≠
        shelf.develop {} (shelf.history {} "e#Letter" "label") none := by decide +kernel
  have hpostcard : shelf.develop {} (shelf.history {} "e#Postcard" "label")
      (Entries.get? "label" Catalog.entries) ≠
        shelf.develop {} (shelf.history {} "e#Postcard" "label") none := by decide +kernel
  have hbrought : (shelf.history {} "e#Letter" "label").isEmpty = false ∧
      (shelf.history {} "e#Postcard" "label").isEmpty = false := by decide +kernel
  rw [List.isEmpty_eq_false_iff, List.isEmpty_eq_false_iff] at hbrought
  exact ⟨interferes_of_ne hprefixes rfl hletter hbrought.1,
    interferes_of_ne hprefixes rfl hpostcard hbrought.2⟩

end Ontology

end OntoSchema
