import Mathlib.Data.List.Induction
import OntoSchema.Proofs.PropertyHistories
import OntoSchema.Proofs.PropertyNames

/-!
# How many values a property may have

Restrictions give a property a least and a greatest number of values. Each one sets its number in
the place of the number before, so the last one that a visit meets counts, be it the tightest or
not. `Ontology.keepsCounts_iff` says what comes of that: the numbers of all restrictions are kept
exactly if for every property the last of them is the tightest.
-/

namespace OntoSchema

/-- The two limits of the number of values. -/
inductive Limit where
  | least
  | greatest
deriving DecidableEq

/-- The number that a schema has for a limit. -/
def SchemaNode.limit? (node : SchemaNode) : Limit → Option UInt32
  | .least => node.minItems
  | .greatest => node.maxItems

/-- The number that a restriction asks for. -/
def ClassExpression.count? : ClassExpression → Limit → Option UInt32
  | cardinality _ .min _ count _, .least => some count
  | cardinality _ .max _ count _, .greatest => some count
  | cardinality _ .exact _ count _, _ => some count
  | _, _ => none

/-- A number keeps another one: it is no smaller as the least and no greater as the greatest. -/
def Limit.Keeps : Limit → UInt32 → UInt32 → Prop
  | least, number, count => count ≤ number
  | greatest, number, count => number ≤ count

instance : (limit : Limit) → (number count : UInt32) → Decidable (limit.Keeps number count)
  | .least, number, count => inferInstanceAs (Decidable (count ≤ number))
  | .greatest, number, count => inferInstanceAs (Decidable (number ≤ count))

def Member.count? (limit : Limit) : Member → Option UInt32
  | declared _ _ => none
  | restricted part _ => part.count? limit

section Development

variable {ontology : Ontology} {configuration : Configuration} {prefixes : NameMap String}
  {limit : Limit} {node : SchemaNode}

theorem SchemaNode.limit?_pin (value : Json) (fallback : SchemaType) :
    (node.pin value fallback).limit? limit = node.limit? limit := by
  cases limit <;> rfl

theorem SchemaNode.limit?_withItems (items : Option SchemaNode) :
    (node.withItems items).limit? limit = node.limit? limit := by
  cases items <;> cases limit <;> rfl

/-- A restriction sets the numbers that it has and keeps the others. -/
theorem SchemaNode.limit?_restrict (part : ClassExpression) (items : Option SchemaNode) :
    (node.restrict part items).limit? limit = (part.count? limit).or (node.limit? limit) := by
  have hwith : (node.withItems items).limit? limit = node.limit? limit := limit?_withItems items
  rw [← hwith]
  cases part with
  | cardinality role bound property count filler => cases bound <;> cases limit <;> rfl
  | hasIndividual property individual => exact limit?_pin _ _
  | hasLiteral property value => exact limit?_pin _ _
  | _ => rfl

theorem SchemaNode.limit?_annotateFromAxiom (part : ClassExpression)
    (annotations : List Annotation) :
    (node.annotateFromAxiom configuration part annotations).limit? limit = node.limit? limit := by
  obtain ⟨r, w, e, h⟩ := annotateFromAxiom_eq configuration part annotations node
  rw [h]
  cases limit <;> rfl

theorem Ontology.limit?_arrayOfVariants (variants : List SchemaNode) :
    (arrayOfVariants variants).limit? limit = none := by
  cases variants with
  | nil => cases limit <;> rfl
  | cons first rest => cases rest <;> cases limit <;> rfl

theorem Ontology.limit?_freshProperty (hprefixes : ontology.prefixes? = some prefixes)
    (iri : String) (declaration : Option (Role × PropertyDeclaration)) :
    (ontology.freshProperty configuration iri declaration).limit? limit = none := by
  obtain ⟨variants, d, r, w, e, h⟩ :=
    exists_freshProperty_eq configuration hprefixes iri declaration
  have hopen : (arrayOfVariants variants).limit? limit = none := limit?_arrayOfVariants variants
  rw [h, ← hopen]
  cases limit <;> rfl

theorem limit?_of_isUntouched {name : String} (h : Catalog.isUntouched name node = true) :
    node.limit? limit = none := by
  unfold Catalog.isUntouched at h
  have hentry := Entries.mem_of_get? (beq_iff_eq.1 h)
  rcases Ontology.cases_of_mem_catalog hentry with ⟨datatype, text, _, rfl⟩ | rfl <;>
    cases limit <;> rfl

/-- A member that asks for a number sets it. Every other one leaves the number as it is. -/
theorem Member.limit?_evolve (hprefixes : ontology.prefixes? = some prefixes) (member : Member)
    (current : Option SchemaNode) :
    (member.evolve ontology configuration current).bind (·.limit? limit) =
      (member.count? limit).or (current.bind (·.limit? limit)) := by
  cases member with
  | declared role declaration =>
    cases current with
    | none => exact Ontology.limit?_freshProperty hprefixes _ _
    | some existing =>
      unfold evolve
      dsimp only
      split
      · rename_i huntouched
        refine (Ontology.limit?_freshProperty hprefixes _ _).trans ?_
        exact (limit?_of_isUntouched huntouched).symm
      · rfl
  | restricted part annotations =>
    cases hproperty : part.restrictedProperty? with
    | none =>
      have hcount : part.count? limit = none := by
        cases part with
        | cardinality role bound => cases bound <;> cases hproperty
        | _ => rfl
      rw [evolve_unrestricted hproperty, count?, hcount, Option.none_or]
    | some iri =>
      rw [evolve_restricted hproperty, Option.bind_some, SchemaNode.limit?_annotateFromAxiom,
        SchemaNode.limit?_restrict]
      cases current with
      | none => rw [Option.getD_none, Ontology.limit?_freshProperty hprefixes]; rfl
      | some existing => rfl

/-- After some members the last number that one of them asks for counts. -/
theorem Ontology.limit?_develop (hprefixes : ontology.prefixes? = some prefixes)
    (members : List Member) (current : Option SchemaNode) :
    (ontology.develop configuration members current).bind (·.limit? limit) =
      (members.filterMap (Member.count? limit)).getLast?.or (current.bind (·.limit? limit)) := by
  induction members using List.reverseRecOn with
  | nil => rfl
  | append_singleton rest member ih =>
    rw [develop_append, List.filterMap_append, List.getLast?_append, Option.or_assoc, ← ih]
    refine (member.limit?_evolve hprefixes _).trans ?_
    cases hcount : member.count? limit <;> simp [hcount]

end Development

namespace Ontology

variable (ontology : Ontology) {prefixes : NameMap String} {options : SchemaOptions}
  {iri name : String}

/-- Intersections lead from an axiom about one of some classes to a restriction of a property with
this local name. -/
def AppliesTo (classes : List String) (part : ClassExpression) (name : String) : Prop :=
  ∃ statement ∈ ontology.subclassAxioms, statement.sub ∈ classes ∧
    ClassExpression.Within ClassExpression.OpensIntersections part statement.sup ∧
    ∃ property, part.restrictedProperty? = some property ∧ Iri.localName property = name

/-- A schema keeps every number that restrictions about some classes ask for. -/
def KeepsCounts (classes : List String) (schema : SchemaNode) : Prop :=
  ∀ limit part name count, ontology.AppliesTo classes part name → part.count? limit = some count →
    ∃ node number, schema.property? name = some node ∧ node.limit? limit = some number ∧
      limit.Keeps number count

/-- The numbers that restrictions ask for, in the order in which the visit of a class meets them. -/
def counts (limit : Limit) (options : SchemaOptions) (iri name : String) : List UInt32 :=
  (ontology.history options iri name).filterMap (Member.count? limit)

variable {ontology}

theorem restricted_mem_members_iff {part : ClassExpression} {annotations : List Annotation} :
    Member.restricted part annotations ∈ ontology.members iri ↔
      ∃ statement ∈ ontology.subclassAxioms, statement.sub = iri ∧
        part ∈ statement.sup.conjuncts ∧ statement.annotations = annotations := by
  simp [members, subclassAxiomsOf, and_assoc]

theorem exists_restricted_mem_history_iff {part : ClassExpression} :
    (∃ annotations, Member.restricted part annotations ∈ ontology.history options iri name) ↔
      ontology.AppliesTo (ontology.contributors options iri) part name := by
  unfold history membersNamed AppliesTo
  simp only [List.mem_flatMap, List.mem_filter, decide_eq_true_eq, restricted_mem_members_iff,
    Member.name?, Option.map_eq_some_iff]
  constructor
  · rintro ⟨_, other, hother, ⟨statement, hstatement, hsub, hmem, _⟩, property, hproperty, hname⟩
    have hpart := ClassExpression.property?_isSome_of_restricted hproperty
    exact ⟨statement, hstatement, hsub ▸ hother, (ClassExpression.mem_conjuncts_iff hpart _).1 hmem,
      property, hproperty, hname⟩
  · rintro ⟨statement, hstatement, hsub, hwithin, property, hproperty, hname⟩
    have hpart := ClassExpression.property?_isSome_of_restricted hproperty
    exact ⟨_, _, hsub, ⟨statement, hstatement, rfl,
      (ClassExpression.mem_conjuncts_iff hpart _).2 hwithin, rfl⟩, property, hproperty, hname⟩

theorem mem_counts_iff {limit : Limit} {count : UInt32} :
    count ∈ ontology.counts limit options iri name ↔
      ∃ part, ontology.AppliesTo (ontology.contributors options iri) part name ∧
        part.count? limit = some count := by
  simp only [counts, List.mem_filterMap, ← exists_restricted_mem_history_iff]
  constructor
  · rintro ⟨member, hmem, hcount⟩
    cases member with
    | declared => cases hcount
    | restricted part annotations => exact ⟨part, ⟨annotations, hmem⟩, hcount⟩
  · rintro ⟨part, ⟨annotations, hmem⟩, hcount⟩
    exact ⟨_, hmem, hcount⟩

/-- A visit leaves the number that the last restriction asks for. -/
theorem VisitsTo.limit?_eq (hprefixes : ontology.prefixes? = some prefixes)
    (hclass : ontology.enumeration? iri = none) {configuration : Configuration}
    {visited : ClassBuild} (h : ontology.VisitsTo configuration iri visited) (limit : Limit)
    (name : String) :
    (visited.schema.property? name).bind (·.limit? limit) =
      (ontology.counts limit configuration.schema iri name).getLast? := by
  have hstart : (if configuration.schema.defaultProperties then
      Entries.get? name Catalog.entries else none).bind (·.limit? limit) = none := by
    split
    · cases hentry : Entries.get? name Catalog.entries with
      | none => rfl
      | some entry => exact limit?_of_isUntouched (beq_iff_eq.2 hentry)
    · rfl
  rw [h.property?_eq hprefixes hclass, limit?_develop hprefixes, hstart, Option.or_none]
  rfl

/-- Where all numbers are kept, the last one keeps those before it. -/
theorem KeepsCounts.keeps_last {configuration : Configuration} {visited : ClassBuild}
    {limit : Limit} {last count : UInt32} (hprefixes : ontology.prefixes? = some prefixes)
    (hclass : ontology.enumeration? iri = none)
    (hvisit : ontology.VisitsTo configuration iri visited)
    (h : ontology.KeepsCounts (ontology.contributors configuration.schema iri) visited.schema)
    (hlast : (ontology.counts limit configuration.schema iri name).getLast? = some last)
    (hcount : count ∈ ontology.counts limit configuration.schema iri name) :
    limit.Keeps last count := by
  obtain ⟨part, happlies, hpart⟩ := mem_counts_iff.1 hcount
  obtain ⟨node, number, hnode, hnumber, hkept⟩ := h limit part name count happlies hpart
  have hsame := (hvisit.limit?_eq hprefixes hclass limit name).trans hlast
  rw [hnode, Option.bind_some, hnumber] at hsame
  exact Option.some.inj hsame ▸ hkept

/-- A class that is no enumeration has, for every property and either limit, the number that the
last restriction asks for. So its schema keeps all numbers exactly if the last one of every property
keeps those before it. -/
theorem keepsCounts_iff (hprefixes : ontology.prefixes? = some prefixes)
    (hclass : ontology.enumeration? iri = none) (configuration : Configuration) :
    ∃ visited, ontology.VisitsTo configuration iri visited ∧
      (∀ limit name, (visited.schema.property? name).bind (·.limit? limit) =
        (ontology.counts limit configuration.schema iri name).getLast?) ∧
      (ontology.KeepsCounts (ontology.contributors configuration.schema iri) visited.schema ↔
        ∀ limit name,
          ∀ last ∈ (ontology.counts limit configuration.schema iri name).getLast?,
          ∀ count ∈ ontology.counts limit configuration.schema iri name,
            limit.Keeps last count) := by
  obtain ⟨visited, hvisit⟩ := exists_visitsTo hprefixes configuration iri
  have hlast := hvisit.limit?_eq hprefixes hclass
  refine ⟨visited, hvisit, hlast, ?_⟩
  constructor
  · intro hkeeps limit name last hmem count hcount
    exact hkeeps.keeps_last hprefixes hclass hvisit hmem hcount
  · intro htight limit part name count happlies hpart
    have hcount := mem_counts_iff.2 ⟨part, happlies, hpart⟩
    obtain ⟨last, hmem⟩ : ∃ last,
        (ontology.counts limit configuration.schema iri name).getLast? = some last :=
      ⟨_, List.getLast?_eq_some_getLast (List.ne_nil_of_mem hcount)⟩
    have hsame := (hlast limit name).trans hmem
    obtain ⟨node, hnode, hnumber⟩ := Option.bind_eq_some_iff.1 hsame
    exact ⟨node, last, hnode, hnumber, htight limit name last hmem count hcount⟩

/-- Ensembles have members, at least one and then at least two, and at most nine. Quartets are
ensembles of exactly four. Choirs have at least three voices and then at least one. -/
def ensembles : Ontology where
  iri := "e"
  prefixes := some (.ofList [("", "e#")])
  classes := [{ iri := "e#Choir" }, { iri := "e#Ensemble" }, { iri := "e#Quartet" }]
  subclassAxioms := [{ sub := "e#Ensemble", sup := .cardinality .object .min "e#member" 1 none },
    { sub := "e#Ensemble", sup := .combination .object .intersection
        [.cardinality .object .min "e#member" 2 none,
          .cardinality .object .max "e#member" 9 none] },
    { sub := "e#Quartet", sup := .named "e#Ensemble" },
    { sub := "e#Quartet", sup := .cardinality .object .exact "e#member" 4 none },
    { sub := "e#Choir", sup := .cardinality .data .min "e#voice" 3 none },
    { sub := "e#Choir", sup := .cardinality .data .min "e#voice" 1 none }]

/-- All numbers of an ensemble are kept, for the tighter one comes last. -/
theorem keepsCounts_ensemble :
    ensembles.prefixes? = some (.ofList [("", "e#")]) ∧
      ensembles.enumeration? "e#Ensemble" = none ∧
      ∃ visited, ensembles.VisitsTo {} "e#Ensemble" visited ∧
        (visited.schema.property? "member").bind (·.limit? .least) = some 2 ∧
        ensembles.KeepsCounts (ensembles.contributors {} "e#Ensemble") visited.schema := by
  have hprefixes : ensembles.prefixes? = some (.ofList [("", "e#")]) := rfl
  have hclass : ensembles.enumeration? "e#Ensemble" = none := rfl
  obtain ⟨visited, hvisit, hlast, hkeeps⟩ := keepsCounts_iff hprefixes hclass {}
  refine ⟨hprefixes, hclass, visited, hvisit, ?_, ?_⟩
  · refine (hlast .least "member").trans ?_
    decide +kernel
  · have hkept : ∀ limit, ∀ last ∈ (ensembles.counts limit {} "e#Ensemble" "member").getLast?,
        ∀ count ∈ ensembles.counts limit {} "e#Ensemble" "member", limit.Keeps last count := by
      have hleast : ensembles.counts .least {} "e#Ensemble" "member" = [1, 2] := by decide +kernel
      have hgreatest : ensembles.counts .greatest {} "e#Ensemble" "member" = [9] := by
        decide +kernel
      intro limit
      cases limit with
      | least => simp [hleast, Limit.Keeps]
      | greatest => simp [hgreatest, Limit.Keeps]
    have hnames : ∀ member ∈ (ensembles.contributors {} "e#Ensemble").flatMap ensembles.members,
        member.name? = some "member" := by decide +kernel
    refine hkeeps.2 fun limit name last hmem count hcount => ?_
    obtain ⟨member, hmember, _⟩ := List.mem_filterMap.1 hcount
    obtain ⟨hmember, hname⟩ := mem_history_iff.1 hmember
    obtain rfl := Option.some.inj ((hnames member hmember).symm.trans hname)
    exact hkept limit last hmem count hcount

/-- A schema of a class does not keep the number that some restriction asks for. -/
def Loosens (ontology : Ontology) (configuration : Configuration) (iri : String) : Prop :=
  ∃ visited, ontology.VisitsTo configuration iri visited ∧
    ¬ ontology.KeepsCounts (ontology.contributors configuration.schema iri) visited.schema

theorem loosens_of_last {configuration : Configuration} {limit : Limit} {last count : UInt32}
    (hprefixes : ontology.prefixes? = some prefixes) (hclass : ontology.enumeration? iri = none)
    (hlast : (ontology.counts limit configuration.schema iri name).getLast? = some last)
    (hcount : count ∈ ontology.counts limit configuration.schema iri name)
    (hloose : ¬ limit.Keeps last count) : ontology.Loosens configuration iri := by
  obtain ⟨visited, hvisit⟩ := exists_visitsTo hprefixes configuration iri
  refine ⟨visited, hvisit, fun hkeeps => hloose ?_⟩
  exact hkeeps.keeps_last hprefixes hclass hvisit hlast hcount

/-- The four members of a quartet give way to the two and the nine of an ensemble, and the three
voices of a choir to one. -/
theorem ensembles_loosen :
    ensembles.enumeration? "e#Quartet" = none ∧ ensembles.Loosens {} "e#Quartet" ∧
      ensembles.enumeration? "e#Choir" = none ∧ ensembles.Loosens {} "e#Choir" := by
  have hprefixes : ensembles.prefixes? = some (.ofList [("", "e#")]) := rfl
  have hquartet : ensembles.counts .least {} "e#Quartet" "member" = [4, 1, 2] := by decide +kernel
  have hchoir : ensembles.counts .least {} "e#Choir" "voice" = [3, 1] := by decide +kernel
  refine ⟨rfl, ?_, rfl, ?_⟩
  · have hlast : (ensembles.counts .least {} "e#Quartet" "member").getLast? = some 2 := by
      rw [hquartet]
      rfl
    have hcount : 4 ∈ ensembles.counts .least {} "e#Quartet" "member" := by
      rw [hquartet]
      exact List.mem_cons_self
    exact loosens_of_last hprefixes rfl hlast hcount (by decide)
  · have hlast : (ensembles.counts .least {} "e#Choir" "voice").getLast? = some 1 := by
      rw [hchoir]
      rfl
    have hcount : 3 ∈ ensembles.counts .least {} "e#Choir" "voice" := by
      rw [hchoir]
      exact List.mem_cons_self
    exact loosens_of_last hprefixes rfl hlast hcount (by decide)

end Ontology

end OntoSchema
