import Mathlib.Data.Fintype.EquivFin
import Mathlib.Order.WellFounded
import OntoSchema.Proofs.ParentReferences

/-!
# Superclasses that references lead to

A superclass that survives the pruning is one that the schema should lead to: through a reference,
or as a superclass of one that is referred to. It does just when some nearest superclass, at or
below it, survives too (`leadsTo_iff`). Nearest superclasses are chosen before the pruning, so a
chain whose last link bears nothing leads nowhere, and on a cycle there is no nearest superclass
at all.
-/

namespace OntoSchema.Ontology

variable (ontology : Ontology)

/-- The parts of a schema refer to the schema of a class. -/
def RefersTo (schema : SchemaNode) (iri : String) : Prop :=
  ∃ name, ontology.schemaName iri = .ok name ∧
    ∃ part ∈ schema.allOf, part.referencedName? = some name

/-- The parts of the schema of a class refer to a superclass, or to one that has it as a
superclass. -/
def LeadsTo (iri : String) (schema : SchemaNode) (superclass : String) : Prop :=
  ∃ other ∈ ontology.superclasses iri, ontology.RefersTo schema other ∧
    (other = superclass ∨ superclass ∈ ontology.superclasses other)

/-- The classes that the schema of a class may refer to have different names. -/
def NamedApart (iri : String) : Prop :=
  ∀ first second, ontology.MayReferTo iri first → ontology.MayReferTo iri second →
    ontology.schemaName first = ontology.schemaName second → first = second

/-- No two superclasses of a class are superclasses of each other. -/
def AcyclicAbove (iri : String) : Prop :=
  ∀ first ∈ ontology.superclasses iri, ∀ second ∈ ontology.superclasses iri,
    second ∈ ontology.superclasses first → first ∉ ontology.superclasses second

variable {ontology} {prefixes : NameMap String} {configuration : Configuration}
  {inflector : Inflector} {iri superclass : String} {compiled : ClassSchema}

theorem NamesApart.namedApart (hapart : ontology.NamesApart) (hclosed : ontology.Closed)
    (iri : String) : ontology.NamedApart iri := fun first second hfirst hsecond =>
  hapart first (hclosed.mem_of_mayReferTo hfirst) second (hclosed.mem_of_mayReferTo hsecond)

/-- Without cycles every superclass has a nearest one at or below it. -/
theorem AcyclicAbove.exists_nearest (hacyclic : ontology.AcyclicAbove iri)
    (habove : superclass ∈ ontology.superclasses iri) :
    ∃ other, ontology.Nearest iri other ∧
      (other = superclass ∨ superclass ∈ ontology.superclasses other) := by
  let isBelow : {other // other ∈ (ontology.superclasses iri).toList} →
      {other // other ∈ (ontology.superclasses iri).toList} → Prop := fun lower upper =>
    upper.1 ∈ ontology.superclasses lower.1
  have hirrefl : Std.Irrefl isBelow := ⟨fun other h => (mem_superclasses_iff.1 h).1 rfl⟩
  have htrans : IsTrans _ isBelow := ⟨fun lower middle upper h₁ h₂ => by
    rcases mem_superclasses_trans h₁ h₂ with hsame | h
    · exact absurd (hsame ▸ h₂) (hacyclic lower.1 lower.2 middle.1 middle.2 h₁)
    · exact h⟩
  have hwell : WellFounded isBelow := Finite.wellFounded_of_trans_of_irrefl isBelow
  obtain ⟨⟨lowest, hlowest⟩, hbelow, hleast⟩ := hwell.has_min
    {other | other.1 = superclass ∨ superclass ∈ ontology.superclasses other.1}
    ⟨⟨superclass, habove⟩, .inl rfl⟩
  refine ⟨lowest, ⟨hlowest, fun other hother _ hcovers => ?_⟩, hbelow⟩
  -- What covers the lowest one is itself at or below the given superclass.
  refine hleast ⟨other, hother⟩ ?_ hcovers
  rcases hbelow with rfl | hbelow
  · exact .inr hcovers
  · rcases mem_superclasses_trans hcovers hbelow with hsame | h
    · exact .inl hsame.symm
    · exact .inr h

/-- With names apart, a schema refers to the nearest superclasses that survive. -/
theorem KeepsReferences.refersTo_iff {met : NameSet} {kept : List String}
    (h : KeepsReferences ontology inflector prefixes iri compiled met kept)
    (hapart : ontology.NamedApart iri) (habove : superclass ∈ ontology.superclasses iri) :
    ontology.RefersTo compiled.schema superclass ↔
      superclass ∈ compiled.referenced ∧ ontology.Nearest iri superclass := by
  have hname : ∀ other, ontology.MayReferTo iri other →
      qualifiedName prefixes other = qualifiedName prefixes superclass → other = superclass := by
    intro other hother hsame
    refine hapart other superclass hother (.inl habove) ?_
    rw [schemaName_eq h.prefixes?, schemaName_eq h.prefixes?, hsame]
  have hkept : superclass ∈ kept ↔
      superclass ∈ compiled.referenced ∧ ontology.Nearest iri superclass := by
    refine ⟨fun hm => ⟨h.referenced_of_kept hm, ((h.mem_kept superclass).1 hm).1⟩, ?_⟩
    rintro ⟨hreferenced, hnearest⟩
    refine (h.mem_kept superclass).2 ⟨hnearest, fun other hother hpruned hsame => hpruned ?_⟩
    rwa [hname other (h.mayReferTo other hother) hsame]
  unfold RefersTo
  rw [schemaName_eq h.prefixes?, ← hkept]
  simp only [Except.ok.injEq, exists_eq_left']
  rw [h.allOf, ClassBuild.exists_reference_iff, List.mem_map]
  refine ⟨fun ⟨other, hother, hsame⟩ => ?_, fun hm => ⟨superclass, hm, rfl⟩⟩
  have hnearest := ((h.mem_kept other).1 hother).1
  rwa [← hname other (.inl hnearest.1) hsame]

variable (superclass) in
theorem KeepsReferences.leadsTo_iff_exists {met : NameSet} {kept : List String}
    (h : KeepsReferences ontology inflector prefixes iri compiled met kept)
    (hapart : ontology.NamedApart iri) :
    ontology.LeadsTo iri compiled.schema superclass ↔
      ∃ other ∈ compiled.referenced, ontology.Nearest iri other ∧
        (other = superclass ∨ superclass ∈ ontology.superclasses other) := by
  refine exists_congr fun other => ⟨?_, ?_⟩
  · rintro ⟨hother, hrefers, hbelow⟩
    obtain ⟨hreferenced, hnearest⟩ := (h.refersTo_iff hapart hother).1 hrefers
    exact ⟨hreferenced, hnearest, hbelow⟩
  · rintro ⟨hreferenced, hnearest, hbelow⟩
    exact ⟨hnearest.1, (h.refersTo_iff hapart hnearest.1).2 ⟨hreferenced, hnearest⟩, hbelow⟩

/-- The references of a class lead to a superclass just when a nearest superclass at or below it
survives, as all superclasses do that bear something. Without cycles it is enough that all of them
survive. -/
theorem leadsTo_iff (h : ontology.compileClass configuration inflector iri = .ok compiled)
    (hclass : ontology.enumeration? iri = none)
    (hfollow : configuration.schema.followReferences = true)
    (huse : configuration.schema.useInheritanceReferences = true)
    (hapart : ontology.NamedApart iri) (habove : superclass ∈ ontology.superclasses iri) :
    (superclass ∈ compiled.referenced ↔
        ontology.Bears inflector (· ∈ compiled.schema.propertyNames) superclass) ∧
      (ontology.LeadsTo iri compiled.schema superclass ↔
        ∃ other ∈ compiled.referenced, ontology.Nearest iri other ∧
          (other = superclass ∨ superclass ∈ ontology.superclasses other)) ∧
      (ontology.AcyclicAbove iri →
        (∀ other, ontology.Nearest iri other →
          other = superclass ∨ superclass ∈ ontology.superclasses other →
            other ∈ compiled.referenced) →
        ontology.LeadsTo iri compiled.schema superclass) := by
  obtain ⟨prefixes, met, kept, hkeeps⟩ := exists_keepsReferences h hclass hfollow huse
  have hleads := hkeeps.leadsTo_iff_exists superclass hapart
  refine ⟨?_, hleads, fun hacyclic hsurvive => ?_⟩
  · rw [hkeeps.mem_referenced, and_iff_right (hkeeps.above superclass habove)]
  · obtain ⟨other, hnearest, hbelow⟩ := hacyclic.exists_nearest habove
    exact hleads.2 ⟨other, hsurvive other hnearest hbelow, hnearest, hbelow⟩

theorem closed_fleet : fleet.Closed where
  ranges _ hmem := absurd hmem List.not_mem_nil
  fillers statement hmem part filler hpart hfiller iri _ := by
    have hproperty := ClassExpression.property?_isSome_of_filler hfiller
    have hconjunct := (ClassExpression.mem_conjuncts_iff hproperty _).2 hpart
    have hnone : ∀ statement ∈ fleet.subclassAxioms, statement.sup.conjuncts = [] := by decide
    rw [hnone statement hmem] at hconjunct
    exact absurd hconjunct List.not_mem_nil
  superclasses statement hmem iri hwithin := by
    have hclass := (ClassExpression.mem_conjunctClasses_iff _).2 hwithin
    have hdeclared : ∀ statement ∈ fleet.subclassAxioms, ∀ iri ∈ statement.sup.conjunctClasses,
        iri ∈ fleet.classIris := by decide
    exact .inl (hdeclared statement hmem iri hclass)
  operands _ hmem := absurd hmem List.not_mem_nil

theorem leadsTo_fleet : fleet.NamedApart "e#Truck" ∧ "e#Asset" ∈ fleet.superclasses "e#Truck" ∧
    ∃ compiled, fleet.compileClass (({} : Configuration).withReferences true) .english "e#Truck" =
        .ok compiled ∧
      fleet.LeadsTo "e#Truck" compiled.schema "e#Asset" := by
  have hnames : fleet.NamesApart := by
    unfold NamesApart
    decide +kernel
  have hapart : fleet.NamedApart "e#Truck" := hnames.namedApart closed_fleet _
  have habove : "e#Asset" ∈ fleet.superclasses "e#Truck" := by decide +kernel
  have hnearest : fleet.Nearest "e#Truck" "e#Vehicle" := by
    refine ⟨by decide +kernel, ?_⟩
    have hall : ∀ other ∈ (fleet.superclasses "e#Truck").toList, other ≠ "e#Vehicle" →
        "e#Vehicle" ∉ fleet.superclasses other := by decide +kernel
    exact hall
  have hsurvives : (fleet.compileClass (({} : Configuration).withReferences true) .english
      "e#Truck").toOption.any (·.referenced.contains "e#Vehicle") = true := by
    decide +kernel
  obtain ⟨_, compiled, _, _, hcompiled, _⟩ := exists_compileClass
    (rfl : fleet.prefixes? = some _) (({} : Configuration).withReferences true) .english "e#Truck"
  rw [hcompiled] at hsurvives
  have hreferenced : "e#Vehicle" ∈ compiled.referenced := NameSet.contains_iff.1 hsurvives
  obtain ⟨_, hleads, _⟩ := leadsTo_iff hcompiled rfl rfl rfl hapart habove
  exact ⟨hapart, habove, compiled, hcompiled,
    hleads.2 ⟨"e#Vehicle", hreferenced, hnearest, .inr (by decide +kernel)⟩⟩

/-- A superclass survives the pruning, and the references of the class do not lead to it. -/
def Strands (ontology : Ontology) (configuration : Configuration) (inflector : Inflector)
    (iri superclass : String) : Prop :=
  ∃ compiled, ontology.compileClass configuration inflector iri = .ok compiled ∧
    superclass ∈ ontology.superclasses iri ∧ superclass ∈ compiled.referenced ∧
      ¬ ontology.LeadsTo iri compiled.schema superclass

/-- Without parts every superclass that survives is stranded. -/
theorem strands_of_allOf (hprefixes : ontology.prefixes? = some prefixes)
    (habove : superclass ∈ ontology.superclasses iri)
    (hcompiled : (ontology.compileClass configuration inflector iri).toOption.any
      (fun compiled => compiled.referenced.contains superclass &&
        compiled.schema.allOf.isEmpty) = true) :
    ontology.Strands configuration inflector iri superclass := by
  obtain ⟨_, compiled, _, _, hok, _⟩ := exists_compileClass hprefixes configuration inflector iri
  rw [hok] at hcompiled
  obtain ⟨hreferenced, hnone⟩ := Bool.and_eq_true_iff.1 hcompiled
  refine ⟨compiled, hok, habove, NameSet.contains_iff.1 hreferenced, ?_⟩
  rintro ⟨_, _, ⟨_, _, part, hpart, _⟩, _⟩
  rw [List.isEmpty_iff.1 hnone] at hpart
  exact absurd hpart List.not_mem_nil

/-- Trucks are vehicles, and these are assets; only assets have a data property. -/
def idleFleet : Ontology :=
  { fleet with dataProperties := [{ iri := "e#tag", domains := ["e#Asset"] }] }

/-- Poets are authors, and authors and writers are the same; both have data properties. -/
def guild : Ontology where
  iri := "e"
  prefixes := some (.ofList [("", "e#")])
  classes := [{ iri := "e#Author" }, { iri := "e#Poet" }, { iri := "e#Writer" }]
  dataProperties := [{ iri := "e#title", domains := ["e#Author"] },
    { iri := "e#style", domains := ["e#Writer"] }]
  subclassAxioms := [{ sub := "e#Poet", sup := .named "e#Author" },
    { sub := "e#Author", sup := .named "e#Writer" },
    { sub := "e#Writer", sup := .named "e#Author" }]

/-- Vehicles hide assets from trucks and are pruned. Authors and writers hide each other from
poets. -/
theorem idleFleet_strands :
    (idleFleet.NamesApart ∧ idleFleet.enumeration? "e#Truck" = none ∧
      idleFleet.Strands (({} : Configuration).withReferences true) .english "e#Truck" "e#Asset") ∧
    guild.NamesApart ∧ guild.enumeration? "e#Poet" = none ∧
      guild.Strands (({} : Configuration).withReferences true) .english "e#Poet" "e#Author" := by
  refine ⟨⟨?_, rfl, ?_⟩, ?_, rfl, ?_⟩
  · unfold NamesApart
    decide +kernel
  · exact strands_of_allOf (rfl : idleFleet.prefixes? = some _) (by decide +kernel)
      (by decide +kernel)
  · unfold NamesApart
    decide +kernel
  · exact strands_of_allOf (rfl : guild.prefixes? = some _) (by decide +kernel)
      (by decide +kernel)

end OntoSchema.Ontology
