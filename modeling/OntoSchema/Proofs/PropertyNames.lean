import OntoSchema.Proofs.Stages

/-!
# Which properties a schema has

A visit finds the properties that the ontology gives to a class and to the classes it takes in, and
it invents none. `exists_propertyNames` says which these are; the stages behind it may rename
properties, but they lose none and let no two of them coincide.
-/

namespace OntoSchema

namespace Ontology

variable (ontology : Ontology)

/-- A declared property with a class among its domains has this local name. -/
def DeclaresFor (iri name : String) : Prop :=
  ∃ role, ∃ declaration ∈ ontology.declarations role,
    iri ∈ declaration.domains ∧ Iri.localName declaration.iri = name

/-- Intersections lead from a subclass axiom about a class to a restriction of a property with this
local name. -/
def RestrictsFor (iri name : String) : Prop :=
  ∃ statement ∈ ontology.subclassAxioms, statement.sub = iri ∧
    ∃ part property, ClassExpression.Within ClassExpression.OpensIntersections part statement.sup ∧
      part.restrictedProperty? = some property ∧ Iri.localName property = name

variable {ontology} {iri name : String}

theorem brings_declared_iff :
    (∃ role, ∃ declaration ∈ ontology.propertiesOf role iri,
      (Member.declared role declaration).name? = some name) ↔ ontology.DeclaresFor iri name := by
  refine exists_congr fun role => exists_congr fun declaration => ?_
  rw [mem_propertiesOf_iff, and_assoc, Member.name?, Option.some_inj]

theorem brings_restricted_iff :
    (∃ statement ∈ ontology.subclassAxiomsOf iri, ∃ part ∈ statement.sup.conjuncts,
      (Member.restricted part statement.annotations).name? = some name) ↔
        ontology.RestrictsFor iri name := by
  refine exists_congr fun statement => ?_
  rw [subclassAxiomsOf, List.mem_filter, beq_iff_eq, and_assoc]
  refine and_congr_right fun _ => and_congr_right fun _ => exists_congr fun part => ?_
  rw [Member.name?, Option.map_eq_some_iff]
  constructor
  · rintro ⟨hmem, property, hproperty, hname⟩
    have hpart := ClassExpression.property?_isSome_of_restricted hproperty
    exact ⟨property, (ClassExpression.mem_conjuncts_iff hpart _).1 hmem, hproperty, hname⟩
  · rintro ⟨property, hwithin, hproperty, hname⟩
    have hpart := ClassExpression.property?_isSome_of_restricted hproperty
    exact ⟨(ClassExpression.mem_conjuncts_iff hpart _).2 hwithin, property, hproperty, hname⟩

/-- A class brings what declarations give it and what its axioms restrict. -/
theorem brings_iff :
    ontology.Brings iri name ↔ ontology.DeclaresFor iri name ∨ ontology.RestrictsFor iri name := by
  rw [← brings_declared_iff, ← brings_restricted_iff]
  unfold Brings members
  constructor
  · rintro ⟨member, hmem, hname⟩
    rcases List.mem_append.1 hmem with hmem | hmem
    · rcases List.mem_append.1 hmem with hmem | hmem
      · obtain ⟨declaration, hd, rfl⟩ := List.mem_map.1 hmem
        exact .inl ⟨.data, declaration, hd, hname⟩
      · obtain ⟨declaration, hd, rfl⟩ := List.mem_map.1 hmem
        exact .inl ⟨.object, declaration, hd, hname⟩
    · obtain ⟨statement, hs, hmem⟩ := List.mem_flatMap.1 hmem
      obtain ⟨part, hp, rfl⟩ := List.mem_map.1 hmem
      exact .inr ⟨statement, hs, part, hp, hname⟩
  · rintro (⟨role, declaration, hd, hname⟩ | ⟨statement, hs, part, hp, hname⟩)
    · refine ⟨_, List.mem_append.2 (.inl ?_), hname⟩
      cases role with
      | data => exact List.mem_append.2 (.inl (List.mem_map_of_mem hd))
      | object => exact List.mem_append.2 (.inr (List.mem_map_of_mem hd))
    · refine ⟨_, List.mem_append.2 (.inr ?_), hname⟩
      exact List.mem_flatMap.2 ⟨statement, hs, List.mem_map_of_mem hp⟩

theorem mem_propertyNames_firstBuild {prefixes : NameMap String} {options : SchemaOptions} :
    name ∈ (ontology.firstBuild prefixes options iri).schema.propertyNames ↔
      options.defaultProperties = true ∧ Catalog.contains name = true := by
  unfold Catalog.contains
  rw [Entries.contains_iff]
  have hproperties : (ontology.firstBuild prefixes options iri).schema.properties =
      if options.defaultProperties then Catalog.entries else [] := rfl
  unfold SchemaNode.propertyNames
  rw [hproperties]
  by_cases hdefault : options.defaultProperties = true
  · rw [if_pos hdefault]
    exact ⟨fun h => ⟨hdefault, h⟩, fun h => h.2⟩
  · rw [if_neg hdefault]
    exact ⟨fun h => absurd h List.not_mem_nil, fun h => absurd h.1 hdefault⟩

/-- A class that is no enumeration has exactly the properties of the catalog, if asked for, and
those that declarations and restrictions give to it and to the classes it takes in. The stages keep
their number. -/
theorem exists_propertyNames {prefixes : NameMap String}
    (hprefixes : ontology.prefixes? = some prefixes) (hclass : ontology.enumeration? iri = none)
    (configuration : Configuration) (inflector : Inflector) :
    ∃ schema visited built,
      ontology.baseSchema configuration.schema iri = .ok schema ∧
      (ClassBuild.start iri schema).visit ontology configuration = .ok visited ∧
      visited.runStages ontology configuration inflector = .ok built ∧
      (∀ name, name ∈ visited.schema.propertyNames ↔
        (configuration.schema.defaultProperties = true ∧ Catalog.contains name = true) ∨
          ∃ other ∈ ontology.contributors configuration.schema iri,
            ontology.DeclaresFor other name ∨ ontology.RestrictsFor other name) ∧
      visited.schema.propertyNames.Nodup ∧ built.schema.propertyNames.Nodup ∧
      built.schema.propertyNames.length = visited.schema.propertyNames.length := by
  obtain ⟨visited, hvisit, hgrows⟩ :=
    ClassBuild.grows_of_visit configuration hprefixes hclass
  have hvisited := hgrows.visited hprefixes
  refine ⟨_, visited, _, baseSchema_eq hprefixes, hvisit,
    ClassBuild.runStages_eq hprefixes hvisited.type, fun name => ?_, hvisited.nodup, ?_, ?_⟩
  · rw [hgrows.names, mem_propertyNames_firstBuild, or_comm]
    simp only [brings_iff]
  · exact Entries.nodup_names (ClassBuild.ordered_staged hvisited.ordered)
  · exact ClassBuild.length_staged hvisited.ordered

/-- Cars are vehicles. One restriction stands inside an intersection, another one inside a union. -/
def vehicles : Ontology where
  iri := "e"
  prefixes := some (.ofList [("", "e#")])
  classes := [{ iri := "e#Car" }, { iri := "e#Vehicle" }, { iri := "e#Engine" }]
  dataProperties := [{ iri := "e#wheels", domains := ["e#Vehicle"] }]
  subclassAxioms := [{ sub := "e#Car", sup := .named "e#Vehicle" },
    { sub := "e#Car", sup := .combination .object .intersection
        [.quantified .object .existential "e#engine" (.named "e#Engine"),
          .combination .object .union
            [.quantified .object .universal "e#tow" (.named "e#Vehicle")]] }]

/-- A car has the default properties, the inherited property and the one inside the intersection. -/
theorem exists_propertyNames_vehicles :
    vehicles.prefixes? = some (.ofList [("", "e#")]) ∧ vehicles.enumeration? "e#Car" = none ∧
      ∃ schema visited built,
        vehicles.baseSchema {} "e#Car" = .ok schema ∧
        (ClassBuild.start "e#Car" schema).visit vehicles {} = .ok visited ∧
        visited.runStages vehicles {} .english = .ok built ∧
        "label" ∈ visited.schema.propertyNames ∧ "wheels" ∈ visited.schema.propertyNames ∧
        "engine" ∈ visited.schema.propertyNames ∧
        built.schema.propertyNames.length = visited.schema.propertyNames.length := by
  have hprefixes : vehicles.prefixes? = some (.ofList [("", "e#")]) := rfl
  have hclass : vehicles.enumeration? "e#Car" = none := rfl
  obtain ⟨schema, visited, built, hbase, hvisit, hstages, hnames, _, _, hlength⟩ :=
    exists_propertyNames hprefixes hclass {} .english
  have hcontributors : vehicles.contributors {} "e#Car" = ["e#Car", "e#Vehicle"] := by decide
  rw [hcontributors] at hnames
  refine ⟨hprefixes, hclass, schema, visited, built, hbase, hvisit, hstages, ?_, ?_, ?_,
    hlength⟩
  · exact (hnames "label").2 (.inl ⟨rfl, by decide⟩)
  · refine (hnames "wheels").2 (.inr ⟨"e#Vehicle", by decide, .inl ?_⟩)
    exact ⟨.data, _, List.mem_cons_self, List.mem_cons_self, by decide⟩
  · refine (hnames "engine").2 (.inr ⟨"e#Car", by decide, .inr ?_⟩)
    exact ⟨_, List.mem_cons_of_mem _ List.mem_cons_self, rfl, _, "e#engine",
      .operand ⟨rfl, rfl⟩ List.mem_cons_self (.whole _), rfl, by decide⟩

end Ontology

end OntoSchema
