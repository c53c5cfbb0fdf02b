import OntoSchema.Proofs.ConvertedProperties
import OntoSchema.Proofs.Stages

/-!
# Ranges of present properties

The pruning looks for an object property under its own name, its plural and its singular, and a
conversion gives a property no other name. So a range of a property that the schema has bears
something for the pruning, whether the property was renamed, was refused a name or kept its own:
`mem_referenced_of_range` says so for every build, whatever its names and settings are.
-/

namespace OntoSchema

/-- A range of an object property bears something where the property is present under some form of
its name. -/
theorem Ontology.Bears.of_range {ontology : Ontology} {inflector : Inflector}
    {present : String → Prop} {range form : String} {declaration : PropertyDeclaration}
    (hdeclared : declaration ∈ ontology.objectProperties) (hrange : range ∈ declaration.ranges)
    (hpresent : present form)
    (hform : form = Iri.localName declaration.iri ∨
      form = inflector.pluralize (Iri.localName declaration.iri) ∨
      form = inflector.singularize (Iri.localName declaration.iri)) :
    ontology.Bears inflector present range := by
  refine .inr (.inr (.inr ⟨declaration, hdeclared, hrange, ?_⟩))
  rcases hform with rfl | rfl | rfl
  · exact .inl hpresent
  · exact .inr (.inl hpresent)
  · exact .inr (.inr hpresent)

namespace ClassBuild

variable {ontology : Ontology} {configuration : Configuration} {options : SchemaOptions}
  {inflector : Inflector} {build next : ClassBuild} {name : String}

/-- After a conversion a property is found under some form of its name. -/
theorem exists_form_convertArrays (options : SchemaOptions) (inflector : Inflector)
    (h : name ∈ build.schema.propertyNames) :
    ∃ form ∈ (build.convertArrays options inflector).schema.propertyNames,
      form = name ∨ form = inflector.pluralize name ∨ form = inflector.singularize name := by
  cases harrays : options.alwaysGenerateArrays with
  | true =>
    rw [convertArrays_of_always harrays]
    exact ⟨name, h, .inl rfl⟩
  | false =>
    obtain ⟨conversion, hm, rfl⟩ := exists_conversion options inflector h
    exact ⟨conversion.target, target_mem_propertyNames harrays hm, target_cases hm⟩

theorem exists_form_converted (configuration : Configuration) (inflector : Inflector)
    (h : name ∈ build.schema.propertyNames) :
    ∃ form ∈ (build.converted configuration inflector).schema.propertyNames,
      form = name ∨ form = inflector.pluralize name ∨ form = inflector.singularize name := by
  rw [← propertyNames_prepared configuration build] at h
  exact exists_form_convertArrays configuration.schema inflector h

/-- Stages that end well keep the converted properties and the referenced classes that bear
something for a schema with these properties. -/
theorem exists_schema_of_runStages
    (h : build.runStages ontology configuration inflector = .ok next) :
    ∃ schema : SchemaNode,
      schema.propertyNames = (build.converted configuration inflector).schema.propertyNames ∧
      next.schema.propertyNames = schema.propertyNames ∧
      next.referenced = build.referenced.filter (ontology.isLoadBearing inflector schema) := by
  obtain ⟨inherited, pruned, hinherited, hpruned, rfl⟩ := exists_of_runStages h
  obtain ⟨_, _, rfl⟩ := exists_eq_of_applyInheritance hinherited
  obtain ⟨_, rfl⟩ := exists_eq_of_prune hpruned
  obtain ⟨_, hmarkdown⟩ := exists_collectMarkdown_eq ontology configuration.annotations _
  rw [hmarkdown, ← referenced_converted configuration inflector build]
  exact ⟨_, rfl, rfl, rfl⟩

/-- A class that the schema refers to stays referenced if it is a range of an object property that
the schema has, under some form of the name of that property. -/
theorem mem_referenced_of_range {range : String} {declaration : PropertyDeclaration}
    (hstages : build.runStages ontology configuration inflector = .ok next)
    (hreferenced : range ∈ build.referenced)
    (hdeclared : declaration ∈ ontology.objectProperties) (hrange : range ∈ declaration.ranges)
    (hproperty : Iri.localName declaration.iri ∈ build.schema.propertyNames) :
    range ∈ next.referenced ∧
      ∃ form ∈ next.schema.propertyNames,
        form = Iri.localName declaration.iri ∨
          form = inflector.pluralize (Iri.localName declaration.iri) ∨
          form = inflector.singularize (Iri.localName declaration.iri) := by
  obtain ⟨schema, hconverted, hnames, hkept⟩ := exists_schema_of_runStages hstages
  have hforms := exists_form_converted configuration inflector hproperty
  rw [← hconverted] at hforms
  refine ⟨?_, hnames ▸ hforms⟩
  obtain ⟨form, hpresent, hform⟩ := hforms
  rw [hkept, NameSet.mem_filter, Ontology.isLoadBearing_iff fun _ => Iff.rfl]
  exact ⟨hreferenced, .of_range hdeclared hrange hpresent hform⟩

/-- Readers have books, and loans under the singular of another property. -/
def readers : Ontology where
  iri := "e"
  prefixes := some (.ofList [("", "e#")])
  classes := [{ iri := "e#Reader" }, { iri := "e#Book" }, { iri := "e#Loan" }]
  objectProperties := [{ iri := "e#book", domains := ["e#Reader"], ranges := ["e#Book"] },
    { iri := "e#loan", domains := ["e#Reader"], ranges := ["e#Loan"] }]
  dataProperties := [{ iri := "e#loans", domains := ["e#Reader"] }]

/-- Arrays take their plural. -/
def pluralizing : Configuration where
  schema := { alwaysGenerateArrays := false, fixPropertyNames := true, defaultProperties := false }

/-- Books stay referenced behind a renamed property, loans behind one that is refused its plural. -/
theorem mem_referenced_of_range_readers :
    ∃ schema visited built,
      readers.baseSchema pluralizing.schema "e#Reader" = .ok schema ∧
      (start "e#Reader" schema).visit readers pluralizing = .ok visited ∧
      visited.runStages readers pluralizing .english = .ok built ∧
      visited.schema.propertyNames = ["book", "loan", "loans"] ∧
      built.schema.propertyNames = ["books", "loan", "loans"] ∧
      "e#Book" ∈ built.referenced ∧ "e#Loan" ∈ built.referenced := by
  obtain ⟨schema, visited, built, hbase, hvisit, hstages, hreferenced, hbefore, hafter⟩ :
      ∃ schema visited built,
        readers.baseSchema pluralizing.schema "e#Reader" = .ok schema ∧
        (start "e#Reader" schema).visit readers pluralizing = .ok visited ∧
        visited.runStages readers pluralizing .english = .ok built ∧
        visited.referenced.toList = ["e#Book", "e#Loan"] ∧
        visited.schema.propertyNames = ["book", "loan", "loans"] ∧
        built.schema.propertyNames = ["books", "loan", "loans"] :=
    ⟨_, _, _, rfl, rfl, rfl, by decide +kernel, by decide +kernel, by decide +kernel⟩
  have hbook : "e#Book" ∈ visited.referenced := by simp [NameSet.mem_def, hreferenced]
  have hloan : "e#Loan" ∈ visited.referenced := by simp [NameSet.mem_def, hreferenced]
  refine ⟨schema, visited, built, hbase, hvisit, hstages, hbefore, hafter, ?_, ?_⟩
  · have hproperty : "book" ∈ visited.schema.propertyNames := by simp [hbefore]
    exact (mem_referenced_of_range hstages hbook List.mem_cons_self List.mem_cons_self hproperty).1
  · have hproperty : "loan" ∈ visited.schema.propertyNames := by simp [hbefore]
    exact (mem_referenced_of_range hstages hloan (List.mem_cons_of_mem _ List.mem_cons_self)
      List.mem_cons_self hproperty).1

end ClassBuild

end OntoSchema
