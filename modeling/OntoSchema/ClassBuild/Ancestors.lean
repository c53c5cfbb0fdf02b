import OntoSchema.ClassBuild
import OntoSchema.Configuration
import OntoSchema.Inflector
import OntoSchema.Ontology.Hierarchy
import OntoSchema.Ontology.SchemaName

/-!
# References to superclasses

A schema may refer to the superclasses of its class instead of copying their properties. It refers
to those that no other superclass covers, sorted by name. Afterwards, classes that contribute
nothing worth pointing at are removed from the references.
-/

namespace OntoSchema

namespace ClassBuild

variable (ontology : Ontology) (build : ClassBuild)

/-- Whether a superclass is also a superclass of another one. -/
def isCovered (iri : String) : Bool :=
  build.ancestors.any fun other => other ≠ iri && (ontology.superclasses other).contains iri

/-- The superclasses to refer to. -/
def nearestAncestors : List String :=
  build.ancestors.filter fun iri => build.referenced.contains iri && !build.isCovered ontology iri

/-- References in the order of their names, followed by the node that holds the own properties. -/
def inheritanceParts (names : List String) : List SchemaNode :=
  match (names.map (componentPath ++ ·)).mergeSort (fun a b => decide (a ≤ b)) with
  | [] => []
  | references =>
    references.map (fun reference => ({ reference := some reference } : SchemaNode)) ++
      [.ofType .object]

/-- A schema with properties of its own and no type is an object. -/
def completeType : ClassBuild :=
  if !build.schema.properties.isEmpty && build.schema.allOf.isEmpty && build.schema.type.isNone then
    { build with schema := { build.schema with type := some .object } }
  else build

/-- Rebuilds the references to superclasses, if asked to. -/
def applyInheritance (options : SchemaOptions) : Attempt :=
  if build.schema.isEnum then .ok build
  else if options.followReferences && options.useInheritanceReferences then
    match (build.nearestAncestors ontology).mapM ontology.schemaName with
    | .error error => .error ⟨error, build⟩
    | .ok names =>
      .ok ({ build with
        schema := { build.schema with allOf := inheritanceParts names } }).completeType
  else .ok build.completeType

end ClassBuild

/-- Whether a schema has a property under some form of a name. -/
def SchemaNode.hasPropertyLike (schema : SchemaNode) (inflector : Inflector) (name : String) :
    Bool :=
  schema.hasProperty name || schema.hasProperty (inflector.pluralize name) ||
    schema.hasProperty (inflector.singularize name)

/-- Whether it is worth pointing at a class: it has an equivalence, a restriction or data properties
of its own, or a property of the schema has it as a range. -/
def Ontology.isLoadBearing (ontology : Ontology) (inflector : Inflector) (schema : SchemaNode)
    (iri : String) : Bool :=
  !(ontology.equivalencesOf iri).isEmpty ||
    (ontology.subclassAxiomsOf iri).any (·.sup.involvesRestriction) ||
    !(ontology.propertiesOf .data iri).isEmpty ||
    ontology.objectProperties.any fun declaration =>
      declaration.ranges.contains iri &&
        schema.hasPropertyLike inflector (Iri.localName declaration.iri)

namespace ClassBuild

/-- Removes the classes that bear nothing, and the references to their schemas. References that
point nowhere any more leave no parts behind. -/
def prune (ontology : Ontology) (inflector : Inflector) (build : ClassBuild) : Attempt :=
  let bearing := ontology.isLoadBearing inflector build.schema
  match (build.referenced.toList.filter (!bearing ·)).mapM ontology.schemaName with
  | .error error => .error ⟨error, build⟩
  | .ok names =>
    let kept := build.schema.allOf.filter fun part =>
      !names.any fun name => part.referencedName? == some name
    .ok { build with
      referenced := build.referenced.filter bearing
      schema := { build.schema with
        allOf := if kept.all (·.reference.isNone) then [] else kept } }

end ClassBuild

end OntoSchema
