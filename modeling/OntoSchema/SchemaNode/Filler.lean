import OntoSchema.Ontology.SchemaName
import OntoSchema.SchemaNode.Datatype

/-!
# Schemas of property values

The ranges of a declared property and the fillers of restrictions say which values a property has.
Classes become references to their schemas, which needs their names; the class of everything,
complements and restrictions say nothing.
-/

namespace OntoSchema

namespace PropertyDeclaration

variable (declaration : PropertyDeclaration)

/-- An array of the datatypes in the ranges, or of strings if there are none. -/
def dataSchema : SchemaNode :=
  match Datatype.distinct declaration.ranges with
  | [] => .arrayOf (.ofType .string)
  | [datatype] => .arrayOf datatype.schema
  | datatypes => .arrayOf (.oneOfNodes (datatypes.map Datatype.schema))

/-- The classes in the ranges, without the class of everything. -/
def rangeClasses : List String := declaration.ranges.filter (· ≠ owlThing)

/-- An array of references to the classes in the ranges. -/
def objectSchema (ontology : Ontology) : Except BuildError SchemaNode := do
  let names ← declaration.rangeClasses.mapM ontology.schemaName
  match names.map SchemaNode.referenceTo with
  | [] => return .ofType .array
  | [reference] => return .arrayOf reference
  | references => return .arrayOf (.oneOfNodes references)

end PropertyDeclaration

namespace ClassExpression

mutual

/-- The classes that the schema of a filler refers to. -/
def fillerClasses : ClassExpression → List String
  | named iri => if iri = owlThing then [] else [iri]
  | combination _ _ operands => fillerClassesOfAll operands
  | _ => []

def fillerClassesOfAll : List ClassExpression → List String
  | [] => []
  | operand :: rest => fillerClasses operand ++ fillerClassesOfAll rest

end

mutual

/-- Whether a filler lists values somewhere in its intersections and unions. -/
def fillerEnumerates : ClassExpression → Bool
  | oneOfIndividuals _ | oneOfLiterals _ => true
  | combination _ _ operands => anyFillerEnumerates operands
  | _ => false

def anyFillerEnumerates : List ClassExpression → Bool
  | [] => false
  | operand :: rest => fillerEnumerates operand || anyFillerEnumerates rest

end

/-- The values of an enumeration of individuals, by their local names. -/
def individualValues (individuals : List String) : List Json :=
  individuals.map fun iri => .string (Iri.localName iri)

mutual

/-- The schema of a filler; nothing if the filler says nothing about values. -/
def fillerSchema? (ontology : Ontology) : ClassExpression → Except BuildError (Option SchemaNode)
  | named iri =>
    if iri = owlThing then .ok none
    else (ontology.schemaName iri).map fun name => some (.referenceTo name)
  | datatype iri => .ok (some (.ofDatatype iri))
  | oneOfIndividuals individuals => .ok (some (.ofValues .string (individualValues individuals)))
  | oneOfLiterals values => .ok (some (.ofValues (.ofValues values) values))
  | combination _ connective operands => do
    match connective, ← fillerSchemas ontology operands with
    | _, [] => return none
    | .union, variants => return some (.oneOfNodes variants)
    | .intersection, parts => return some (.allOfNodes parts)
  | _ => .ok none

/-- The schemas of the operands that have one. -/
def fillerSchemas (ontology : Ontology) :
    List ClassExpression → Except BuildError (List SchemaNode)
  | [] => .ok []
  | operand :: rest => do
    let first ← fillerSchema? ontology operand
    let others ← fillerSchemas ontology rest
    return first.toList ++ others

end

end ClassExpression

namespace SchemaNode

/-- Pins the items of a property to one value, which is their only value and their default. -/
def pin (value : Json) (fallback : SchemaType) (property : SchemaNode) : SchemaNode :=
  let items := property.items.getD (.ofType fallback)
  let pinned : SchemaNode :=
    { items with
      reference := none
      oneOf := []
      type := items.type.or (some fallback)
      enumValues := some [value]
      defaultValue := some value }
  { property with type := some .array, items := some pinned }

/-- Makes a property an array of given items, if there are any. -/
def withItems (items : Option SchemaNode) (property : SchemaNode) : SchemaNode :=
  match items with
  | none => property
  | some items => { property with type := some .array, items := some items }

/-- What a restriction says about its property, given the schema of its filler. -/
def restrict (restriction : ClassExpression) (items : Option SchemaNode) (property : SchemaNode) :
    SchemaNode :=
  let property := property.withItems items
  match restriction with
  | .cardinality _ .min _ count _ => { property with minItems := some count }
  | .cardinality _ .max _ count _ => { property with maxItems := some count }
  | .cardinality _ .exact _ count _ =>
    { property with minItems := some count, maxItems := some count }
  | .hasIndividual _ individual => property.pin (.string (Iri.localName individual)) .string
  | .hasLiteral _ value => property.pin value (.ofJson value)
  | _ => property

end SchemaNode

namespace ClassExpression

/-- Whether a restriction demands exactly one value. -/
def demandsOne : ClassExpression → Bool
  | cardinality _ .exact _ count _ => count == 1
  | _ => false

/-- Whether a restriction fixes the value of its property. -/
def fixesValue : ClassExpression → Bool
  | hasIndividual _ _ | hasLiteral _ _ => true
  | _ => false

end ClassExpression

end OntoSchema
