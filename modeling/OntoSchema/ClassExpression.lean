import OntoSchema.Json

/-!
# Class expressions

Class expressions and data ranges share one type; a `Role` tells constructors on individuals from
constructors on literals. `ClassExpression.kind` names the shape of an expression, and
`ClassExpression.conjuncts` opens nested intersections of classes.
-/

namespace OntoSchema

/-- Whether a constructor speaks of individuals or of literals. -/
inductive Role where
  | object
  | data
deriving DecidableEq

inductive Quantifier where
  | existential
  | universal
deriving DecidableEq

inductive Bound where
  | min
  | max
  | exact
deriving DecidableEq

inductive Connective where
  | intersection
  | union
deriving DecidableEq

inductive ClassExpression where
  | named (iri : String)
  | datatype (iri : String)
  | quantified (role : Role) (quantifier : Quantifier) (property : String)
      (filler : ClassExpression)
  | cardinality (role : Role) (bound : Bound) (property : String) (count : UInt32)
      (filler : Option ClassExpression)
  | hasIndividual (property individual : String)
  | hasLiteral (property : String) (value : Json)
  | hasSelf (property : String)
  | oneOfIndividuals (individuals : List String)
  | oneOfLiterals (values : List Json)
  | complement (role : Role) (operand : ClassExpression)
  | combination (role : Role) (connective : Connective) (operands : List ClassExpression)

/-- The ten shapes of restrictions and ranges that exist for either role. -/
inductive Form where
  | someValuesFrom
  | allValuesFrom
  | minCardinality
  | maxCardinality
  | exactCardinality
  | hasValue
  | oneOf
  | complementOf
  | intersectionOf
  | unionOf
deriving DecidableEq

/-- Names and self restrictions have no kind of their own. -/
inductive Kind where
  | restriction (role : Role) (form : Form)
  | unknown
deriving DecidableEq

namespace Kind

def isObject : Kind → Bool
  | restriction .object _ => true
  | _ => false

def isData : Kind → Bool
  | restriction .data _ => true
  | _ => false

def isCardinality : Kind → Bool
  | restriction _ .minCardinality | restriction _ .maxCardinality
  | restriction _ .exactCardinality => true
  | _ => false

/-- Restrictions of a property, as opposed to enumerations and boolean constructors. -/
def isPropertyRestriction : Kind → Bool
  | restriction _ .someValuesFrom | restriction _ .allValuesFrom
  | restriction _ .minCardinality | restriction _ .maxCardinality
  | restriction _ .exactCardinality | restriction _ .hasValue => true
  | _ => false

def isBoolean : Kind → Bool
  | restriction _ .complementOf | restriction _ .intersectionOf | restriction _ .unionOf => true
  | _ => false

end Kind

namespace ClassExpression

def kind : ClassExpression → Kind
  | named _ | datatype _ | hasSelf _ => .unknown
  | quantified role .existential _ _ => .restriction role .someValuesFrom
  | quantified role .universal _ _ => .restriction role .allValuesFrom
  | cardinality role .min _ _ _ => .restriction role .minCardinality
  | cardinality role .max _ _ _ => .restriction role .maxCardinality
  | cardinality role .exact _ _ _ => .restriction role .exactCardinality
  | hasIndividual _ _ => .restriction .object .hasValue
  | hasLiteral _ _ => .restriction .data .hasValue
  | oneOfIndividuals _ => .restriction .object .oneOf
  | oneOfLiterals _ => .restriction .data .oneOf
  | complement role _ => .restriction role .complementOf
  | combination role .intersection _ => .restriction role .intersectionOf
  | combination role .union _ => .restriction role .unionOf

/-- The IRI of a named class. -/
def className? : ClassExpression → Option String
  | named iri => some iri
  | _ => none

/-- The property that an expression is about, self restrictions included. -/
def property? : ClassExpression → Option String
  | quantified _ _ property _ | cardinality _ _ property _ _ | hasIndividual property _
  | hasLiteral property _ | hasSelf property => some property
  | _ => none

def filler? : ClassExpression → Option ClassExpression
  | quantified _ _ _ filler => some filler
  | cardinality _ _ _ _ filler => filler
  | _ => none

/-- The operands of a boolean constructor. -/
def operands : ClassExpression → List ClassExpression
  | complement _ operand => [operand]
  | combination _ _ operands => operands
  | _ => []

/-- The property of a property restriction. -/
def restrictedProperty? (expression : ClassExpression) : Option String :=
  if expression.kind.isPropertyRestriction then expression.property? else none

mutual

/-- The parts of an expression that are joined by nested intersections of classes, without the
named classes among them. -/
def conjuncts : ClassExpression → List ClassExpression
  | named _ => []
  | combination .object .intersection operands => conjunctsOfAll operands
  | expression => [expression]

def conjunctsOfAll : List ClassExpression → List ClassExpression
  | [] => []
  | operand :: rest => conjuncts operand ++ conjunctsOfAll rest

end

mutual

/-- The named classes that an expression implies: the class itself, or the named parts of an
intersection at any depth. -/
def conjunctClasses : ClassExpression → List String
  | named iri => [iri]
  | combination .object .intersection operands => conjunctClassesOfAll operands
  | _ => []

def conjunctClassesOfAll : List ClassExpression → List String
  | [] => []
  | operand :: rest => conjunctClasses operand ++ conjunctClassesOfAll rest

end

mutual

/-- Whether an expression is a property restriction, or a boolean one with such a part. -/
def involvesRestriction : ClassExpression → Bool
  | quantified .. | cardinality .. | hasIndividual .. | hasLiteral .. => true
  | complement _ operand => involvesRestriction operand
  | combination _ _ operands => anyInvolvesRestriction operands
  | named _ | datatype _ | hasSelf _ | oneOfIndividuals _ | oneOfLiterals _ => false

def anyInvolvesRestriction : List ClassExpression → Bool
  | [] => false
  | operand :: rest => involvesRestriction operand || anyInvolvesRestriction rest

end

mutual

/-- The properties restricted in an expression, through intersections and unions of classes. -/
def restrictedProperties : ClassExpression → List String
  | quantified _ _ property _ | cardinality _ _ property _ _ | hasIndividual property _
  | hasLiteral property _ => [property]
  | combination .object _ operands => restrictedPropertiesOfAll operands
  | _ => []

def restrictedPropertiesOfAll : List ClassExpression → List String
  | [] => []
  | operand :: rest => restrictedProperties operand ++ restrictedPropertiesOfAll rest

end

end ClassExpression

end OntoSchema
