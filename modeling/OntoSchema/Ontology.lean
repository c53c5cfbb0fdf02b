import OntoSchema.ClassExpression
import OntoSchema.Iri
import OntoSchema.NameMap

/-!
# Ontologies

An `Ontology` holds declarations and axioms in the order of its document. Queries find the first
declaration of an IRI; among properties, object properties come first.
-/

namespace OntoSchema

structure Annotation where
  property : String
  value : String
deriving DecidableEq

structure ClassDeclaration where
  iri : String
  annotations : List Annotation := []
deriving DecidableEq

structure PropertyDeclaration where
  iri : String
  domains : List String := []
  ranges : List String := []
  functional : Bool := false
  annotations : List Annotation := []
deriving DecidableEq

/-- A named class is included in an expression. -/
structure SubclassAxiom where
  sub : String
  sup : ClassExpression
  annotations : List Annotation := []

/-- A named class equals an expression. -/
structure EquivalenceAxiom where
  subject : String
  expression : ClassExpression
  annotations : List Annotation := []

structure Ontology where
  iri : String
  /-- Namespaces by their short names; nothing when the document has no such table. -/
  prefixes : Option (NameMap String) := none
  classes : List ClassDeclaration := []
  objectProperties : List PropertyDeclaration := []
  dataProperties : List PropertyDeclaration := []
  subclassAxioms : List SubclassAxiom := []
  equivalences : List EquivalenceAxiom := []

namespace Ontology

variable (ontology : Ontology)

def classIris : List String := ontology.classes.map ClassDeclaration.iri

def declares (iri : String) : Bool := ontology.classIris.contains iri

/-- Whether a text is the IRI or the local name of a declared class. -/
def declaresName (text : String) : Bool :=
  ontology.classIris.any fun iri => iri == text || Iri.localName iri == text

/-- The declared class that a text names: the class of this IRI, else the first one with this local
name. -/
def findClass? (text : String) : Option String :=
  match ontology.classIris.find? (· == text) with
  | some iri => some iri
  | none => ontology.classIris.find? fun iri => Iri.localName iri == text

/-- The properties that have a class among their domains. -/
def propertiesOf (role : Role) (iri : String) : List PropertyDeclaration :=
  match role with
  | .object => ontology.objectProperties.filter (·.domains.contains iri)
  | .data => ontology.dataProperties.filter (·.domains.contains iri)

def findProperty? (iri : String) : Option (Role × PropertyDeclaration) :=
  match ontology.objectProperties.find? (·.iri == iri) with
  | some declaration => some (.object, declaration)
  | none => (ontology.dataProperties.find? (·.iri == iri)).map fun declaration =>
      (.data, declaration)

/-- The annotations of a class or a property; a class of this IRI comes first. -/
def annotations (iri : String) : List Annotation :=
  match ontology.classes.find? (·.iri == iri) with
  | some declaration => declaration.annotations
  | none =>
    match ontology.findProperty? iri with
    | some (_, declaration) => declaration.annotations
    | none => []

def subclassAxiomsOf (iri : String) : List SubclassAxiom :=
  ontology.subclassAxioms.filter (·.sub == iri)

def equivalencesOf (iri : String) : List EquivalenceAxiom :=
  ontology.equivalences.filter (·.subject == iri)

end Ontology

end OntoSchema
