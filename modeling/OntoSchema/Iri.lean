/-!
# IRIs and local names

The local name of an IRI is the text behind its last `#`, `/` or `:`, or the whole IRI if it has
none of them. An annotation property answers to its IRI and to its local name.
-/

namespace OntoSchema

/-- The class of everything, which has no schema of its own. -/
def owlThing : String := "http://www.w3.org/2002/07/owl#Thing"

namespace Iri

def isSeparator (c : Char) : Bool := c = '#' || c = '/' || c = ':'

/-- The characters behind the last separator. -/
def localChars (chars : List Char) : List Char :=
  (chars.reverse.takeWhile fun c => !isSeparator c).reverse

def localName (iri : String) : String := String.ofList (localChars iri.toList)

/-- Whether an annotation property goes by a configured name, which must not be empty. -/
def answersTo (iri configured : String) : Bool :=
  configured ≠ "" && (iri == configured || localName iri == configured)

end Iri

end OntoSchema
