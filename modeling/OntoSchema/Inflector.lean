import OntoSchema.NameMap

/-!
# Singular and plural forms

An `Inflector` turns names into their plural and singular forms. `Inflector.english` goes by
suffixes, which the functions on reversed words spell backwards.
-/

namespace OntoSchema

structure Inflector where
  pluralize : String → String
  singularize : String → String

namespace Inflector

def isVowel (c : Char) : Bool :=
  ['a', 'e', 'i', 'o', 'u'].contains c.toLower

/-- Whether a word takes `es`: it ends in `ch`, `sh`, `x` or `z`. The word is reversed. -/
def takesEs : List Char → Bool
  | 'h' :: 'c' :: _ | 'h' :: 's' :: _ | 'x' :: _ | 'z' :: _ => true
  | _ => false

/-- Whether a word ends in `y` behind a character that is no vowel. The word is reversed. -/
def endsConsonantY : List Char → Bool
  | 'y' :: c :: _ => !isVowel c
  | _ => false

/-- The plural of a reversed word. A word that ends in `s` is a plural already. -/
def reversedPlural (word : List Char) : List Char :=
  match word with
  | [] => []
  | 's' :: _ => word
  | _ :: stem =>
    if endsConsonantY word then 's' :: 'e' :: 'i' :: stem
    else if takesEs word then 's' :: 'e' :: word
    else 's' :: word

/-- The singular of a reversed word. The endings `ss`, `us` and `is` are no plurals. -/
def reversedSingular (word : List Char) : List Char :=
  match word with
  | 's' :: 'e' :: 'i' :: c :: rest => 'y' :: c :: rest
  | 's' :: 'e' :: 's' :: 's' :: rest => 's' :: 's' :: rest
  | 's' :: 's' :: _ | 's' :: 'u' :: _ | 's' :: 'i' :: _ => word
  | 's' :: 'e' :: stem => if takesEs stem then stem else 'e' :: stem
  | 's' :: c :: rest => c :: rest
  | _ => word

def onReversed (change : List Char → List Char) (word : String) : String :=
  String.ofList (change word.toList.reverse).reverse

def english : Inflector := ⟨onReversed reversedPlural, onReversed reversedSingular⟩

/-- An inflector that knows the words of two tables and leaves all others alone. -/
def ofTables (plural singular : NameMap String) : Inflector :=
  ⟨fun word => (plural.get? word).getD word, fun word => (singular.get? word).getD word⟩

end Inflector

end OntoSchema
