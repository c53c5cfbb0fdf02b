import OntoSchema.Json.Number
import OntoSchema.Json.Shape

/-!
# Reading JSON texts

`Json.read?` accepts the texts of the JSON grammar without any extension. Keys that a text repeats
are kept, since records refuse them; `Json.distinct` resolves them elsewhere. Inside the parts that
a shape skips, numbers of any size, nesting of any depth and unpaired surrogates are accepted.
-/

namespace OntoSchema.Json

/-- A value that is read lies inside at most this many arrays and objects, itself included. -/
def depthLimit : Nat := 127

def isSpace (c : Char) : Bool := c = ' ' || c = '\n' || c = '\t' || c = '\r'

def skipSpace (chars : List Char) : List Char := chars.dropWhile isSpace

def hexDigit? (c : Char) : Option Nat :=
  if c.isDigit then some (c.toNat - '0'.toNat)
  else if 'a' ≤ c ∧ c ≤ 'f' then some (c.toNat - 'a'.toNat + 10)
  else if 'A' ≤ c ∧ c ≤ 'F' then some (c.toNat - 'A'.toNat + 10)
  else none

/-- Four hexadecimal digits and what follows them. -/
def readUnit? : List Char → Option (Nat × List Char)
  | a :: b :: c :: d :: rest => do
    let a ← hexDigit? a
    let b ← hexDigit? b
    let c ← hexDigit? c
    let d ← hexDigit? d
    return (((a * 16 + b) * 16 + c) * 16 + d, rest)
  | _ => none

def isHighSurrogate (unit : Nat) : Bool := 0xD800 ≤ unit && unit < 0xDC00

def isLowSurrogate (unit : Nat) : Bool := 0xDC00 ≤ unit && unit < 0xE000

/-- The character of an escape that follows `\u`; surrogates must come in pairs if `strict`. -/
def readUnicode? (strict : Bool) (chars : List Char) : Option (Char × List Char) := do
  let (unit, rest) ← readUnit? chars
  if !strict then return (Char.ofNat unit, rest)
  if isLowSurrogate unit then failure
  if isHighSurrogate unit then
    match rest with
    | '\\' :: 'u' :: rest =>
      let (low, rest) ← readUnit? rest
      if !isLowSurrogate low then failure
      return (Char.ofNat (0x10000 + (unit - 0xD800) * 0x400 + (low - 0xDC00)), rest)
    | _ => failure
  return (Char.ofNat unit, rest)

def simpleEscape? : Char → Option Char
  | '"' => some '"'
  | '\\' => some '\\'
  | '/' => some '/'
  | 'b' => some '\x08'
  | 'f' => some '\x0c'
  | 'n' => some '\n'
  | 'r' => some '\r'
  | 't' => some '\t'
  | _ => none

/-- Reads a string behind its opening quote; `found` holds its characters in reverse. -/
def readString? (strict : Bool) : (fuel : Nat) → (found : List Char) → List Char →
    Option (String × List Char)
  | 0, _, _ => none
  | fuel + 1, found, chars =>
    match chars with
    | [] => none
    | '"' :: rest => some (String.ofList found.reverse, rest)
    | '\\' :: 'u' :: rest =>
      match readUnicode? strict rest with
      | none => none
      | some (c, rest) => readString? strict fuel (c :: found) rest
    | '\\' :: c :: rest =>
      match simpleEscape? c with
      | none => none
      | some c => readString? strict fuel (c :: found) rest
    | c :: rest => if c.toNat < 0x20 then none else readString? strict fuel (c :: found) rest

def digits (chars : List Char) : List Nat :=
  (chars.takeWhile Char.isDigit).map fun c => c.toNat - '0'.toNat

def skipDigits (chars : List Char) : List Char := chars.dropWhile Char.isDigit

/-- The integer part of a number: a zero, or digits that do not begin with one. -/
def readWhole? (chars : List Char) : Option (List Nat × List Char) :=
  match chars with
  | '0' :: rest => some ([0], rest)
  | c :: _ => if c.isDigit then some (digits chars, skipDigits chars) else none
  | [] => none

/-- The digits behind a point, if there is one. -/
def readFraction? (chars : List Char) : Option (Option (List Nat) × List Char) :=
  match chars with
  | '.' :: rest =>
    match digits rest with
    | [] => none
    | found => some (some found, skipDigits rest)
  | _ => some (none, chars)

def ofDigits (found : List Nat) : Nat := found.foldl (fun n d => n * 10 + d) 0

/-- The digits of an exponent behind its sign. -/
def readExponentDigits? (negative : Bool) (chars : List Char) :
    Option (Option Int × List Char) :=
  match digits chars with
  | [] => none
  | found =>
    let magnitude : Int := ofDigits found
    some (some (if negative then -magnitude else magnitude), skipDigits chars)

def readExponent? (chars : List Char) : Option (Option Int × List Char) :=
  match chars with
  | c :: rest =>
    if c = 'e' ∨ c = 'E' then
      match rest with
      | '+' :: rest => readExponentDigits? false rest
      | '-' :: rest => readExponentDigits? true rest
      | rest => readExponentDigits? false rest
    else some (none, chars)
  | [] => some (none, chars)

def readToken? (chars : List Char) : Option (Number.Token × List Char) := do
  let (negative, chars) := match chars with
    | '-' :: rest => (true, rest)
    | chars => (false, chars)
  let (whole, chars) ← readWhole? chars
  let (fraction, chars) ← readFraction? chars
  let (exponent, chars) ← readExponent? chars
  return (⟨negative, whole, fraction, exponent⟩, chars)

/-- A literal, a number or a string that is checked for syntax only. -/
def skipScalar? (chars : List Char) : Option (List Char) :=
  match chars with
  | 'n' :: 'u' :: 'l' :: 'l' :: rest => some rest
  | 't' :: 'r' :: 'u' :: 'e' :: rest => some rest
  | 'f' :: 'a' :: 'l' :: 's' :: 'e' :: rest => some rest
  | '"' :: rest => (readString? false (rest.length + 1) [] rest).map Prod.snd
  | chars => (readToken? chars).map Prod.snd

/-- A key and its colon, checked for syntax only. -/
def skipKey? (chars : List Char) : Option (List Char) :=
  match skipSpace chars with
  | '"' :: rest => do
    let (_, rest) ← readString? false (rest.length + 1) [] rest
    match skipSpace rest with
    | ':' :: rest => some rest
    | _ => none
  | _ => none

inductive Bracket where
  | square
  | curly

/-- Passes over a value that is checked for syntax only. `brackets` are the containers around the
place reached, and `ended` says that a value has just ended there. -/
def skipValue? : (fuel : Nat) → (brackets : List Bracket) → (ended : Bool) → List Char →
    Option (List Char)
  | 0, _, _, _ => none
  | _ + 1, [], true, chars => some chars
  | fuel + 1, .square :: outer, true, chars =>
    match skipSpace chars with
    | ',' :: rest => skipValue? fuel (.square :: outer) false rest
    | ']' :: rest => skipValue? fuel outer true rest
    | _ => none
  | fuel + 1, .curly :: outer, true, chars =>
    match skipSpace chars with
    | ',' :: rest => (skipKey? rest).bind fun rest => skipValue? fuel (.curly :: outer) false rest
    | '}' :: rest => skipValue? fuel outer true rest
    | _ => none
  | fuel + 1, brackets, false, chars =>
    match skipSpace chars with
    | '[' :: rest =>
      match skipSpace rest with
      | ']' :: rest => skipValue? fuel brackets true rest
      | rest => skipValue? fuel (.square :: brackets) false rest
    | '{' :: rest =>
      match skipSpace rest with
      | '}' :: rest => skipValue? fuel brackets true rest
      | rest => (skipKey? rest).bind fun rest => skipValue? fuel (.curly :: brackets) false rest
    | chars => (skipScalar? chars).bind fun rest => skipValue? fuel brackets true rest

mutual

/-- Reads a value of a shape, which may hold `depth` nested containers. -/
def readValue? : (fuel : Nat) → (shape : Shape) → (depth : Nat) → List Char →
    Option (Json × List Char)
  | 0, _, _, _ => none
  | fuel + 1, shape, depth, chars =>
    let chars := skipSpace chars
    if shape.isSkipped then
      (skipValue? (2 * chars.length + 2) [] false chars).map fun rest => (.null, rest)
    else
      match chars with
      | 'n' :: 'u' :: 'l' :: 'l' :: rest => some (.null, rest)
      | 't' :: 'r' :: 'u' :: 'e' :: rest => some (.bool true, rest)
      | 'f' :: 'a' :: 'l' :: 's' :: 'e' :: rest => some (.bool false, rest)
      | '"' :: rest =>
        (readString? true (rest.length + 1) [] rest).map fun (s, rest) => (.string s, rest)
      | '[' :: rest =>
        if depth = 0 then none
        else
          match skipSpace rest with
          | ']' :: rest => some (.array [], rest)
          | rest => (readItems? fuel shape 0 (depth - 1) rest).map fun (items, rest) =>
              (.array items, rest)
      | '{' :: rest =>
        if depth = 0 then none
        else
          match skipSpace rest with
          | '}' :: rest => some (.object [], rest)
          | rest => (readFields? fuel shape (depth - 1) rest).map fun (fields, rest) =>
              (.object fields, rest)
      | chars => do
        let (token, rest) ← readToken? chars
        return (.number (← Number.ofToken? token), rest)

/-- Reads the items of an array from the one at `index` on, with the closing bracket. -/
def readItems? : (fuel : Nat) → (shape : Shape) → (index depth : Nat) → List Char →
    Option (List Json × List Char)
  | 0, _, _, _, _ => none
  | fuel + 1, shape, index, depth, chars =>
    match readValue? fuel (shape.item index) depth chars with
    | none => none
    | some (value, rest) =>
      match skipSpace rest with
      | ',' :: rest => (readItems? fuel shape (index + 1) depth rest).map fun (items, rest) =>
          (value :: items, rest)
      | ']' :: rest => some ([value], rest)
      | _ => none

/-- Reads the fields of an object, with the closing brace. -/
def readFields? : (fuel : Nat) → (shape : Shape) → (depth : Nat) → List Char →
    Option (List (String × Json) × List Char)
  | 0, _, _, _ => none
  | fuel + 1, shape, depth, chars =>
    match skipSpace chars with
    | '"' :: rest =>
      match readString? true (rest.length + 1) [] rest with
      | none => none
      | some (key, rest) =>
        match skipSpace rest with
        | ':' :: rest =>
          match readValue? fuel (shape.field key) depth rest with
          | none => none
          | some (value, rest) =>
            match skipSpace rest with
            | ',' :: rest => (readFields? fuel shape depth rest).map fun (fields, rest) =>
                ((key, value) :: fields, rest)
            | '}' :: rest => some ([(key, value)], rest)
            | _ => none
        | _ => none
    | _ => none

end

/-- The value of a text of a given shape; nothing when the text is not JSON. -/
def read? (shape : Shape) (text : String) : Option Json :=
  let chars := text.toList
  match readValue? (2 * chars.length + 2) shape depthLimit chars with
  | some (value, rest) => if (skipSpace rest).isEmpty then some value else none
  | none => none

end OntoSchema.Json
