import OntoSchema.Binary64

/-!
# Numerals in annotation texts

`integer?` reads a signed decimal integer of 64 bits. `real?` reads a decimal number whose point may
stand at either end and which may have an exponent; it is rounded once, to the nearest number, and
fails when that is out of range.
-/

namespace OntoSchema.Text

/-- The sign in front of a numeral, and what follows it. -/
def splitSign (chars : List Char) : Bool × List Char :=
  match chars with
  | '-' :: rest => (true, rest)
  | '+' :: rest => (false, rest)
  | chars => (false, chars)

def decimalValue (chars : List Char) : Nat :=
  chars.foldl (fun n c => n * 10 + (c.toNat - '0'.toNat)) 0

/-- One or more decimal digits and nothing else. -/
def natural? (chars : List Char) : Option Nat :=
  if chars ≠ [] ∧ chars.all Char.isDigit then some (decimalValue chars) else none

def integer? (text : String) : Option Int := do
  let (negative, chars) := splitSign text.toList
  let magnitude ← natural? chars
  let value : Int := if negative then -magnitude else magnitude
  if -pow2 63 ≤ value ∧ value < pow2 63 then some value else none

/-- The exponent behind its letter; zero when nothing is written. -/
def exponent? (chars : List Char) : Option Int :=
  match chars with
  | [] => some 0
  | c :: rest =>
    if c = 'e' ∨ c = 'E' then
      let (negative, digits) := splitSign rest
      (natural? digits).map fun magnitude => if negative then -(magnitude : Int) else magnitude
    else none

def real? (text : String) : Option Binary64 := do
  let (negative, chars) := splitSign text.toList
  let whole := chars.takeWhile Char.isDigit
  let afterWhole := chars.dropWhile Char.isDigit
  let (fraction, rest) := match afterWhole with
    | '.' :: rest => (rest.takeWhile Char.isDigit, rest.dropWhile Char.isDigit)
    | rest => ([], rest)
  if whole ++ fraction = [] then none
  else
    let exponent ← exponent? rest
    Binary64.ofDecimal? negative (decimalValue (whole ++ fraction)) (exponent - fraction.length)

end OntoSchema.Text
