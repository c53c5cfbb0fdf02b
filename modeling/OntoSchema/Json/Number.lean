import OntoSchema.Json
import OntoSchema.Binary64.Shortest

/-!
# Numbers in JSON texts

`Number.text` writes a real number with the fewest digits that read back, positionally from 1e-5 up
to 1e16 and in scientific notation beyond. `Number.ofToken?` reads a token in two roundings: the
leading digits that fit 64 bits make a significand, which is then scaled by powers of ten.
-/

namespace OntoSchema.Json.Number

def zeros (n : Nat) : String := String.ofList (List.replicate n '0')

/-- Writes `0.digits * 10 ^ point` positionally, with one digit at least on both sides. -/
def positional (digits : List Char) (point : Int) : String :=
  if point ≤ 0 then "0." ++ zeros (-point).toNat ++ String.ofList digits
  else
    let whole := point.toNat
    if digits.length ≤ whole then
      String.ofList digits ++ zeros (whole - digits.length) ++ ".0"
    else String.ofList (digits.take whole) ++ "." ++ String.ofList (digits.drop whole)

/-- Writes `0.digits * 10 ^ point` with one digit before the point and a signed exponent. -/
def scientific (digits : List Char) (point : Int) : String :=
  let fraction := match digits.drop 1 with
    | [] => ""
    | rest => "." ++ String.ofList rest
  let exponent := if 1 ≤ point then "e+" ++ toString (point - 1).toNat
    else "e-" ++ toString (1 - point).toNat
  String.ofList (digits.take 1) ++ fraction ++ exponent

def realText (x : Binary64) : String :=
  let sign := if x.isNegative then "-" else ""
  if x.isZero then sign ++ "0.0"
  else
    let decimal := x.shortest
    let digits := Nat.toDigits 10 decimal.digits
    let point := decimal.exponent + digits.length
    sign ++ (if -5 < point ∧ point ≤ 16 then positional digits point else scientific digits point)

def text : Number → String
  | .integer n => toString n
  | .real x => realText x

/-- Whether a significand takes one more digit without leaving 64 bits. -/
def fits (significand digit : Nat) : Bool := significand * 10 + digit < pow2 64

/-- Reads whole digits into a significand; digits from the first that does not fit are counted. -/
def wholeDigits (significand : Nat) : List Nat → Nat × Nat
  | [] => (significand, 0)
  | d :: rest =>
    if fits significand d then wholeDigits (significand * 10 + d) rest
    else (significand, rest.length + 1)

/-- Reads fraction digits into a significand, with their number; the rest is dropped from the
first digit that does not fit. -/
def fractionDigits (significand : Nat) : List Nat → Nat × Nat
  | [] => (significand, 0)
  | d :: rest =>
    if fits significand d then
      let (found, count) := fractionDigits (significand * 10 + d) rest
      (found, count + 1)
    else (significand, 0)

/-- Divides a number by a power of ten, in steps of 308 digits. -/
def scaleDown (x : Binary64) (digits : Nat) : Option Binary64 :=
  if digits ≤ 308 then do x.div? (← Binary64.ofNat? (pow10 digits))
  else if x.isZero then some x
  else do scaleDown (← x.div? (← Binary64.ofNat? (pow10 308))) (digits - 308)
termination_by digits

/-- The product of a significand and a power of ten, if it is in range. -/
def scale (significand : Nat) (exponent : Int) : Option Binary64 := do
  let x ← Binary64.ofNat? significand
  match exponent with
  | .ofNat e =>
    if e ≤ 308 then x.mul? (← Binary64.ofNat? (pow10 e))
    else if x.isZero then some x
    else none
  | .negSucc e => scaleDown x (e + 1)

/-- The parts of a number token: sign, whole digits, and the fraction and exponent if written. -/
structure Token where
  negative : Bool
  whole : List Nat
  fraction : Option (List Nat)
  exponent : Option Int

/-- The number of a token; nothing when it is too large for a real number. -/
def ofToken? (token : Token) : Option Number :=
  let (leading, dropped) := wholeDigits 0 token.whole
  match token.fraction, token.exponent, dropped with
  | none, none, 0 =>
    if !token.negative then some (.integer leading)
    else if leading ≠ 0 ∧ leading ≤ pow2 63 then some (.integer (-leading))
    else do
      let x ← Binary64.ofNat? leading
      return .real x.neg
  | _, _, _ => do
    let (significand, count) := fractionDigits leading (token.fraction.getD [])
    let x ← scale significand ((dropped : Int) - count + token.exponent.getD 0)
    return .real (if token.negative then x.neg else x)

end OntoSchema.Json.Number
