import OntoSchema.Binary64

/-!
# The fewest digits that read back

`shortest` finds the decimal number with the fewest digits among those that round to a given
`Binary64`, and of these the one nearest to it. On each decimal grid only the two neighbours of the
number have to be tried.
-/

namespace OntoSchema.Binary64

/-- A decimal number `digits * 10 ^ exponent`. -/
structure Decimal where
  digits : Nat
  exponent : Int
deriving DecidableEq

/-- The number of decimal digits. -/
def digitCount (n : Nat) : Nat := (Nat.toDigits 10 n).length

/-- The exponent of the leading decimal digit of a positive quotient. -/
def leadingExponent (num den : Nat) : Int :=
  if den ≤ num then (digitCount (num / den) : Int) - 1 else -(digitCount ((den - 1) / num) : Int)

/-- The point `c * 10 ^ k` in units of `1 / den`, as a quotient. -/
def gridPoint (den : Nat) (c : Nat) : Int → Nat × Nat
  | .ofNat k => (c * pow10 k * den, 1)
  | .negSucc k => (c * den, pow10 (k + 1))

/-- Whether a quotient lies between two bounds, which belong to the interval if `closed`. -/
def within (closed : Bool) (low high : Nat) (point : Nat × Nat) : Bool :=
  if closed then low * point.2 ≤ point.1 && point.1 ≤ high * point.2
  else low * point.2 < point.1 && point.1 < high * point.2

/-- The distance of a quotient from a number, times the quotient's denominator. -/
def distance (value : Nat) (point : Nat × Nat) : Nat :=
  (value * point.2 - point.1) + (point.1 - value * point.2)

/-- The better neighbour of `value / den` with `k` as exponent, if one reads back. -/
def neighbour? (closed : Bool) (low value high den : Nat) (k : Int) : Option Decimal :=
  let below := match k with
    | .ofNat k => value / (pow10 k * den)
    | .negSucc k => value * pow10 (k + 1) / den
  let first := gridPoint den below k
  let second := gridPoint den (below + 1) k
  match within closed low high first, within closed low high second with
  | true, true =>
    let nearer := distance value first < distance value second ||
      (distance value first == distance value second && below % 2 == 0)
    some ⟨if nearer then below else below + 1, k⟩
  | true, false => some ⟨below, k⟩
  | false, true => some ⟨below + 1, k⟩
  | false, false => none

/-- Removes zeros at the end of the digits. -/
def Decimal.normalize (fuel : Nat) (d : Decimal) : Decimal :=
  match fuel with
  | 0 => d
  | fuel + 1 =>
    if d.digits ≠ 0 ∧ d.digits % 10 = 0 then normalize fuel ⟨d.digits / 10, d.exponent + 1⟩ else d

/-- The shortest decimal that reads back as the magnitude of a number. -/
def shortest (x : Binary64) : Decimal :=
  let m := x.significand
  if m = 0 then ⟨0, 0⟩
  else
    let gap := if m = pow2 52 ∧ x.exponentBits > 1 then 1 else 2
    let scale := unscale 1 1 (2 - x.exponent)
    let value := 4 * m * scale.1
    let low := (4 * m - gap) * scale.1
    let high := (4 * m + 2) * scale.1
    let den := scale.2
    let lead := leadingExponent value den
    let found := (List.range 17).findSome? fun (n : Nat) =>
      neighbour? (m % 2 == 0) low value high den (lead - n)
    (found.getD ⟨0, 0⟩).normalize 20

end OntoSchema.Binary64
