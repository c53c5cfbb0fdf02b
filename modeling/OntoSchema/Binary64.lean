/-!
# Binary floating point numbers of 64 bits

A `Binary64` is a finite number given by its bits; its magnitude is `significand * 2 ^ exponent`.
`ofRatio?` rounds a quotient of natural numbers to the nearest such number, a tie going to the even
significand, and fails when that number is too large. All arithmetic is exact.
-/

namespace OntoSchema

def pow2 (n : Nat) : Nat := Nat.pow 2 n

def pow10 (n : Nat) : Nat := Nat.pow 10 n

structure Binary64 where
  bits : UInt64
deriving DecidableEq

namespace Binary64

def isNegative (x : Binary64) : Bool := pow2 63 ≤ x.bits.toNat

def exponentBits (x : Binary64) : Nat := x.bits.toNat / pow2 52 % pow2 11

def fractionBits (x : Binary64) : Nat := x.bits.toNat % pow2 52

def significand (x : Binary64) : Nat :=
  if x.exponentBits = 0 then x.fractionBits else pow2 52 + x.fractionBits

def exponent (x : Binary64) : Int :=
  if x.exponentBits = 0 then -1074 else (x.exponentBits : Int) - 1075

def isZero (x : Binary64) : Bool := x.significand == 0

/-- The numerator and the denominator of the magnitude. -/
def ratio (x : Binary64) : Nat × Nat :=
  match x.exponent with
  | .ofNat q => (x.significand * pow2 q, 1)
  | .negSucc q => (x.significand, pow2 (q + 1))

def withSign (negative : Bool) (magnitude : Nat) : Binary64 :=
  ⟨UInt64.ofNat (if negative then pow2 63 + magnitude else magnitude)⟩

def zero (negative : Bool) : Binary64 := withSign negative 0

def neg (x : Binary64) : Binary64 := withSign (!x.isNegative) (x.bits.toNat % pow2 63)

/-- The integer nearest to `num / den`, a tie going to the even one. -/
def roundDiv (num den : Nat) : Nat :=
  let low := num / den
  let twice := 2 * (num % den)
  if den < twice || (twice == den && low % 2 == 1) then low + 1 else low

/-- Numerator and denominator of `num / den` divided by a power of two. -/
def unscale (num den : Nat) : Int → Nat × Nat
  | .ofNat q => (num, den * pow2 q)
  | .negSucc q => (num * pow2 (q + 1), den)

/-- The number nearest to `num / den`, with the given sign; nothing when it is out of range. -/
def ofRatio? (negative : Bool) (num den : Nat) : Option Binary64 :=
  if num = 0 || den = 0 then some (zero negative)
  else
    let guess := max ((Nat.log2 num : Int) - Nat.log2 den - 53) (-1074)
    let wide := unscale num den guess
    let q := if pow2 53 ≤ wide.1 / wide.2 then guess + 1 else guess
    let scaled := unscale num den q
    let m := roundDiv scaled.1 scaled.2
    let magnitude := if m < pow2 52 then m else (q + 1075).toNat * pow2 52 + (m - pow2 52)
    if magnitude < 2047 * pow2 52 then some (withSign negative magnitude) else none

def ofNat? (n : Nat) : Option Binary64 := ofRatio? false n 1

/-- The rounded product of the magnitudes. -/
def mul? (x y : Binary64) : Option Binary64 :=
  ofRatio? false (x.ratio.1 * y.ratio.1) (x.ratio.2 * y.ratio.2)

/-- The rounded quotient of the magnitudes. -/
def div? (x y : Binary64) : Option Binary64 :=
  ofRatio? false (x.ratio.1 * y.ratio.2) (x.ratio.2 * y.ratio.1)

/-- The number nearest to `digits * 10 ^ exponent`; nothing when it is out of range. -/
def ofDecimal? (negative : Bool) (digits : Nat) (exponent : Int) : Option Binary64 :=
  if digits = 0 then some (zero negative)
  else
    let leading := exponent + (Nat.toDigits 10 digits).length
    if 310 < leading then none
    else if leading < -330 then some (zero negative)
    else
      match exponent with
      | .ofNat e => ofRatio? negative (digits * pow10 e) 1
      | .negSucc e => ofRatio? negative digits (pow10 (e + 1))

/-- Whether a number has no fraction. -/
def isIntegral (x : Binary64) : Bool := x.ratio.1 % x.ratio.2 == 0

end Binary64

end OntoSchema
