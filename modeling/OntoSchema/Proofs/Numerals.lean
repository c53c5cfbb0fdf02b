import Mathlib.Algebra.Group.Nat.Defs
import Mathlib.Data.List.TakeWhile
import OntoSchema.SchemaNode.Annotated
import OntoSchema.SchemaNode.Instance

/-!
# Texts that read as values of several types

An integer keeps its value when it is read as a floating point number up to rounding, and rounding
leaves an integer without a fraction (`Binary64.isIntegral_of_ofRatio?`). So a text that reads as a
value of two types reads as a value that both of them admit: `SchemaType.admits_of_parse?`.
-/

namespace OntoSchema

theorem pow2_eq (n : Nat) : pow2 n = 2 ^ n := rfl

namespace Binary64

section Fields

variable {magnitude : Nat} (negative : Bool)

theorem toNat_withSign (h : magnitude < 2047 * 2 ^ 52) :
    (withSign negative magnitude).bits.toNat =
      if negative then 2 ^ 63 + magnitude else magnitude := by
  change (if negative then 2 ^ 63 + magnitude else magnitude) % 2 ^ 64 = _
  apply Nat.mod_eq_of_lt
  split <;> omega

theorem exponentBits_withSign (h : magnitude < 2047 * 2 ^ 52) :
    (withSign negative magnitude).exponentBits = magnitude / 2 ^ 52 := by
  unfold exponentBits
  rw [toNat_withSign negative h, pow2_eq, pow2_eq]
  split <;> omega

theorem fractionBits_withSign (h : magnitude < 2047 * 2 ^ 52) :
    (withSign negative magnitude).fractionBits = magnitude % 2 ^ 52 := by
  unfold fractionBits
  rw [toNat_withSign negative h, pow2_eq]
  split <;> omega

end Fields

section Integral

variable {x : Binary64} {num den : Nat} {negative : Bool}

/-- A number with a large exponent has no fraction. -/
theorem isIntegral_of_exponentBits (h : 1075 ≤ x.exponentBits) : x.isIntegral = true := by
  have hexponent : x.exponent = Int.ofNat (x.exponentBits - 1075) := by
    unfold exponent
    rw [if_neg (by omega), Int.ofNat_eq_natCast]
    omega
  unfold isIntegral ratio
  rw [hexponent]
  exact beq_iff_eq.2 (Nat.mod_one _)

/-- A number has no fraction if its significand makes up for its exponent. -/
theorem isIntegral_of_dvd {shift : Nat} (hshift : x.exponentBits + (shift + 1) = 1075)
    (hnormal : x.exponentBits ≠ 0) (h : 2 ^ (shift + 1) ∣ x.significand) :
    x.isIntegral = true := by
  have hexponent : x.exponent = Int.negSucc shift := by
    unfold exponent
    rw [if_neg hnormal]
    omega
  unfold isIntegral ratio
  rw [hexponent]
  exact beq_iff_eq.2 (Nat.mod_eq_zero_of_dvd h)

theorem le_roundDiv (num den : Nat) : num / den ≤ roundDiv num den := by
  unfold roundDiv
  dsimp only
  split <;> omega

theorem roundDiv_one (num : Nat) : roundDiv num 1 = num := by
  simp [roundDiv, Nat.mod_one]

/-- Dividing by a power of two takes away as many binary digits. -/
theorem le_unscale {digits : Nat} {q : Int} (h : num ≠ 0) (hq : (num.log2 : Int) = digits + q) :
    2 ^ digits ≤ (unscale num 1 q).1 / (unscale num 1 q).2 := by
  have hlow : 2 ^ num.log2 ≤ num := Nat.log2_self_le h
  cases q with
  | ofNat shift =>
    rw [Int.ofNat_eq_natCast] at hq
    have hdigits : num.log2 = digits + shift := by omega
    rw [hdigits, Nat.pow_add] at hlow
    change 2 ^ digits ≤ num / (1 * 2 ^ shift)
    rw [Nat.one_mul]
    exact (Nat.le_div_iff_mul_le (Nat.two_pow_pos shift)).2 hlow
  | negSucc shift =>
    have hdigits : digits = num.log2 + (shift + 1) := by omega
    change 2 ^ digits ≤ num * 2 ^ (shift + 1) / 1
    rw [Nat.div_one, hdigits, Nat.pow_add]
    exact Nat.mul_le_mul_right _ hlow

/-- An integer is scaled so that its significand has 53 binary digits. -/
theorem ofRatio?_one (h : num ≠ 0) : ofRatio? negative num 1 =
    let scaled := unscale num 1 ((num.log2 : Int) - 52)
    let m := roundDiv scaled.1 scaled.2
    let magnitude := if m < pow2 52 then m
      else ((num.log2 : Int) - 52 + 1075).toNat * pow2 52 + (m - pow2 52)
    if magnitude < 2047 * pow2 52 then some (withSign negative magnitude) else none := by
  have hguess : max ((num.log2 : Int) - Nat.log2 1 - 53) (-1074) = (num.log2 : Int) - 53 := by
    have hone : Nat.log2 1 = 0 := by decide
    rw [hone]
    omega
  have hwide : pow2 53 ≤ (unscale num 1 ((num.log2 : Int) - 53)).1 /
      (unscale num 1 ((num.log2 : Int) - 53)).2 := le_unscale h (by omega)
  have hnext : (num.log2 : Int) - 53 + 1 = (num.log2 : Int) - 52 := by omega
  unfold ofRatio?
  rw [if_neg (by simp [h]), hguess]
  dsimp only
  rw [if_pos hwide, hnext]

theorem isIntegral_zero (negative : Bool) : (zero negative).isIntegral = true := by
  cases negative <;> decide +kernel

/-- An integer of at most 52 binary digits is exact, and its significand has zeros at the end. -/
theorem isIntegral_of_small {shift m : Nat} (hshift : num.log2 + (shift + 1) = 52)
    (hm : m = num * 2 ^ (shift + 1)) (hnormal : 2 ^ 52 ≤ m) :
    (withSign negative ((num.log2 + 1023) * 2 ^ 52 + (m - 2 ^ 52))).isIntegral = true := by
  have hhigh : num < 2 ^ (num.log2 + 1) := Nat.lt_log2_self
  have hshort : m < 2 ^ 53 := by
    have hsum : 53 = num.log2 + 1 + (shift + 1) := by omega
    rw [hm, hsum, Nat.pow_add 2 (num.log2 + 1)]
    exact Nat.mul_lt_mul_of_pos_right hhigh (Nat.two_pow_pos _)
  have hrange : (num.log2 + 1023) * 2 ^ 52 + (m - 2 ^ 52) < 2047 * 2 ^ 52 := by omega
  have hexponent := exponentBits_withSign negative hrange
  have hfraction := fractionBits_withSign negative hrange
  have hbits : ((num.log2 + 1023) * 2 ^ 52 + (m - 2 ^ 52)) / 2 ^ 52 = num.log2 + 1023 := by omega
  have hrest : ((num.log2 + 1023) * 2 ^ 52 + (m - 2 ^ 52)) % 2 ^ 52 = m - 2 ^ 52 := by omega
  rw [hbits] at hexponent
  rw [hrest] at hfraction
  have hne : (withSign negative ((num.log2 + 1023) * 2 ^ 52 + (m - 2 ^ 52))).exponentBits ≠ 0 := by
    omega
  have hsum : (withSign negative ((num.log2 + 1023) * 2 ^ 52 + (m - 2 ^ 52))).exponentBits +
      (shift + 1) = 1075 := by omega
  refine isIntegral_of_dvd hsum hne ?_
  unfold significand
  rw [if_neg hne, hfraction, pow2_eq, Nat.add_sub_cancel' hnormal, hm]
  exact Nat.dvd_mul_left _ _

/-- An integer rounds to a number without a fraction. -/
theorem isIntegral_of_ofRatio? (h : ofRatio? negative num 1 = some x) : x.isIntegral = true := by
  by_cases hzero : num = 0
  · subst hzero
    obtain rfl := Option.some.inj h
    exact isIntegral_zero negative
  have hwide : 2 ^ 52 ≤ (unscale num 1 ((num.log2 : Int) - 52)).1 /
      (unscale num 1 ((num.log2 : Int) - 52)).2 := le_unscale hzero (by omega)
  have hm := Nat.le_trans hwide (le_roundDiv _ _)
  rw [ofRatio?_one hzero] at h
  dsimp only at h
  rw [pow2_eq, if_neg (Nat.not_lt.2 hm)] at h
  split at h
  · rename_i hrange
    obtain rfl := Option.some.inj h
    by_cases hlarge : 52 ≤ num.log2
    · apply isIntegral_of_exponentBits
      rw [exponentBits_withSign negative hrange]
      omega
    · -- Below that size nothing is rounded.
      obtain ⟨shift, hshift⟩ : ∃ shift, num.log2 + (shift + 1) = 52 := ⟨51 - num.log2, by omega⟩
      have hq : (num.log2 : Int) - 52 = Int.negSucc shift := by omega
      have hexact : roundDiv (unscale num 1 ((num.log2 : Int) - 52)).1
          (unscale num 1 ((num.log2 : Int) - 52)).2 = num * 2 ^ (shift + 1) := by
        rw [hq]
        exact roundDiv_one _
      have hexponent : ((num.log2 : Int) - 52 + 1075).toNat = num.log2 + 1023 := by omega
      rw [hexact] at hm
      rw [hexact, hexponent]
      exact isIntegral_of_small hshift rfl hm
  · cases h

theorem isIntegral_of_ofDecimal? {digits : Nat} (h : ofDecimal? negative digits 0 = some x) :
    x.isIntegral = true := by
  unfold ofDecimal? at h
  split at h
  · obtain rfl := Option.some.inj h
    exact isIntegral_zero negative
  · dsimp only at h
    split at h
    · cases h
    · split at h
      · obtain rfl := Option.some.inj h
        exact isIntegral_zero negative
      · exact isIntegral_of_ofRatio? h

end Integral

end Binary64

namespace Text

variable {text : String} {n : Int}

/-- The numeral of an integer has no point and no exponent. -/
theorem real?_of_integer? (h : integer? text = some n) :
    ∃ negative digits, real? text = Binary64.ofDecimal? negative digits 0 := by
  unfold integer? at h
  unfold real?
  generalize splitSign text.toList = signed at h ⊢
  obtain ⟨negative, chars⟩ := signed
  dsimp only at h ⊢
  obtain ⟨magnitude, hmagnitude, _⟩ := Option.bind_eq_some_iff.1 h
  obtain ⟨hne, hall⟩ : chars ≠ [] ∧ chars.all Char.isDigit = true := by
    unfold natural? at hmagnitude
    split at hmagnitude
    · assumption
    · cases hmagnitude
  have htake : chars.takeWhile Char.isDigit = chars :=
    List.takeWhile_eq_self_iff.2 (List.all_eq_true.1 hall)
  have hdrop : chars.dropWhile Char.isDigit = [] :=
    List.dropWhile_eq_nil_iff.2 (List.all_eq_true.1 hall)
  refine ⟨negative, decimalValue chars, ?_⟩
  rw [htake, hdrop]
  dsimp only
  rw [List.append_nil, if_neg hne]
  rfl

end Text

namespace SchemaType

variable {text : String} {value : Json}

/-- Truth values are no numerals. -/
theorem parse?_of_boolean (h : (boolean.parse? text).isSome) :
    Text.integer? text = none ∧ Text.real? text = none := by
  rw [parse?] at h
  split at h
  · rename_i htrue
    subst htrue
    exact ⟨by decide, by decide⟩
  · split at h
    · rename_i hfalse
      subst hfalse
      exact ⟨by decide, by decide⟩
    · cases h

/-- A text that reads as a value of two types reads for the one as a value of the other. -/
theorem admits_of_parse? {earlier type : SchemaType} (hearlier : earlier.parse? text = some value)
    (htype : (type.parse? text).isSome) : type.admits value = true := by
  cases earlier with
  | integer =>
    rw [parse?] at hearlier
    obtain ⟨n, hn, rfl⟩ := Option.map_eq_some_iff.1 hearlier
    cases type with
    | integer | number => rfl
    | boolean =>
      rw [(parse?_of_boolean htype).1] at hn
      cases hn
    | object | array | string => cases htype
  | number =>
    rw [parse?] at hearlier
    obtain ⟨x, hx, rfl⟩ := Option.map_eq_some_iff.1 hearlier
    cases type with
    | integer =>
      rw [parse?, Option.isSome_map] at htype
      obtain ⟨n, hn⟩ := Option.isSome_iff_exists.1 htype
      obtain ⟨negative, digits, hreal⟩ := Text.real?_of_integer? hn
      exact Binary64.isIntegral_of_ofDecimal? (hreal.symm.trans hx)
    | number => rfl
    | boolean =>
      rw [(parse?_of_boolean htype).2] at hx
      cases hx
    | object | array | string => cases htype
  | boolean =>
    obtain ⟨hinteger, hreal⟩ := parse?_of_boolean (Option.isSome_of_mem hearlier)
    cases type with
    | integer =>
      rw [parse?, hinteger] at htype
      cases htype
    | number =>
      rw [parse?, hreal] at htype
      cases htype
    | boolean =>
      rw [parse?] at hearlier
      split at hearlier
      · obtain rfl := Option.some.inj hearlier
        rfl
      · split at hearlier
        · obtain rfl := Option.some.inj hearlier
          rfl
        · cases hearlier
    | object | array | string => cases htype
  | object | array | string => cases hearlier

end SchemaType

end OntoSchema
