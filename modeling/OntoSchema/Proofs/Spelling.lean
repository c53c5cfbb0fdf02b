import Mathlib.Data.List.TakeWhile
import OntoSchema.Text.Blank
import OntoSchema.Text.Lowercase

/-!
# Texts that differ in blanks and in the case of ASCII letters

Trimming removes what stands around a text, and lowering makes no difference between the two cases
of an ASCII letter: neither of the letter itself, nor of a sigma that looks for letters around it.
`Char.toLower` changes the capital letters of ASCII and nothing else, so two texts that it makes
equal differ in the case of ASCII letters at most.
-/

namespace OntoSchema.Text

/-- The capital letters of ASCII. -/
def capitals : List Char := (List.range' 65 26).map Char.ofNat

theorem mem_capitals_of_toLower_ne {c : Char} (h : c.toLower ≠ c) : c ∈ capitals := by
  unfold Char.toLower at h
  split at h
  · rename_i hcapital
    have hlower : 65 ≤ c.toNat := UInt32.le_iff_toNat_le.1 hcapital.1
    have hupper : c.toNat ≤ 90 := UInt32.le_iff_toNat_le.1 hcapital.2
    refine List.mem_map.2 ⟨c.toNat, List.mem_range'_1.2 ?_, Char.ofNat_toNat c⟩
    omega
  · exact absurd rfl h

/-- What does not tell a capital letter from its lower case does not depend on the case at all. -/
theorem eq_of_toLower {β : Type} [DecidableEq β] {property : Char → β}
    (h : (capitals.all fun c => property c.toLower = property c) = true) (c : Char) :
    property c.toLower = property c := by
  by_cases hc : c.toLower = c
  · rw [hc]
  · exact of_decide_eq_true (List.all_eq_true.1 h c (mem_capitals_of_toLower_ne hc))

theorem isBlank_toLower (c : Char) : isBlank c.toLower = isBlank c :=
  eq_of_toLower (by decide +kernel) c

theorem isCased_toLower (c : Char) : isCased c.toLower = isCased c :=
  eq_of_toLower (by decide +kernel) c

theorem isCaseIgnorable_toLower (c : Char) : isCaseIgnorable c.toLower = isCaseIgnorable c :=
  eq_of_toLower (by decide +kernel) c

theorem lowerChar_toLower (c : Char) : lowerChar c.toLower = lowerChar c :=
  eq_of_toLower (by decide +kernel) c

theorem toLower_eq_sigma_iff (c : Char) : c.toLower = 'Σ' ↔ c = 'Σ' := by
  have hsame : decide (c.toLower = 'Σ') = decide (c = 'Σ') :=
    @eq_of_toLower Bool _ (fun c => decide (c = 'Σ')) (by decide +kernel) c
  rwa [decide_eq_decide] at hsame

theorem startsCased_map_toLower (chars : List Char) :
    startsCased (chars.map Char.toLower) = startsCased chars := by
  have hignorable : isCaseIgnorable ∘ Char.toLower = isCaseIgnorable :=
    funext isCaseIgnorable_toLower
  unfold startsCased
  rw [List.dropWhile_map, hignorable]
  cases chars.dropWhile isCaseIgnorable with
  | nil => rfl
  | cons c rest => exact isCased_toLower c

/-- Lowering a text looks at no case of an ASCII letter, in the text or before it. -/
theorem lowerAfter_map_toLower (before chars : List Char) :
    lowerAfter (before.map Char.toLower) (chars.map Char.toLower) = lowerAfter before chars := by
  induction chars generalizing before with
  | nil => rfl
  | cons c rest ih =>
    have hrest := ih (c :: before)
    rw [List.map_cons] at hrest
    rw [List.map_cons, lowerAfter, lowerAfter, hrest]
    simp only [toLower_eq_sigma_iff, lowerChar_toLower, startsCased_map_toLower]

section Trimming

variable {drop : Char → Bool}

theorem trimList_map {change : Char → Char} (h : ∀ c, drop (change c) = drop c)
    (chars : List Char) : trimList drop (chars.map change) = (trimList drop chars).map change := by
  have hdrop : drop ∘ change = drop := funext h
  unfold trimList
  rw [List.dropWhile_map, hdrop, ← List.map_reverse, List.dropWhile_map, hdrop, List.map_reverse]

/-- What is dropped at the ends makes no difference there. -/
theorem trimList_padded {before after : List Char} (hbefore : ∀ c ∈ before, drop c = true)
    (hafter : ∀ c ∈ after, drop c = true) (chars : List Char) :
    trimList drop (before ++ chars ++ after) = trimList drop chars := by
  have hreverse : ∀ c ∈ after.reverse, drop c = true := fun c hc =>
    hafter c (List.mem_reverse.1 hc)
  unfold trimList
  rw [List.append_assoc, List.dropWhile_append_of_pos hbefore, List.dropWhile_append]
  split
  · rename_i hempty
    rw [List.isEmpty_iff.1 hempty, List.dropWhile_eq_nil_iff.2 hafter]
  · rw [List.reverse_append, List.dropWhile_append_of_pos hreverse]

end Trimming

theorem trim_padded {before after : String} (hbefore : ∀ c ∈ before.toList, isBlank c = true)
    (hafter : ∀ c ∈ after.toList, isBlank c = true) (text : String) :
    trim (before ++ text ++ after) = trim text := by
  unfold trim trimWhere
  rw [String.toList_append, String.toList_append, trimList_padded hbefore hafter]

/-- Texts that differ in the case of ASCII letters have the same lower case once they are
trimmed. -/
theorem lowercase_trim_of_recased {first second : String}
    (h : first.toList.map Char.toLower = second.toList.map Char.toLower) :
    lowercase (trim first) = lowercase (trim second) := by
  have hlower : ∀ text : String, lowercase (trim text) =
      String.ofList (lowerAfter [] (trimList isBlank (text.toList.map Char.toLower))) := by
    intro text
    unfold lowercase trim trimWhere
    rw [String.toList_ofList, trimList_map isBlank_toLower]
    exact congrArg String.ofList (lowerAfter_map_toLower [] _).symm
  rw [hlower, hlower, h]

end OntoSchema.Text
