import OntoSchema.Inflector

/-!
# English plurals and singulars settle at once

A plural ends in `s`, and a word that does is its own plural. A singular is `Settled`: it does not
end in `s`, is `s`, or ends in `ss`, `us` or `is`, and the settled words are those that are their
own singulars. So no form changes when it is taken again, and no word disappears
(`english_idempotent`).
-/

namespace OntoSchema.Inflector

/-- The plural of a plural is the plural itself. -/
def PluralizesOnce (inflector : Inflector) : Prop :=
  ∀ word, inflector.pluralize (inflector.pluralize word) = inflector.pluralize word

/-- A word ends in some text. -/
def EndsIn (word ending : String) : Prop := ∃ stem, word = stem ++ ending

section Reversed

variable {word : List Char}

theorem reversedPlural_of_ends_in_s (stem : List Char) :
    reversedPlural ('s' :: stem) = 's' :: stem := rfl

theorem reversedPlural_cases (word : List Char) :
    reversedPlural word = [] ∧ word = [] ∨ ∃ stem, reversedPlural word = 's' :: stem := by
  unfold reversedPlural
  split
  · exact .inl ⟨rfl, rfl⟩
  · exact .inr ⟨_, rfl⟩
  · split
    · exact .inr ⟨_, rfl⟩
    · split <;> exact .inr ⟨_, rfl⟩

theorem reversedPlural_eq_self_iff :
    reversedPlural word = word ↔ word = [] ∨ ∃ stem, word = 's' :: stem := by
  constructor
  · intro hself
    rcases reversedPlural_cases word with ⟨_, hnil⟩ | hends
    · exact .inl hnil
    · exact .inr (hself ▸ hends)
  · rintro (rfl | ⟨stem, rfl⟩)
    · rfl
    · exact reversedPlural_of_ends_in_s stem

theorem reversedPlural_reversedPlural (word : List Char) :
    reversedPlural (reversedPlural word) = reversedPlural word :=
  reversedPlural_eq_self_iff.2 ((reversedPlural_cases word).imp And.left id)

theorem reversedPlural_eq_nil_iff : reversedPlural word = [] ↔ word = [] := by
  constructor
  · intro hnil
    rcases reversedPlural_cases word with ⟨_, h⟩ | ⟨stem, hends⟩
    · exact h
    · exact absurd (hends.symm.trans hnil) (List.cons_ne_nil _ _)
  · rintro rfl
    rfl

/-- A reversed word does not end in `s`, is `s`, or ends in `ss`, `us` or `is`. -/
def Settled : List Char → Prop
  | 's' :: c :: _ => c = 's' ∨ c = 'u' ∨ c = 'i'
  | _ => True

theorem settled_cases : Settled word ↔ (¬ ∃ stem, word = 's' :: stem) ∨ word = ['s'] ∨
    (∃ stem, word = 's' :: 's' :: stem) ∨ (∃ stem, word = 's' :: 'u' :: stem) ∨
      ∃ stem, word = 's' :: 'i' :: stem := by
  unfold Settled
  split
  · simp
  · rename_i hother
    match word with
    | [] => simp
    | [c] => by_cases hc : c = 's' <;> simp [hc]
    | c :: d :: stem =>
      have hc : c ≠ 's' := fun hc => hother d stem (by rw [hc])
      simp [hc]

theorem settled_of_head_ne {c : Char} (h : c ≠ 's') (rest : List Char) : Settled (c :: rest) := by
  unfold Settled
  split
  · rename_i hword
    exact absurd (List.cons.inj hword).1 h
  · trivial

theorem exists_of_takesEs (h : takesEs word = true) : ∃ c rest, word = c :: rest ∧ c ≠ 's' := by
  unfold takesEs at h
  split at h
  · exact ⟨_, _, rfl, by decide⟩
  · exact ⟨_, _, rfl, by decide⟩
  · exact ⟨_, _, rfl, by decide⟩
  · exact ⟨_, _, rfl, by decide⟩
  · cases h

/-- Every rule leads to a settled word. -/
theorem settled_reversedSingular (word : List Char) : Settled (reversedSingular word) := by
  fun_cases reversedSingular word with
  | case1 c rest => exact settled_of_head_ne (by decide) _
  | case2 rest => exact .inl rfl
  | case3 rest => exact .inl rfl
  | case4 rest => exact .inr (.inl rfl)
  | case5 rest => exact .inr (.inr rfl)
  | case6 stem _ _ hes =>
    obtain ⟨c, rest, rfl, hc⟩ := exists_of_takesEs hes
    exact settled_of_head_ne hc rest
  | case7 stem => exact settled_of_head_ne (by decide) _
  | case8 c rest _ _ hs => exact settled_of_head_ne hs rest
  | case9 word _ _ _ _ _ _ hother =>
    unfold Settled
    split
    · exact (hother _ _ rfl).elim
    · trivial

theorem not_settled_es (rest : List Char) : ¬ Settled ('s' :: 'e' :: rest) := by
  rintro (h | h | h) <;> exact absurd h (by decide)

/-- The rules that change a word do not apply to settled ones. -/
theorem reversedSingular_of_settled (h : Settled word) : reversedSingular word = word := by
  fun_cases reversedSingular word with
  | case1 c rest => exact absurd h (not_settled_es _)
  | case2 rest => exact absurd h (not_settled_es _)
  | case6 stem => exact absurd h (not_settled_es _)
  | case7 stem => exact absurd h (not_settled_es _)
  | case8 c rest _ _ hs hu hi =>
    rcases h with h | h | h
    · exact (hs h).elim
    · exact (hu h).elim
    · exact (hi h).elim
  | _ => rfl

theorem reversedSingular_eq_self_iff : reversedSingular word = word ↔ Settled word :=
  ⟨fun hself => hself ▸ settled_reversedSingular word, reversedSingular_of_settled⟩

theorem reversedSingular_reversedSingular (word : List Char) :
    reversedSingular (reversedSingular word) = reversedSingular word :=
  reversedSingular_of_settled (settled_reversedSingular word)

theorem reversedSingular_eq_nil_iff : reversedSingular word = [] ↔ word = [] := by
  fun_cases reversedSingular word with
  | case6 stem _ _ hes =>
    obtain ⟨_, _, rfl, _⟩ := exists_of_takesEs hes
    simp
  | case9 => exact Iff.rfl
  | _ => simp

end Reversed

section Words

variable {change : List Char → List Char} {word other ending : String}

theorem onReversed_eq_iff :
    onReversed change word = other ↔ change word.toList.reverse = other.toList.reverse := by
  unfold onReversed
  rw [← String.toList_inj, String.toList_ofList, List.reverse_eq_iff]

theorem onReversed_onReversed (h : ∀ characters, change (change characters) = change characters)
    (word : String) : onReversed change (onReversed change word) = onReversed change word := by
  rw [onReversed_eq_iff]
  unfold onReversed
  rw [String.toList_ofList, List.reverse_reverse, h]

theorem endsIn_iff :
    EndsIn word ending ↔ ∃ rest, word.toList.reverse = ending.toList.reverse ++ rest := by
  constructor
  · rintro ⟨stem, rfl⟩
    exact ⟨stem.toList.reverse, by rw [String.toList_append, List.reverse_append]⟩
  · rintro ⟨rest, hrest⟩
    refine ⟨String.ofList rest.reverse, String.toList_inj.1 ?_⟩
    rw [String.toList_append, String.toList_ofList, List.reverse_eq_iff.1 hrest,
      List.reverse_append, List.reverse_reverse]

theorem settled_iff : Settled word.toList.reverse ↔
    ¬ EndsIn word "s" ∨ word = "s" ∨ EndsIn word "ss" ∨ EndsIn word "us" ∨ EndsIn word "is" := by
  have hs : word = "s" ↔ word.toList.reverse = ['s'] := by
    rw [← String.toList_inj, List.reverse_eq_iff]
    exact Iff.rfl
  rw [settled_cases, hs, @endsIn_iff word "s", @endsIn_iff word "ss", @endsIn_iff word "us",
    @endsIn_iff word "is"]
  exact Iff.rfl

end Words

theorem pluralizesOnce_english : english.PluralizesOnce :=
  onReversed_onReversed reversedPlural_reversedPlural

/-- Plurals and singulars of all words settle at once, and only the empty word has empty ones. The
words that are their own plurals are those in `s`; those that are their own singulars end in another
character or in `ss`, `us` or `is`, or are `s`. -/
theorem english_idempotent (word : String) :
    english.pluralize (english.pluralize word) = english.pluralize word ∧
      english.singularize (english.singularize word) = english.singularize word ∧
      (english.pluralize word = "" ↔ word = "") ∧ (english.singularize word = "" ↔ word = "") ∧
      (english.pluralize word = word ↔ word = "" ∨ EndsIn word "s") ∧
      (english.singularize word = word ↔ ¬ EndsIn word "s" ∨ word = "s" ∨ EndsIn word "ss" ∨
        EndsIn word "us" ∨ EndsIn word "is") := by
  have hnil : ("" : String).toList.reverse = [] := rfl
  have hempty : word.toList.reverse = [] ↔ word = "" := by
    rw [List.reverse_eq_nil_iff, String.toList_eq_nil_iff]
  refine ⟨pluralizesOnce_english word, onReversed_onReversed reversedSingular_reversedSingular word,
    ?_, ?_, ?_, ?_⟩
  · exact onReversed_eq_iff.trans (reversedPlural_eq_nil_iff.trans hempty)
  · exact onReversed_eq_iff.trans (reversedSingular_eq_nil_iff.trans hempty)
  · refine onReversed_eq_iff.trans (reversedPlural_eq_self_iff.trans (or_congr hempty ?_))
    exact (@endsIn_iff word "s").symm
  · exact onReversed_eq_iff.trans (reversedSingular_eq_self_iff.trans settled_iff)

end OntoSchema.Inflector
