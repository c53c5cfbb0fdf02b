import Mathlib.Data.List.Infix
import OntoSchema.Markdown
import OntoSchema.Proofs.Entries

/-!
# Rows of documentation tables

A reader cuts a line at the pipes that no backslash escapes (`splitCells`) and undoes the escapes in
every cell (`unescape`); `IsRow` says that it finds one row of a target and a text. What is written
for an entry reads as its target and its text just when these avoid a few characters and pairs of
characters: `rendered_row_iff`.
-/

namespace OntoSchema.MarkdownTables

/-- Cuts a line at the pipes that have an even number of backslashes directly before them. The
number says how many backslashes stand directly before the line. -/
def splitCells : (slashes : Nat) → List Char → List (List Char)
  | _, [] => [[]]
  | slashes, c :: rest =>
    if c = '|' ∧ slashes % 2 = 0 then [] :: splitCells 0 rest
    else (splitCells (if c = '\\' then slashes + 1 else 0) rest).modifyHead (c :: ·)

/-- Escaped backslashes and pipes stand for themselves; any other backslash stays. -/
def unescape : List Char → List Char
  | '\\' :: '\\' :: rest => '\\' :: unescape rest
  | '\\' :: '|' :: rest => '|' :: unescape rest
  | c :: rest => c :: unescape rest
  | [] => []

/-- A text with blanks for its line breaks. -/
def flatten (text : List Char) : List Char :=
  text.map fun c => if c = '\n' ∨ c = '\r' then ' ' else c

/-- A cell has a blank at either end. -/
def pad (cell : List Char) : List Char := ' ' :: (cell ++ [' '])

/-- A line is one row of a table with two cells, which read as a target and a text. Both cells are
read alike, although targets are written as they are: a reader of the table cannot tell which
columns were escaped. -/
structure IsRow (line target text : List Char) : Prop where
  unbroken : '\n' ∉ line ∧ '\r' ∉ line
  cells : ∃ first second, splitCells 0 line = [[], pad first, pad second, []] ∧
    unescape first = target ∧ unescape second = text

/-- A target has neither pipes, nor line breaks, nor two backslashes in a row. -/
def FitsTarget (target : List Char) : Prop :=
  '\n' ∉ target ∧ '\r' ∉ target ∧ '|' ∉ target ∧ ¬ ['\\', '\\'] <:+: target

/-- A text has no carriage returns, and no backslash directly before a backslash or a pipe. -/
def FitsText (text : List Char) : Prop :=
  '\r' ∉ text ∧ ¬ ['\\', '\\'] <:+: text ∧ ¬ ['\\', '|'] <:+: text

section Cutting

variable {slashes : Nat} {c : Char} {rest cell : List Char}

theorem splitCells_ne_nil (slashes : Nat) (line : List Char) : splitCells slashes line ≠ [] := by
  induction line generalizing slashes with
  | nil => exact List.cons_ne_nil _ _
  | cons c rest ih =>
    rw [splitCells]
    split
    · exact List.cons_ne_nil _ _
    · rw [ne_eq, List.modifyHead_eq_nil_iff]
      exact ih _

/-- A line stays whole if it is cut nowhere. -/
theorem splitCells_cons_eq_iff : splitCells slashes (c :: rest) = [c :: rest] ↔
    ¬ (c = '|' ∧ slashes % 2 = 0) ∧
      splitCells (if c = '\\' then slashes + 1 else 0) rest = [rest] := by
  rw [splitCells]
  split
  · rename_i hcut
    simp [hcut]
  · rename_i hcut
    rw [and_iff_right hcut]
    cases hcells : splitCells (if c = '\\' then slashes + 1 else 0) rest with
    | nil => exact absurd hcells (splitCells_ne_nil _ _)
    | cons first others => simp

theorem eq_of_splitCells (h : splitCells slashes rest = [cell]) : cell = rest := by
  induction rest generalizing slashes cell with
  | nil => exact (List.cons.inj h).1.symm
  | cons c rest ih =>
    rw [splitCells] at h
    split at h
    · exact absurd (List.cons.inj h).2 (splitCells_ne_nil _ _)
    · cases hcells : splitCells (if c = '\\' then slashes + 1 else 0) rest with
      | nil => exact absurd hcells (splitCells_ne_nil _ _)
      | cons first others =>
        rw [hcells] at h
        obtain ⟨rfl, rfl⟩ := List.cons.inj h
        rw [ih hcells]

/-- A pipe behind a blank cuts the line. -/
theorem splitCells_append (slashes : Nat) (cell rest : List Char) :
    splitCells slashes (cell ++ ' ' :: '|' :: rest) =
      splitCells slashes (cell ++ [' ']) ++ splitCells 0 rest := by
  induction cell generalizing slashes with
  | nil => simp [splitCells]
  | cons c cell ih =>
    rw [List.cons_append, List.cons_append, splitCells, splitCells]
    split
    · rw [ih, List.cons_append]
    · rw [ih]
      cases hcells : splitCells (if c = '\\' then slashes + 1 else 0) (cell ++ [' ']) with
      | nil => exact absurd hcells (splitCells_ne_nil _ _)
      | cons first others => rfl

theorem splitCells_concat_blank :
    splitCells slashes (cell ++ [' ']) = [cell ++ [' ']] ↔ splitCells slashes cell = [cell] := by
  induction cell generalizing slashes with
  | nil => simp [splitCells]
  | cons c cell ih => rw [List.cons_append, splitCells_cons_eq_iff, splitCells_cons_eq_iff, ih]

theorem splitCells_pad : splitCells 0 (pad cell) = [pad cell] ↔ splitCells 0 cell = [cell] := by
  rw [pad, splitCells_cons_eq_iff, splitCells_concat_blank]
  simp

end Cutting

section Reading

/-- A cell is not cut and reads as a value. -/
def Reads (cell value : List Char) : Prop := splitCells 0 cell = [cell] ∧ unescape cell = value

variable {c d e : Char} {cell value rest : List Char}

theorem unescape_of_ne (h : c ≠ '\\') : unescape (c :: rest) = c :: unescape rest := by
  rw [unescape]
  · rintro _ rfl
    exact absurd rfl h
  · rintro _ rfl
    exact absurd rfl h

/-- A backslash stays before anything but a backslash or a pipe. -/
theorem unescape_slash (h : ∀ d ∈ rest.head?, d ≠ '\\' ∧ d ≠ '|') :
    unescape ('\\' :: rest) = '\\' :: unescape rest := by
  rw [unescape]
  · rintro other - rfl
    exact absurd rfl (h '\\' rfl).1
  · rintro other - rfl
    exact absurd rfl (h '|' rfl).2

/-- Where no escape is read, its two characters do not begin the cell. -/
theorem not_pair_prefix (h : ∀ others, c = d → rest = e :: others → False) :
    ¬ [d, e] <+: c :: rest := by
  rintro ⟨others, hothers⟩
  obtain ⟨hfirst, hrest⟩ := List.cons.inj hothers
  exact h others hfirst.symm hrest.symm

theorem length_unescape_le (chars : List Char) : (unescape chars).length ≤ chars.length := by
  fun_induction unescape chars with
  | case1 rest ih => simp only [List.length_cons]; omega
  | case2 rest ih => simp only [List.length_cons]; omega
  | case3 c rest _ _ ih => simp only [List.length_cons]; omega
  | case4 => exact Nat.le_refl _

/-- A character that is no pipe and begins no escape reads as itself. -/
theorem reads_cons_iff (hpipe : c ≠ '|')
    (hslash : c = '\\' → ∀ next ∈ cell.head?, next ≠ '\\' ∧ next ≠ '|') :
    Reads (c :: cell) (d :: value) ↔ c = d ∧ Reads cell value := by
  have hvalue : unescape (c :: cell) = c :: unescape cell := by
    by_cases hc : c = '\\'
    · subst hc
      exact unescape_slash (hslash rfl)
    · exact unescape_of_ne hc
  have hwhole : splitCells 0 (c :: cell) = [c :: cell] ↔ splitCells 0 cell = [cell] := by
    rw [splitCells_cons_eq_iff]
    by_cases hc : c = '\\'
    · -- Behind the backslash stands a character that neither cuts nor counts.
      cases cell with
      | nil => simp [splitCells, hpipe]
      | cons next cell =>
        obtain ⟨hback, hbar⟩ := hslash hc next rfl
        rw [splitCells_cons_eq_iff, splitCells_cons_eq_iff]
        simp [hpipe, hback, hbar]
    · simp [hpipe, hc]
  unfold Reads
  rw [hvalue, hwhole, List.cons.injEq, and_left_comm]

theorem not_reads_pipe : ¬ Reads ('|' :: cell) value := by
  rintro ⟨hwhole, _⟩
  exact (splitCells_cons_eq_iff.1 hwhole).1 ⟨rfl, rfl⟩

theorem reads_escaped_pipe_iff :
    Reads ('\\' :: '|' :: cell) ('|' :: value) ↔ Reads cell value := by
  unfold Reads
  rw [splitCells_cons_eq_iff, splitCells_cons_eq_iff, unescape]
  simp

/-- Of two backslashes one is lost, so a value that is as long cannot be read. -/
theorem not_reads_slashes (h : (unescape cell).length ≤ value.length) :
    ¬ Reads ('\\' :: '\\' :: cell) ('\\' :: '\\' :: value) := by
  rintro ⟨_, hvalue⟩
  have hlength := congrArg List.length hvalue
  simp only [unescape, List.length_cons] at hlength
  omega

/-- The second backslash takes the first one away from the pipe. -/
theorem not_reads_slashes_pipe : ¬ Reads ('\\' :: '\\' :: '|' :: cell) value := by
  rintro ⟨hwhole, _⟩
  rw [splitCells_cons_eq_iff, splitCells_cons_eq_iff, splitCells_cons_eq_iff] at hwhole
  simp at hwhole

end Reading

section Targets

variable {target : List Char}

/-- A target is written as it is. -/
theorem reads_self_iff : Reads target target ↔ '|' ∉ target ∧ ¬ ['\\', '\\'] <:+: target := by
  fun_induction unescape target with
  | case1 rest _ =>
    refine iff_of_false (not_reads_slashes (length_unescape_le rest)) fun h => h.2 ?_
    exact List.IsPrefix.isInfix ⟨rest, rfl⟩
  | case2 rest _ =>
    refine iff_of_false (fun h => ?_) fun h => h.1 (by simp)
    have hvalue := h.2
    rw [unescape] at hvalue
    exact absurd (List.cons.inj hvalue).1 (by decide)
  | case3 c rest hslash hpipe ih =>
    by_cases hc : c = '|'
    · subst hc
      exact iff_of_false not_reads_pipe fun h => h.1 List.mem_cons_self
    · have hnext : c = '\\' → ∀ next ∈ rest.head?, next ≠ '\\' ∧ next ≠ '|' := by
        rintro rfl next hn
        obtain ⟨others, rfl⟩ := List.head?_eq_some_iff.1 hn
        exact ⟨fun h => hslash others rfl (by rw [h]), fun h => hpipe others rfl (by rw [h])⟩
      have hstart : ¬ ['\\', '\\'] <+: c :: rest := not_pair_prefix hslash
      rw [reads_cons_iff hc hnext, ih, and_iff_right rfl, List.mem_cons, List.infix_cons_iff,
        not_or, not_or, and_iff_right (Ne.symm hc), and_iff_right hstart]
  | case4 => exact iff_of_true ⟨rfl, rfl⟩ (by simp)

end Targets

section Texts

/-- What is written for a text. -/
def escaped (text : List Char) : List Char :=
  text.flatMap fun c => if c = '|' then ['\\', '|'] else if c = '\n' then [' '] else [c]

theorem toList_escapeCell (text : String) :
    (escapeCell text).toList = escaped text.toList :=
  String.toList_ofList

variable {c : Char} {rest text : List Char}

theorem escaped_pipe (rest : List Char) :
    escaped ('|' :: rest) = '\\' :: '|' :: escaped rest := rfl

theorem escaped_break (rest : List Char) : escaped ('\n' :: rest) = ' ' :: escaped rest := rfl

theorem escaped_other (hpipe : c ≠ '|') (hbreak : c ≠ '\n') :
    escaped (c :: rest) = c :: escaped rest := by
  simp [escaped, hpipe, hbreak]

/-- No line feed is written, and carriage returns stay. -/
theorem unbroken_escaped_iff :
    ('\n' ∉ escaped text ∧ '\r' ∉ escaped text) ↔ '\r' ∉ text := by
  induction text with
  | nil => exact iff_of_true ⟨List.not_mem_nil, List.not_mem_nil⟩ List.not_mem_nil
  | cons c rest ih =>
    by_cases hpipe : c = '|'
    · subst hpipe
      simpa [escaped_pipe] using ih
    by_cases hbreak : c = '\n'
    · subst hbreak
      simpa [escaped_break] using ih
    · rw [escaped_other hpipe hbreak, List.mem_cons, List.mem_cons, List.mem_cons, not_or, not_or,
        not_or, and_iff_right (Ne.symm hbreak), and_left_comm, ih]

/-- What is read is no longer than the text, also behind a backslash. -/
theorem length_unescape_escaped_le (text : List Char) :
    (unescape (escaped text)).length ≤ text.length ∧
      (unescape ('\\' :: escaped text)).length ≤ text.length + 1 := by
  induction text with
  | nil => decide
  | cons c rest ih =>
    obtain ⟨hplain, hbehind⟩ := ih
    -- A backslash before any other character adds that character and itself.
    have hother : ∀ d : Char, d ≠ '\\' → d ≠ '|' →
        (unescape (d :: escaped rest)).length ≤ rest.length + 1 ∧
          (unescape ('\\' :: d :: escaped rest)).length ≤ rest.length + 1 + 1 := by
      intro d hback hbar
      have hnext : ∀ next ∈ (d :: escaped rest).head?, next ≠ '\\' ∧ next ≠ '|' := by
        rintro next ⟨⟩
        exact ⟨hback, hbar⟩
      rw [unescape_slash hnext, unescape_of_ne hback, List.length_cons, List.length_cons]
      exact ⟨Nat.succ_le_succ hplain, Nat.succ_le_succ (Nat.succ_le_succ hplain)⟩
    by_cases hpipe : c = '|'
    · subst hpipe
      have hbar : unescape ('|' :: escaped rest) = '|' :: unescape (escaped rest) :=
        unescape_of_ne (by decide)
      rw [escaped_pipe, unescape, unescape, hbar]
      simp only [List.length_cons]
      omega
    by_cases hbreak : c = '\n'
    · subst hbreak
      exact hother ' ' (by decide) (by decide)
    rw [escaped_other hpipe hbreak]
    by_cases hslash : c = '\\'
    · subst hslash
      rw [unescape, List.length_cons, List.length_cons]
      omega
    · exact hother c hslash hpipe

theorem reads_escaped_iff : Reads (escaped text) (flatten text) ↔ FitsText text := by
  fun_induction unescape text with
  | case1 rest _ =>
    refine iff_of_false (not_reads_slashes ?_) fun h => h.2.1 (List.IsPrefix.isInfix ⟨rest, rfl⟩)
    exact ((length_unescape_escaped_le rest).1).trans (List.length_map _).ge
  | case2 rest _ =>
    exact iff_of_false not_reads_slashes_pipe fun h => h.2.2 (List.IsPrefix.isInfix ⟨rest, rfl⟩)
  | case3 c rest hslash hpipe ih =>
    -- No forbidden pair begins here, so only a carriage return can spoil the text.
    have hfits : FitsText (c :: rest) ↔ c ≠ '\r' ∧ FitsText rest := by
      have hback : ¬ ['\\', '\\'] <+: c :: rest := not_pair_prefix hslash
      have hbar : ¬ ['\\', '|'] <+: c :: rest := not_pair_prefix hpipe
      unfold FitsText
      rw [List.mem_cons, List.infix_cons_iff, List.infix_cons_iff, not_or, not_or, not_or,
        and_iff_right hback, and_iff_right hbar, and_assoc, ne_comm]
    rw [hfits, ← ih]
    by_cases hc : c = '|'
    · subst hc
      rw [and_iff_right (by decide)]
      exact reads_escaped_pipe_iff
    by_cases hbreak : c = '\n'
    · subst hbreak
      have hblank : ' ' = '\\' → ∀ next ∈ (escaped rest).head?, next ≠ '\\' ∧ next ≠ '|' :=
        fun h => absurd h (by decide)
      have hflat : flatten ('\n' :: rest) = ' ' :: flatten rest := rfl
      rw [escaped_break, hflat, reads_cons_iff (by decide) hblank]
      exact and_congr_left fun _ => iff_of_true rfl (by decide)
    have hnext : c = '\\' → ∀ next ∈ (escaped rest).head?, next ≠ '\\' ∧ next ≠ '|' := by
      rintro rfl next hn
      cases rest with
      | nil => cases hn
      | cons d others =>
        have hback : d ≠ '\\' := fun h => hslash others rfl (by rw [h])
        have hbar : d ≠ '|' := fun h => hpipe others rfl (by rw [h])
        by_cases hd : d = '\n'
        · subst hd
          obtain rfl : ' ' = next := Option.some.inj hn
          decide
        · rw [escaped_other hbar hd] at hn
          obtain rfl : d = next := Option.some.inj hn
          exact ⟨hback, hbar⟩
    rw [escaped_other hc hbreak]
    refine (reads_cons_iff hc hnext).trans (and_congr_left fun _ => ?_)
    by_cases hreturn : c = '\r' <;> simp [hbreak, hreturn]
  | case4 => exact iff_of_true ⟨rfl, rfl⟩ (by simp [FitsText])

end Texts

section Rows

variable {first second target text : List Char}

theorem splitCells_pad_append (cell rest : List Char) :
    splitCells 0 (pad cell ++ '|' :: rest) = splitCells 0 (pad cell) ++ splitCells 0 rest := by
  have hline : pad cell ++ '|' :: rest = (' ' :: cell) ++ ' ' :: '|' :: rest := by simp [pad]
  rw [hline, splitCells_append]
  rfl

/-- Two pieces come from two lists only one by one. -/
theorem eq_singletons {α : Type*} {left right : List α} {a b : α} (hleft : left ≠ [])
    (hright : right ≠ []) (h : left ++ right = [a, b]) : left = [a] ∧ right = [b] := by
  obtain ⟨c, left, rfl⟩ := List.exists_cons_of_ne_nil hleft
  rw [List.cons_append] at h
  obtain ⟨rfl, hrest⟩ := List.cons.inj h
  obtain ⟨rfl, hone⟩ | ⟨-, hnone⟩ := List.append_eq_singleton_iff.1 hrest
  · exact ⟨rfl, hone⟩
  · exact absurd hnone hright

theorem pad_injective : Function.Injective pad := fun _ _ h =>
  List.append_cancel_right (List.cons.inj h).2

/-- A line with two cells is a row just when both of them read as they should. -/
theorem isRow_iff : IsRow ('|' :: (pad first ++ '|' :: (pad second ++ ['|']))) target text ↔
    (('\n' ∉ first ∧ '\r' ∉ first) ∧ Reads first target) ∧
      ('\n' ∉ second ∧ '\r' ∉ second) ∧ Reads second text := by
  have hcells : splitCells 0 ('|' :: (pad first ++ '|' :: (pad second ++ ['|']))) =
      [] :: (splitCells 0 (pad first) ++ (splitCells 0 (pad second) ++ [[]])) := by
    have hcut : ∀ rest, splitCells 0 ('|' :: rest) = [] :: splitCells 0 rest := fun _ => rfl
    rw [hcut, splitCells_pad_append, splitCells_pad_append]
    rfl
  have hunbroken : ∀ d : Char, d ≠ '|' → d ≠ ' ' →
      (d ∉ '|' :: (pad first ++ '|' :: (pad second ++ ['|'])) ↔ d ∉ first ∧ d ∉ second) := by
    intro d hbar hblank
    simp [pad, hbar, hblank]
  constructor
  · rintro ⟨⟨hfeed, hreturn⟩, one, other, hpieces, hfirst, hsecond⟩
    rw [hcells, ← List.append_assoc] at hpieces
    have hboth : (splitCells 0 (pad first) ++ splitCells 0 (pad second)) ++ [[]] =
        [pad one, pad other] ++ [[]] := (List.cons.inj hpieces).2
    obtain ⟨hone, hother⟩ := eq_singletons (splitCells_ne_nil _ _) (splitCells_ne_nil _ _)
      (List.append_cancel_right hboth)
    obtain rfl := pad_injective (eq_of_splitCells hone)
    obtain rfl := pad_injective (eq_of_splitCells hother)
    rw [hunbroken _ (by decide) (by decide)] at hfeed hreturn
    exact ⟨⟨⟨hfeed.1, hreturn.1⟩, splitCells_pad.1 hone, hfirst⟩,
      ⟨hfeed.2, hreturn.2⟩, splitCells_pad.1 hother, hsecond⟩
  · rintro ⟨⟨hfirst, hone, htarget⟩, hsecond, hother, htext⟩
    refine ⟨⟨?_, ?_⟩, first, second, ?_, htarget, htext⟩
    · exact (hunbroken _ (by decide) (by decide)).2 ⟨hfirst.1, hsecond.1⟩
    · exact (hunbroken _ (by decide) (by decide)).2 ⟨hfirst.2, hsecond.2⟩
    · rw [hcells, splitCells_pad.2 hone, splitCells_pad.2 hother]
      rfl

/-- The line of an entry. -/
def rowLine (target text : List Char) : List Char :=
  '|' :: (pad target ++ '|' :: (pad (escaped text) ++ ['|']))

theorem toList_row (target text : String) :
    (row target text).toList = rowLine target.toList text.toList ++ ['\n'] := by
  have hbars : "| ".toList = ['|', ' '] ∧ " | ".toList = [' ', '|', ' '] ∧
      " |\n".toList = [' ', '|', '\n'] := by decide
  obtain ⟨hleft, hmiddle, hright⟩ := hbars
  unfold row rowLine pad
  simp only [String.toList_append, toList_escapeCell, hleft, hmiddle, hright, List.append_assoc,
    List.cons_append, List.nil_append]

theorem isRow_rowLine_iff :
    IsRow (rowLine target text) target (flatten text) ↔ FitsTarget target ∧ FitsText text := by
  have hreturn : FitsText text → '\r' ∉ text := fun h => h.1
  unfold rowLine FitsTarget
  rw [isRow_iff, reads_self_iff, unbroken_escaped_iff, reads_escaped_iff,
    and_iff_right_of_imp hreturn, and_assoc (a := '\n' ∉ target)]

end Rows

section Documents

variable {tables : MarkdownTables} {roles : AnnotationRoles} {table : NameMap String}
  {target text : String}

/-- Every text of a list is a part of what joins the list. -/
theorem exists_eq_intercalate (separator : String) {texts : List String} {text : String}
    (h : text ∈ texts) :
    ∃ before after, String.intercalate separator texts = before ++ text ++ after := by
  induction texts with
  | nil => cases h
  | cons first rest ih =>
    cases rest with
    | nil =>
      obtain rfl := List.mem_singleton.1 h
      exact ⟨"", "", by rw [String.intercalate_singleton, String.empty_append, String.append_empty]⟩
    | cons second rest =>
      rw [String.intercalate_cons_cons]
      rcases List.mem_cons.1 h with rfl | hrest
      · exact ⟨"", separator ++ String.intercalate separator (second :: rest), by
          rw [String.empty_append, String.append_assoc]⟩
      · obtain ⟨before, after, heq⟩ := ih hrest
        exact ⟨first ++ separator ++ before, after, by rw [heq]; simp only [String.append_assoc]⟩

/-- Some entry of every configured annotation is the first one. -/
theorem exists_firstSections {sections : List MarkdownSection} {entry : MarkdownSection}
    {seen : List String} (h : entry ∈ sections) (hseen : entry.source ∉ seen) :
    ∃ other ∈ firstSections seen sections, other.source = entry.source := by
  induction sections generalizing seen with
  | nil => cases h
  | cons first rest ih =>
    rw [firstSections]
    split
    · rename_i hknown
      rcases List.mem_cons.1 h with rfl | hrest
      · exact absurd (List.contains_iff_mem.1 hknown) hseen
      · exact ih hrest hseen
    · by_cases hfirst : first.source = entry.source
      · exact ⟨first, List.mem_cons_self, hfirst⟩
      · have hrest : entry ∈ rest :=
          (List.mem_cons.1 h).resolve_left fun heq => hfirst (by rw [heq])
        have hfresh : entry.source ∉ first.source :: seen := fun hm =>
          (List.mem_cons.1 hm).elim (fun heq => hfirst heq.symm) hseen
        obtain ⟨other, hm, hother⟩ := ih hrest hfresh
        exact ⟨other, List.mem_cons_of_mem _ hm, hother⟩

/-- Rows end their lines, so behind a line break and some rows a line begins. -/
theorem getLast?_rows {start : String} (hstart : start.toList.getLast? = some '\n')
    (entries : List (String × String)) :
    (start ++ String.join (entries.map fun (target, text) => row target text)).toList.getLast? =
      some '\n' := by
  induction entries generalizing start with
  | nil => rwa [List.map_nil, String.join_nil, String.append_empty]
  | cons entry rest ih =>
    rw [List.map_cons, String.join_cons, ← String.append_assoc]
    apply ih
    rw [String.toList_append, toList_row, ← List.append_assoc, List.getLast?_concat]

/-- The section of a table has a line for every entry. -/
theorem exists_line_sectionText (entry : MarkdownSection) (h : table.get? target = some text) :
    ∃ before after, sectionText entry table = before ++ row target text ++ after ∧
      before.toList.getLast? = some '\n' := by
  obtain ⟨first, rest, hentries⟩ := List.append_of_mem (Entries.mem_of_get? h)
  have hhead : (("## " ++ entry.heading ++ "\n\n" ++
      (if entry.description = "" then "" else entry.description ++ "\n\n")) ++
        tableHead).toList.getLast? = some '\n' := by
    rw [String.toList_append, List.getLast?_append]
    rfl
  refine ⟨_, String.join (rest.map fun (target, text) => row target text), ?_,
    getLast?_rows hhead first⟩
  unfold sectionText
  rw [hentries, List.map_append, List.map_cons, String.join_append, String.join_cons]
  simp only [String.append_assoc]

theorem exists_line_render {entry : MarkdownSection} (hentry : entry ∈ roles.markdown)
    (htext : (tables.table entry.source).get? target = some text) :
    ∃ before after, tables.render roles = before ++ row target text ++ after ∧
      before.toList.getLast? = some '\n' := by
  obtain ⟨other, hother, hsource⟩ := exists_firstSections hentry (List.not_mem_nil (a := _))
  rw [← hsource] at htext
  have hsome : (tables.table other.source).isEmpty = false := by
    cases hentries : (tables.table other.source).entries with
    | nil => rw [NameMap.get?, hentries] at htext; cases htext
    | cons => rw [NameMap.isEmpty, hentries]; rfl
  have hm : sectionText other (tables.table other.source) ∈
      (firstSections [] roles.markdown).filterMap fun entry =>
        let table := tables.table entry.source
        if table.isEmpty then none else some (sectionText entry table) :=
    List.mem_filterMap.2 ⟨other, hother, by simp [hsome]⟩
  obtain ⟨before, after, hdocument⟩ := exists_eq_intercalate "\n" hm
  obtain ⟨first, rest, hsection, hlast⟩ := exists_line_sectionText other htext
  refine ⟨before ++ first, rest ++ after, ?_, ?_⟩
  · unfold render
    rw [hdocument, hsection]
    simp only [String.append_assoc]
  · rw [String.toList_append, List.getLast?_append, hlast]
    rfl

/-- Every entry of a configured annotation is written at the beginning of a line of the document,
up to the end of a line. It is one row, and reads as its target and its text, exactly if the target
has neither pipes nor line breaks nor two backslashes in a row and the text has no carriage returns
and no backslash before a backslash or a pipe. -/
theorem rendered_row_iff {entry : MarkdownSection} (hentry : entry ∈ roles.markdown)
    (htext : (tables.table entry.source).get? target = some text) :
    ∃ before line after, (tables.render roles).toList = before ++ line ++ '\n' :: after ∧
      before.getLast? = some '\n' ∧ (row target text).toList = line ++ ['\n'] ∧
      (IsRow line target.toList (flatten text.toList) ↔
        FitsTarget target.toList ∧ FitsText text.toList) := by
  obtain ⟨before, after, hdocument, hlast⟩ := exists_line_render hentry htext
  refine ⟨before.toList, rowLine target.toList text.toList, after.toList, ?_, hlast,
    toList_row target text, isRow_rowLine_iff⟩
  rw [hdocument, String.toList_append, String.toList_append, toList_row]
  simp only [List.append_assoc, List.cons_append, List.nil_append]

/-- Notes have a section of the document. -/
def notes : AnnotationRoles := { markdown := [{ source := "note", heading := "Notes" }] }

/-- A note on a property. -/
def ages : MarkdownTables :=
  .ofList [("note", .ofList [("Person#age", "Years | months\nin full")])]

/-- A text may have pipes and line feeds. -/
theorem rendered_row_age :
    ∃ before line after, (ages.render notes).toList = before ++ line ++ '\n' :: after ∧
      before.getLast? = some '\n' ∧
      IsRow line "Person#age".toList "Years | months in full".toList := by
  have hentry : { source := "note", heading := "Notes" } ∈ notes.markdown := List.mem_cons_self
  have htext : (ages.table "note").get? "Person#age" = some "Years | months\nin full" := by
    decide +kernel
  obtain ⟨before, line, after, hdocument, hlast, _, hrow⟩ := rendered_row_iff hentry htext
  have hfits : FitsTarget "Person#age".toList ∧ FitsText "Years | months\nin full".toList := by
    unfold FitsTarget FitsText
    decide +kernel
  exact ⟨before, line, after, hdocument, hlast, hrow.2 hfits⟩

/-- Notes on targets and with texts that do not fit. -/
def pairs : MarkdownTables :=
  .ofList [("note", .ofList [("Break", "one\rtwo"), ("Left|Right", "a pair"),
    ("Pair", "left \\| right")])]

/-- A pipe in a target begins a cell, a backslash takes the escape away from a pipe, and a carriage
return ends a line. -/
theorem pairs_break :
    pairs.render notes = "## Notes\n\n| Name | Description |\n|------|-------------|\n" ++
        "| Break | one\rtwo |\n| Left|Right | a pair |\n| Pair | left \\\\| right |\n" ∧
      ¬ IsRow "| Break | one\rtwo |".toList "Break".toList (flatten "one\rtwo".toList) ∧
      ¬ IsRow "| Left|Right | a pair |".toList "Left|Right".toList (flatten "a pair".toList) ∧
      ¬ IsRow "| Pair | left \\\\| right |".toList "Pair".toList
        (flatten "left \\| right".toList) := by
  have hline : ∀ target text line : String, rowLine target.toList text.toList = line.toList →
      ¬ (FitsTarget target.toList ∧ FitsText text.toList) →
        ¬ IsRow line.toList target.toList (flatten text.toList) := fun _ _ _ heq hfits hrow =>
    hfits (isRow_rowLine_iff.1 (heq ▸ hrow))
  refine ⟨by decide +kernel, hline "Break" "one\rtwo" _ (by decide) fun h => h.2.1 (by decide),
    hline "Left|Right" "a pair" _ (by decide) fun h => h.1.2.2.1 (by decide),
    hline "Pair" "left \\| right" _ (by decide) fun h => h.2.2.2 (by decide)⟩

end Documents

end OntoSchema.MarkdownTables
