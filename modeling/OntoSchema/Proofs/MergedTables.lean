import OntoSchema.Markdown
import OntoSchema.Proofs.Entries

/-!
# Merged tables

A merge looks for a text in the second collection first. So merging is associative, and recording
entries is merging with the tables that these entries make on their own (`recordAll_eq_merge`). Of
many collections that are merged in order, the last one with a text for a target has its way
(`text?_foldl_merge_eq_some_iff`), and no table is lost (`contains_foldl_merge`).
-/

namespace OntoSchema

namespace MarkdownTables

/-- The text for a target in the table of an annotation. -/
def text? (tables : MarkdownTables) (source target : String) : Option String :=
  (tables.table source).get? target

/-- A merge joins the tables that the second collection has to those of the first. -/
theorem get?_merge (first second : MarkdownTables) (source : String) :
    (first.merge second).get? source =
      ((second.get? source).map (first.table source).union).or (first.get? source) := by
  obtain ⟨entries, ordered⟩ := second
  have hget : NameMap.get? ⟨entries, ordered⟩ source = Entries.get? source entries := rfl
  rw [hget]
  unfold merge
  clear hget
  induction entries generalizing first with
  | nil => rfl
  | cons entry rest ih =>
    obtain ⟨key, table⟩ := entry
    have hc := List.pairwise_cons.1 ordered
    have ih' := ih (first.insert key ((first.table key).union table)) hc.2
    simp only [List.foldl_cons, MarkdownTables.table] at ih' ⊢
    rw [ih', NameMap.get?_insert, Entries.get?_cons]
    by_cases hk : key = source
    · subst hk
      rw [Entries.get?_eq_none_of_lt hc.1]
      simp
    · simp [hk]

theorem table_merge (first second : MarkdownTables) (source : String) :
    (first.merge second).table source = (first.table source).union (second.table source) := by
  unfold MarkdownTables.table
  rw [get?_merge]
  cases second.get? source with
  | none => exact (NameMap.union_empty _).symm
  | some table => rfl

/-- Where both collections have a text, the one of the second stays. -/
theorem text?_merge (first second : MarkdownTables) (source target : String) :
    (first.merge second).text? source target =
      (second.text? source target).or (first.text? source target) := by
  unfold text?
  rw [table_merge, NameMap.get?_union]

theorem merge_empty (tables : MarkdownTables) : tables.merge ∅ = tables := rfl

theorem empty_merge (tables : MarkdownTables) : merge ∅ tables = tables := by
  refine NameMap.ext_get? fun source => ?_
  have htable : (∅ : MarkdownTables).table source = ∅ := rfl
  rw [get?_merge, htable, NameMap.get?_empty, Option.or_none]
  cases tables.get? source with
  | none => rfl
  | some table => exact congrArg some (NameMap.empty_union table)

theorem merge_assoc (first second third : MarkdownTables) :
    (first.merge second).merge third = first.merge (second.merge third) := by
  refine NameMap.ext_get? fun source => ?_
  rw [get?_merge, get?_merge first, get?_merge first, get?_merge second, table_merge]
  unfold MarkdownTables.table
  cases third.get? source with
  | none => rfl
  | some table =>
    cases second.get? source with
    | none => simp
    | some other => simp [NameMap.union_assoc]

theorem merge_self (tables : MarkdownTables) : tables.merge tables = tables := by
  refine NameMap.ext_get? fun source => ?_
  rw [get?_merge]
  unfold MarkdownTables.table
  cases tables.get? source with
  | none => rfl
  | some table => exact congrArg some (NameMap.union_self table)

/-- An entry by itself is a collection with one text. -/
theorem record_eq_merge (tables : MarkdownTables) (entry : MarkdownEntry) :
    tables.record entry = tables.merge (record ∅ entry) := rfl

theorem recordAll_eq_merge (tables : MarkdownTables) (entries : List MarkdownEntry) :
    tables.recordAll entries = tables.merge (recordAll ∅ entries) := by
  have hcons : ∀ (tables : MarkdownTables) (entry : MarkdownEntry) (rest : List MarkdownEntry),
      tables.recordAll (entry :: rest) = (tables.record entry).recordAll rest := fun _ _ _ => rfl
  induction entries generalizing tables with
  | nil => exact (merge_empty tables).symm
  | cons entry rest ih =>
    calc tables.recordAll (entry :: rest)
        = (tables.record entry).merge (recordAll ∅ rest) := by rw [hcons, ih]
      _ = tables.merge ((record ∅ entry).merge (recordAll ∅ rest)) := by
          rw [record_eq_merge, merge_assoc]
      _ = tables.merge (recordAll ∅ (entry :: rest)) := by rw [← ih, ← hcons]

theorem recordAll_recordAll (tables : MarkdownTables) (entries : List MarkdownEntry) :
    (tables.recordAll entries).recordAll entries = tables.recordAll entries := by
  rw [recordAll_eq_merge (tables.recordAll entries), recordAll_eq_merge tables, merge_assoc,
    merge_self]

/-- A merge has the tables of both collections. -/
theorem contains_merge (first second : MarkdownTables) (source : String) :
    (first.merge second).contains source = true ↔
      first.contains source = true ∨ second.contains source = true := by
  unfold NameMap.contains
  rw [get?_merge]
  cases second.get? source <;> simp

section Fold

variable {collections : List MarkdownTables} {source target text : String}

/-- The last collection with a text for a target has this one. -/
def LastText (collections : List MarkdownTables) (source target text : String) : Prop :=
  ∃ before tables after, collections = before ++ tables :: after ∧
    tables.text? source target = some text ∧
    ∀ later ∈ after, later.text? source target = none

theorem lastText_iff : LastText collections source target text ↔
    collections.reverse.findSome? (·.text? source target) = some text := by
  rw [List.findSome?_eq_some_iff]
  constructor
  · rintro ⟨before, tables, after, rfl, htext, hnone⟩
    exact ⟨after.reverse, tables, before.reverse, by simp, htext, by simpa using hnone⟩
  · rintro ⟨after, tables, before, hsplit, htext, hnone⟩
    refine ⟨before.reverse, tables, after.reverse, ?_, htext, by simpa using hnone⟩
    rw [← List.reverse_reverse collections, hsplit]
    simp

/-- A search through merged collections begins with the last one. -/
theorem text?_foldl_merge (collections : List MarkdownTables) (tables : MarkdownTables)
    (source target : String) : (collections.foldl merge tables).text? source target =
      (collections.reverse.findSome? (·.text? source target)).or (tables.text? source target) := by
  induction collections generalizing tables with
  | nil => rfl
  | cons first rest ih =>
    rw [List.foldl_cons, ih, text?_merge, List.reverse_cons, List.findSome?_append,
      List.findSome?_singleton, Option.or_assoc]

theorem text?_foldl_merge_eq_some_iff :
    (collections.foldl merge ∅).text? source target = some text ↔
      LastText collections source target text := by
  have hempty : text? ∅ source target = none := rfl
  rw [text?_foldl_merge, hempty, Option.or_none, lastText_iff]

theorem contains_foldl_merge (tables : MarkdownTables) :
    (collections.foldl merge tables).contains source = true ↔
      tables.contains source = true ∨ ∃ other ∈ collections, other.contains source = true := by
  induction collections generalizing tables with
  | nil => simp
  | cons first rest ih =>
    simp only [List.foldl_cons, ih, contains_merge, or_assoc, List.mem_cons, exists_eq_or_imp]

end Fold

end MarkdownTables

end OntoSchema
