import Mathlib.Data.List.Nodup
import OntoSchema.Entries

/-!
# Names and members of entry lists

What the operations on entries do to the names of a list and to its members. Entries under distinct
names survive `Entries.ofList` as they are, up to their order.
-/

namespace OntoSchema.Entries

universe u
variable {α : Type u} {entries : List (String × α)}

theorem mem_names_insert {name wanted : String} {value : α} :
    wanted ∈ names (insert name value entries) ↔ wanted = name ∨ wanted ∈ names entries := by
  rw [mem_names_iff, mem_names_iff, get?_insert]
  by_cases h : name = wanted
  · simp [h]
  · simp [h, Ne.symm h]

theorem mem_names_erase {name wanted : String} :
    wanted ∈ names (erase name entries) ↔ wanted ∈ names entries ∧ wanted ≠ name := by
  rw [mem_names_iff, mem_names_iff, get?_erase]
  by_cases h : name = wanted
  · simp [h]
  · simp [h, Ne.symm h]

theorem contains_iff {name : String} : contains name entries = true ↔ name ∈ names entries :=
  (mem_names_iff name entries).symm

theorem mem_names_of_mem {entry : String × α} (h : entry ∈ entries) : entry.1 ∈ names entries :=
  List.mem_map_of_mem h

theorem mem_of_get? {name : String} {value : α} (h : get? name entries = some value) :
    (name, value) ∈ entries := by
  induction entries with
  | nil => cases h
  | cons entry rest ih =>
    obtain ⟨key, old⟩ := entry
    rw [get?_cons] at h
    split at h
    · rename_i hk
      subst hk
      rw [Option.some.inj h]
      exact List.mem_cons_self
    · exact List.mem_cons_of_mem _ (ih h)

theorem mem_erase {name : String} {entry : String × α} (h : entry ∈ erase name entries) :
    entry ∈ entries :=
  (List.mem_filter.1 h).1

theorem mem_modify {name : String} {change : α → α} {entry : String × α}
    (h : entry ∈ modify name change entries) :
    entry ∈ entries ∨ ∃ old, (name, old) ∈ entries ∧ entry = (name, change old) := by
  induction entries with
  | nil => cases h
  | cons first rest ih =>
    obtain ⟨key, old⟩ := first
    unfold modify at h
    split at h
    · rename_i hk
      subst hk
      rcases List.mem_cons.1 h with rfl | h
      · exact .inr ⟨old, List.mem_cons_self, rfl⟩
      · exact .inl (List.mem_cons_of_mem _ h)
    · rcases List.mem_cons.1 h with rfl | h
      · exact .inl List.mem_cons_self
      · rcases ih h with h | ⟨value, hmem, rfl⟩
        · exact .inl (List.mem_cons_of_mem _ h)
        · exact .inr ⟨value, List.mem_cons_of_mem _ hmem, rfl⟩

theorem mapValues_eq_self {change : String → α → α}
    (h : ∀ entry ∈ entries, change entry.1 entry.2 = entry.2) :
    mapValues change entries = entries := by
  have hall : ∀ entry ∈ entries, (entry.1, change entry.1 entry.2) = entry := fun entry hm => by
    rw [h entry hm]
  exact (List.map_congr_left hall).trans (List.map_id' entries)

theorem nodup_names (h : Ordered entries) : (names entries).Nodup :=
  (ordered_iff_names.1 h).imp (S := (· ≠ ·)) fun hlt heq => String.lt_irrefl _ (heq ▸ hlt)

/-- A name stands for one value. -/
theorem value_unique (h : Ordered entries) {name : String} {first second : α}
    (hfirst : (name, first) ∈ entries) (hsecond : (name, second) ∈ entries) : first = second :=
  congrArg Prod.snd (List.inj_on_of_nodup_map (nodup_names h) hfirst hsecond rfl)

theorem get?_eq_some_iff (h : Ordered entries) {name : String} {value : α} :
    get? name entries = some value ↔ (name, value) ∈ entries := by
  refine ⟨mem_of_get?, fun hm => ?_⟩
  have hsome := (mem_names_iff name entries).1 (mem_names_of_mem hm)
  obtain ⟨found, hfound⟩ := Option.isSome_iff_exists.1 hsome
  rw [hfound, value_unique h (mem_of_get? hfound) hm]

theorem get?_eq_lookup (name : String) (entries : List (String × α)) :
    get? name entries = entries.lookup name := by
  induction entries with
  | nil => rfl
  | cons entry rest ih =>
    obtain ⟨key, value⟩ := entry
    rw [get?_cons, List.lookup_cons, ih]
    by_cases hkey : key = name
    · simp [hkey]
    · rw [if_neg hkey, beq_eq_false_iff_ne.2 (Ne.symm hkey)]

theorem insert_perm {name : String} (value : α) (h : name ∉ names entries) :
    (insert name value entries).Perm ((name, value) :: entries) := by
  induction entries with
  | nil => exact .refl _
  | cons entry rest ih =>
    obtain ⟨key, old⟩ := entry
    have hrest : name ∉ names rest := fun hm => h (List.mem_cons_of_mem _ hm)
    have hkey : name ≠ key := fun he => h (he ▸ List.mem_cons_self)
    unfold insert
    split
    · exact .refl _
    · exact ((ih hrest).cons _).trans (.swap _ _ _)

theorem foldl_insert_perm {found : List (String × α)} (h : (names (found ++ entries)).Nodup) :
    (entries.foldl (fun found entry => insert entry.1 entry.2 found) found).Perm
      (found ++ entries) := by
  induction entries generalizing found with
  | nil => rw [List.append_nil]; exact .refl _
  | cons entry rest ih =>
    have hmiddle : (found ++ entry :: rest).Perm (entry :: found ++ rest) := List.perm_middle
    have hnew : entry.1 ∉ names found := by
      have hnodup : (names (entry :: found ++ rest)).Nodup := (hmiddle.map _).nodup_iff.1 h
      intro hm
      rw [names, List.cons_append, List.map_cons, List.nodup_cons, List.map_append] at hnodup
      exact hnodup.1 (List.mem_append.2 (.inl hm))
    have hinsert := (insert_perm entry.2 hnew).append_right rest
    have hnodup : (names (insert entry.1 entry.2 found ++ rest)).Nodup :=
      ((hinsert.trans hmiddle.symm).map _).nodup_iff.2 h
    exact (ih hnodup).trans (hinsert.trans hmiddle.symm)

theorem mem_names_ofList {wanted : String} :
    wanted ∈ names (ofList entries) ↔ wanted ∈ names entries := by
  suffices hfold : ∀ found : List (String × α),
      wanted ∈ names (entries.foldl (fun found entry => insert entry.1 entry.2 found) found) ↔
        wanted ∈ names found ∨ wanted ∈ names entries from
    (hfold []).trans (or_iff_right List.not_mem_nil)
  induction entries with
  | nil => exact fun found => (or_iff_left List.not_mem_nil).symm
  | cons entry rest ih =>
    intro found
    have hnames : wanted ∈ names (entry :: rest) ↔ wanted = entry.1 ∨ wanted ∈ names rest :=
      List.mem_cons
    rw [List.foldl_cons, ih, mem_names_insert, hnames, or_right_comm, or_comm]

theorem ofList_perm (h : (names entries).Nodup) : (ofList entries).Perm entries :=
  foldl_insert_perm (List.nil_append entries ▸ h)

theorem ofList_eq_self (h : Ordered entries) : ofList entries = entries :=
  (ofList_perm (nodup_names h)).eq_of_pairwise
    (fun _ _ _ _ hlt hgt => absurd hgt (String.lt_asymm hlt)) (ordered_ofList entries) h

end OntoSchema.Entries
