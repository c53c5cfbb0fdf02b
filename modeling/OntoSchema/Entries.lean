/-!
# Named entries in ascending order

`Entries.insert` and `Entries.erase` keep a list of named values in strictly ascending order of
its names, so such a list is a finite map. The statements below describe both operations through
`Entries.get?`, and `Entries.ext` says that an ordered list is determined by what `get?` finds.
-/

namespace OntoSchema.Entries

universe u v
variable {α : Type u} {β : Type v}

/-- Names ascend strictly, in the order of their code points. -/
def Ordered (entries : List (String × α)) : Prop :=
  entries.Pairwise (fun a b => a.1 < b.1)

def names (entries : List (String × α)) : List String :=
  entries.map Prod.fst

/-- The first value under a name. -/
def get? (name : String) : List (String × α) → Option α
  | [] => none
  | (key, value) :: rest => if key = name then some value else get? name rest

def contains (name : String) (entries : List (String × α)) : Bool :=
  (get? name entries).isSome

def insert (name : String) (value : α) : List (String × α) → List (String × α)
  | [] => [(name, value)]
  | (key, old) :: rest =>
    if name < key then (name, value) :: (key, old) :: rest
    else if name = key then (name, value) :: rest
    else (key, old) :: insert name value rest

/-- Later entries of one name replace earlier ones. -/
def ofList (entries : List (String × α)) : List (String × α) :=
  entries.foldl (fun found entry => insert entry.1 entry.2 found) []

def erase (name : String) (entries : List (String × α)) : List (String × α) :=
  entries.filter (fun entry => entry.1 ≠ name)

def modify (name : String) (change : α → α) : List (String × α) → List (String × α)
  | [] => []
  | (key, value) :: rest =>
    if key = name then (key, change value) :: rest else (key, value) :: modify name change rest

def mapValues (change : String → α → β) (entries : List (String × α)) : List (String × β) :=
  entries.map (fun entry => (entry.1, change entry.1 entry.2))

@[simp] theorem get?_nil (name : String) : get? name ([] : List (String × α)) = none := rfl

theorem get?_cons (name key : String) (value : α) (rest : List (String × α)) :
    get? name ((key, value) :: rest) = if key = name then some value else get? name rest := rfl

theorem get?_insert (name wanted : String) (value : α) (entries : List (String × α)) :
    get? wanted (insert name value entries) =
      if name = wanted then some value else get? wanted entries := by
  induction entries with
  | nil => simp [insert, get?]
  | cons entry rest ih =>
    obtain ⟨key, old⟩ := entry
    unfold insert
    split
    · simp [get?]
    · split
      · rename_i _ h
        subst h
        by_cases hw : name = wanted <;> simp [get?, hw]
      · rename_i _ h
        by_cases hk : key = wanted
        · subst hk
          simp [get?, h]
        · simp [get?, hk, ih]

theorem get?_erase (name wanted : String) (entries : List (String × α)) :
    get? wanted (erase name entries) = if name = wanted then none else get? wanted entries := by
  induction entries with
  | nil => simp [erase]
  | cons entry rest ih =>
    obtain ⟨key, old⟩ := entry
    have ih' : get? wanted (rest.filter fun entry => entry.1 ≠ name) = _ := ih
    by_cases hk : key = name
    · subst hk
      by_cases hw : key = wanted <;> simp_all [erase, get?]
    · by_cases hw : key = wanted
      · subst hw
        simp [erase, get?, hk, Ne.symm hk]
      · simp_all [erase, get?]

theorem get?_mapValues (change : String → α → β) (name : String) (entries : List (String × α)) :
    get? name (mapValues change entries) = (get? name entries).map (change name) := by
  induction entries with
  | nil => rfl
  | cons entry rest ih =>
    obtain ⟨key, old⟩ := entry
    have ih' : get? name (rest.map fun entry => (entry.1, change entry.1 entry.2)) = _ := ih
    by_cases hk : key = name
    · subst hk
      simp [mapValues, get?]
    · simp [mapValues, get?, hk, ih']

theorem get?_modify (name wanted : String) (change : α → α) (entries : List (String × α)) :
    get? wanted (modify name change entries) =
      if name = wanted then (get? wanted entries).map change else get? wanted entries := by
  induction entries with
  | nil => simp [modify]
  | cons entry rest ih =>
    obtain ⟨key, value⟩ := entry
    by_cases hk : key = name
    · subst hk
      by_cases hw : key = wanted <;> simp [modify, get?, hw]
    · by_cases hw : key = wanted
      · subst hw
        simp [modify, get?, hk, Ne.symm hk]
      · simp [modify, get?, hk, hw, ih]

@[simp] theorem names_modify (name : String) (change : α → α) (entries : List (String × α)) :
    names (modify name change entries) = names entries := by
  induction entries with
  | nil => rfl
  | cons entry rest ih =>
    obtain ⟨key, value⟩ := entry
    have ih' : (modify name change rest).map Prod.fst = rest.map Prod.fst := ih
    by_cases hk : key = name <;> simp [names, modify, hk, ih']

@[simp] theorem names_mapValues (change : String → α → β) (entries : List (String × α)) :
    names (mapValues change entries) = names entries := by
  simp [names, mapValues]

theorem mem_names_iff (name : String) (entries : List (String × α)) :
    name ∈ names entries ↔ (get? name entries).isSome := by
  induction entries with
  | nil => simp [names]
  | cons entry rest ih =>
    obtain ⟨key, old⟩ := entry
    have ih' : name ∈ rest.map Prod.fst ↔ _ := ih
    by_cases hk : key = name
    · simp [names, get?, hk]
    · simp only [names, List.map_cons, List.mem_cons, get?, if_neg hk, ih']
      simp [Ne.symm hk]

theorem mem_insert {name : String} {value : α} {entry : String × α} {entries : List (String × α)}
    (h : entry ∈ insert name value entries) : entry = (name, value) ∨ entry ∈ entries := by
  induction entries with
  | nil => simpa [insert] using h
  | cons first rest ih =>
    obtain ⟨key, old⟩ := first
    unfold insert at h
    split at h
    · simpa using h
    · split at h
      · rcases List.mem_cons.1 h with h | h
        · exact Or.inl h
        · exact Or.inr (List.mem_cons_of_mem _ h)
      · rcases List.mem_cons.1 h with h | h
        · exact Or.inr (h ▸ List.mem_cons_self)
        · exact (ih h).imp id (List.mem_cons_of_mem _)

theorem ordered_iff_names {entries : List (String × α)} :
    Ordered entries ↔ (names entries).Pairwise (· < ·) :=
  List.pairwise_map.symm

theorem ordered_nil : Ordered ([] : List (String × α)) := List.Pairwise.nil

theorem ordered_insert (name : String) (value : α) {entries : List (String × α)}
    (h : Ordered entries) : Ordered (insert name value entries) := by
  induction entries with
  | nil => exact List.pairwise_singleton _ _
  | cons first rest ih =>
    obtain ⟨key, old⟩ := first
    have hc := List.pairwise_cons.1 h
    unfold insert
    split
    · rename_i hlt
      refine List.pairwise_cons.2 ⟨fun entry he => ?_, h⟩
      rcases List.mem_cons.1 he with rfl | he
      · exact hlt
      · exact String.lt_trans hlt (hc.1 entry he)
    · split
      · rename_i heq
        subst heq
        exact List.pairwise_cons.2 ⟨hc.1, hc.2⟩
      · rename_i hlt hne
        refine List.pairwise_cons.2 ⟨fun entry he => ?_, ih hc.2⟩
        rcases mem_insert he with rfl | he
        · exact Decidable.by_contra fun hk =>
            hne (String.le_antisymm (String.not_lt.1 hk) (String.not_lt.1 hlt))
        · exact hc.1 entry he

theorem ordered_erase (name : String) {entries : List (String × α)} (h : Ordered entries) :
    Ordered (erase name entries) :=
  List.Pairwise.filter _ h

theorem ordered_mapValues (change : String → α → β) {entries : List (String × α)}
    (h : Ordered entries) : Ordered (mapValues change entries) :=
  List.Pairwise.map _ (fun _ _ h => h) h

theorem ordered_modify (name : String) (change : α → α) {entries : List (String × α)}
    (h : Ordered entries) : Ordered (modify name change entries) := by
  rw [ordered_iff_names, names_modify]
  exact ordered_iff_names.1 h

theorem ordered_ofList (entries : List (String × α)) : Ordered (ofList entries) := by
  suffices h : ∀ found : List (String × α), Ordered found →
      Ordered (entries.foldl (fun found entry => insert entry.1 entry.2 found) found) from
    h [] ordered_nil
  induction entries with
  | nil => exact fun _ h => h
  | cons entry rest ih => exact fun found h => ih _ (ordered_insert entry.1 entry.2 h)

theorem get?_eq_none_of_lt {name : String} {entries : List (String × α)}
    (h : ∀ entry ∈ entries, name < entry.1) : get? name entries = none := by
  induction entries with
  | nil => rfl
  | cons entry rest ih =>
    obtain ⟨key, value⟩ := entry
    have hk : key ≠ name := fun he => String.lt_irrefl name (he ▸ h _ List.mem_cons_self)
    rw [get?_cons, if_neg hk]
    exact ih fun entry he => h entry (List.mem_cons_of_mem _ he)

/-- Two ordered lists that answer every name alike are equal. -/
theorem ext {first second : List (String × α)} (h₁ : Ordered first) (h₂ : Ordered second)
    (h : ∀ name, get? name first = get? name second) : first = second := by
  induction first generalizing second with
  | nil =>
    cases second with
    | nil => rfl
    | cons entry rest => simpa [get?] using h entry.1
  | cons a as ih =>
    cases second with
    | nil => simpa [get?] using h a.1
    | cons b bs =>
      obtain ⟨j, x⟩ := a
      obtain ⟨k, y⟩ := b
      have ha := List.pairwise_cons.1 h₁
      have hb := List.pairwise_cons.1 h₂
      have hjk : j = k := by
        apply Decidable.by_contra
        intro hne
        rcases String.le_total j k with hle | hle
        · have hlt : j < k := Decidable.by_contra fun hn =>
            hne (String.le_antisymm hle (String.not_lt.1 hn))
          have hn : get? j ((k, y) :: bs) = none := get?_eq_none_of_lt fun entry he => by
            rcases List.mem_cons.1 he with rfl | he
            · exact hlt
            · exact String.lt_trans hlt (hb.1 entry he)
          simpa [get?_cons, hn] using h j
        · have hlt : k < j := Decidable.by_contra fun hn =>
            hne (String.le_antisymm (String.not_lt.1 hn) hle)
          have hn : get? k ((j, x) :: as) = none := get?_eq_none_of_lt fun entry he => by
            rcases List.mem_cons.1 he with rfl | he
            · exact hlt
            · exact String.lt_trans hlt (ha.1 entry he)
          have := h k
          rw [hn] at this
          simp [get?_cons] at this
      subst hjk
      have hxy : x = y := by simpa [get?_cons] using h j
      subst hxy
      congr 1
      refine ih ha.2 hb.2 fun name => ?_
      by_cases hn : j = name
      · subst hn
        rw [get?_eq_none_of_lt ha.1, get?_eq_none_of_lt hb.1]
      · simpa [get?_cons, hn] using h name

end OntoSchema.Entries
