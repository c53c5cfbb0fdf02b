import OntoSchema.Entries

/-!
# Finite maps from names

A `NameMap` carries the ascending order of its entries, so two maps that answer every name alike
are equal (`NameMap.ext_get?`).
-/

namespace OntoSchema

universe u v

structure NameMap (α : Type u) where
  entries : List (String × α)
  ordered : Entries.Ordered entries

namespace NameMap

variable {α : Type u} {β : Type v}

theorem ext {first second : NameMap α} (h : first.entries = second.entries) : first = second := by
  cases first; cases second; congr

instance [DecidableEq α] : DecidableEq (NameMap α) := fun first second =>
  decidable_of_iff (first.entries = second.entries) ⟨ext, fun h => by rw [h]⟩

def empty : NameMap α := ⟨[], Entries.ordered_nil⟩

instance : EmptyCollection (NameMap α) := ⟨empty⟩

instance : Inhabited (NameMap α) := ⟨empty⟩

def get? (map : NameMap α) (name : String) : Option α := Entries.get? name map.entries

def contains (map : NameMap α) (name : String) : Bool := (map.get? name).isSome

def isEmpty (map : NameMap α) : Bool := map.entries.isEmpty

/-- The names of a map, in ascending order. -/
def names (map : NameMap α) : List String := Entries.names map.entries

def insert (map : NameMap α) (name : String) (value : α) : NameMap α :=
  ⟨Entries.insert name value map.entries, Entries.ordered_insert name value map.ordered⟩

/-- Later entries of one name replace earlier ones. -/
def ofList (entries : List (String × α)) : NameMap α :=
  ⟨Entries.ofList entries, Entries.ordered_ofList entries⟩

/-- Both maps together; where both know a name, the second one wins. -/
def union (first second : NameMap α) : NameMap α :=
  second.entries.foldl (fun map entry => map.insert entry.1 entry.2) first

@[simp] theorem get?_empty (name : String) : (∅ : NameMap α).get? name = none := rfl

theorem get?_insert (map : NameMap α) (name wanted : String) (value : α) :
    (map.insert name value).get? wanted = if name = wanted then some value else map.get? wanted :=
  Entries.get?_insert name wanted value map.entries

theorem get?_union (first second : NameMap α) (name : String) :
    (first.union second).get? name = (second.get? name).or (first.get? name) := by
  obtain ⟨entries, ordered⟩ := second
  have hget : NameMap.get? ⟨entries, ordered⟩ name = Entries.get? name entries := rfl
  rw [hget]
  unfold union
  clear hget
  induction entries generalizing first with
  | nil => simp
  | cons entry rest ih =>
    obtain ⟨key, value⟩ := entry
    have hc := List.pairwise_cons.1 ordered
    have ih' := ih (first.insert key value) hc.2
    simp only [List.foldl_cons] at ih' ⊢
    rw [ih', get?_insert, Entries.get?_cons]
    by_cases hk : key = name
    · subst hk
      rw [Entries.get?_eq_none_of_lt hc.1]
      simp
    · simp [hk]

theorem ext_get? {first second : NameMap α} (h : ∀ name, first.get? name = second.get? name) :
    first = second :=
  ext (Entries.ext first.ordered second.ordered h)

@[simp] theorem union_empty (map : NameMap α) : map.union ∅ = map := rfl

@[simp] theorem empty_union (map : NameMap α) : (∅ : NameMap α).union map = map :=
  ext_get? fun name => by rw [get?_union, get?_empty, Option.or_none]

theorem union_assoc (first second third : NameMap α) :
    (first.union second).union third = first.union (second.union third) :=
  ext_get? fun name => by simp only [get?_union, Option.or_assoc]

@[simp] theorem union_self (map : NameMap α) : map.union map = map :=
  ext_get? fun name => by rw [get?_union, Option.or_self]

end NameMap

end OntoSchema
