import Mathlib.Data.List.Nodup
import OntoSchema.Json

/-!
# Values without repeated keys

`KeysDiffer` says that no object inside a value repeats a key. `Json.distinct` leads to such a value
and keeps every value that is one already, so a value is its own `distinct` just when its keys
differ.
-/

namespace OntoSchema.Json

/-- No object inside a value repeats a key. -/
inductive KeysDiffer : Json → Prop
  | null : KeysDiffer .null
  | bool (b : Bool) : KeysDiffer (.bool b)
  | number (n : Number) : KeysDiffer (.number n)
  | string (s : String) : KeysDiffer (.string s)
  | array {items : List Json} : (∀ item ∈ items, KeysDiffer item) → KeysDiffer (.array items)
  | object {fields : List (String × Json)} : (fields.map Prod.fst).Nodup →
      (∀ field ∈ fields, KeysDiffer field.2) → KeysDiffer (.object fields)

theorem distinctItems_eq_map (items : List Json) : distinctItems items = items.map distinct := by
  induction items with
  | nil => rfl
  | cons item rest ih => rw [distinctItems, ih, List.map_cons]

theorem lookup_eq_none {key : String} {fields : List (String × Json)}
    (h : key ∉ fields.map Prod.fst) : fields.lookup key = none := by
  refine List.lookup_eq_none_iff.2 fun field hm => ?_
  rw [bne_iff_ne]
  rintro rfl
  exact h (List.mem_map_of_mem hm)

theorem mem_of_lookup {key : String} {value : Json} {fields : List (String × Json)}
    (h : fields.lookup key = some value) : (key, value) ∈ fields := by
  obtain ⟨before, after, rfl, _⟩ := List.lookup_eq_some_iff.1 h
  exact List.mem_append.2 (.inr List.mem_cons_self)

theorem distinctFields_eq_self {fields : List (String × Json)} (hkeys : (fields.map Prod.fst).Nodup)
    (hvalues : ∀ field ∈ fields, distinct field.2 = field.2) : distinctFields fields = fields := by
  induction fields with
  | nil => rfl
  | cons field rest ih =>
    obtain ⟨key, value⟩ := field
    rw [List.map_cons, List.nodup_cons] at hkeys
    have hrest := ih hkeys.2 fun other hm => hvalues other (List.mem_cons_of_mem _ hm)
    have hvalue : distinct value = value := hvalues _ List.mem_cons_self
    rw [distinctFields, hrest, lookup_eq_none hkeys.1, hvalue]

/-- A value without repeated keys stays as it is. -/
theorem KeysDiffer.distinct_eq {value : Json} (h : value.KeysDiffer) : value.distinct = value := by
  induction h with
  | null | bool | number | string => rfl
  | @array items _ ih =>
    have hitems : items.map distinct = items := by
      rw [List.map_congr_left ih, List.map_id']
    rw [distinct, distinctItems_eq_map, hitems]
  | object hkeys _ ih => rw [distinct, distinctFields_eq_self hkeys ih]

mutual

theorem keysDiffer_distinct : ∀ value : Json, value.distinct.KeysDiffer
  | .null => .null
  | .bool b => .bool b
  | .number n => .number n
  | .string s => .string s
  | .array items => .array (keysDiffer_distinctItems items)
  | .object fields =>
    .object (keysDiffer_distinctFields fields).1 (keysDiffer_distinctFields fields).2

theorem keysDiffer_distinctItems : ∀ items : List Json,
    ∀ item ∈ distinctItems items, item.KeysDiffer
  | [] => nofun
  | item :: rest => by
    rw [distinctItems, List.forall_mem_cons]
    exact ⟨keysDiffer_distinct item, keysDiffer_distinctItems rest⟩

/-- The keys of later fields win, so each key is left once. -/
theorem keysDiffer_distinctFields : ∀ fields : List (String × Json),
    ((distinctFields fields).map Prod.fst).Nodup ∧
      ∀ field ∈ distinctFields fields, field.2.KeysDiffer
  | [] => ⟨List.nodup_nil, nofun⟩
  | (key, value) :: rest => by
    obtain ⟨hkeys, hvalues⟩ := keysDiffer_distinctFields rest
    have hvalue := keysDiffer_distinct value
    cases hlookup : (distinctFields rest).lookup key with
    | some last =>
      have hsub : ((distinctFields rest).filter (·.1 ≠ key)).Sublist (distinctFields rest) :=
        List.filter_sublist
      have hfields : distinctFields ((key, value) :: rest) =
          (key, last) :: (distinctFields rest).filter (·.1 ≠ key) := by
        simp only [distinctFields, hlookup]
      rw [hfields, List.map_cons, List.nodup_cons, List.forall_mem_cons]
      refine ⟨⟨fun hm => ?_, (hsub.map _).nodup hkeys⟩, hvalues _ (mem_of_lookup hlookup),
        fun field hm => hvalues field (hsub.subset hm)⟩
      obtain ⟨field, hfield, rfl⟩ := List.mem_map.1 hm
      simpa using (List.mem_filter.1 hfield).2
    | none =>
      have hfields : distinctFields ((key, value) :: rest) =
          (key, value.distinct) :: distinctFields rest := by
        simp only [distinctFields, hlookup]
      rw [hfields, List.map_cons, List.nodup_cons, List.forall_mem_cons]
      refine ⟨⟨fun hm => ?_, hkeys⟩, hvalue, hvalues⟩
      obtain ⟨field, hfield, rfl⟩ := List.mem_map.1 hm
      simpa using List.lookup_eq_none_iff.1 hlookup field hfield

end

end OntoSchema.Json
