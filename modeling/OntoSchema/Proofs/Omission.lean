import Mathlib.Data.List.Nodup
import OntoSchema.Document.Record
import OntoSchema.Proofs.Entries

/-!
# Records without some of their fields

A place is the list of keys that leads from a value to a field inside it. `Json.without` leaves out
the fields at some places, and `Json.AgreesAt` says that the fields left out have the values of
another document, the one with the defaults. `Rereads` says what a reader makes of the rest, and
`Preserved` that it makes the value that was written of it.
-/

namespace OntoSchema.Json

variable {α : Type} {omitted : List String → Bool} {key : String}

/-- The value at a place. -/
def at? : List String → Json → Option Json
  | [], value => some value
  | key :: place, .object fields => (fields.lookup key).bind (at? place)
  | _ :: _, _ => none

/-- The places below a key. -/
def under (key : String) (omitted : List String → Bool) (place : List String) : Bool :=
  omitted (key :: place)

mutual

/-- The value without the fields at the omitted places. -/
def without (omitted : List String → Bool) : Json → Json
  | .object fields => .object (fieldsWithout omitted fields)
  | .array items => .array items
  | .null => .null
  | .bool b => .bool b
  | .number n => .number n
  | .string s => .string s

def fieldsWithout (omitted : List String → Bool) : List (String × Json) → List (String × Json)
  | [] => []
  | (key, value) :: rest =>
    if omitted [key] then fieldsWithout omitted rest
    else (key, without (under key omitted) value) :: fieldsWithout omitted rest

end

/-- What a value has at an omitted place, the default has there too. -/
def AgreesAt (omitted : List String → Bool) (value default : Json) : Prop :=
  ∀ place, omitted place = true → ∀ found, value.at? place = some found →
    default.at? place = some found

theorem at?_object (key : String) (place : List String) (fields : List (String × Json)) :
    (object fields).at? (key :: place) = (fields.lookup key).bind (at? place) := rfl

theorem at?_cons {value found : Json} (h : value.at? [key] = some found) (place : List String) :
    value.at? (key :: place) = found.at? place := by
  cases value with
  | object fields =>
    rw [at?_object] at h ⊢
    obtain ⟨field, hfield, hfound⟩ := Option.bind_eq_some_iff.1 h
    obtain rfl := Option.some.inj hfound
    rw [hfield, Option.bind_some]
  | _ => cases h

theorem AgreesAt.field {value default found expected : Json} (h : AgreesAt omitted value default)
    (hvalue : value.at? [key] = some found) (hdefault : default.at? [key] = some expected) :
    AgreesAt (under key omitted) found expected := fun place homitted inner hinner => by
  rw [← at?_cons hdefault]
  exact h _ homitted inner ((at?_cons hvalue place).trans hinner)

theorem agreesAt_none (value default : Json) : AgreesAt (fun _ => false) value default :=
  fun _ h => nomatch h

mutual

theorem without_none : ∀ value : Json, value.without (fun _ => false) = value
  | .object fields => congrArg object (fieldsWithout_none fields)
  | .array _ | .null | .bool _ | .number _ | .string _ => rfl

theorem fieldsWithout_none : ∀ fields : List (String × Json),
    fieldsWithout (fun _ => false) fields = fields
  | [] => rfl
  | (key, value) :: rest => by
    have hvalue : value.without (under key fun _ => false) = value := without_none value
    rw [fieldsWithout, if_neg Bool.false_ne_true, hvalue, fieldsWithout_none rest]

end

theorem lookup_fieldsWithout (omitted : List String → Bool) (key : String)
    (fields : List (String × Json)) :
    (fieldsWithout omitted fields).lookup key =
      if omitted [key] then none else (fields.lookup key).map (without (under key omitted)) := by
  induction fields with
  | nil => simp [fieldsWithout]
  | cons field rest ih =>
    obtain ⟨name, value⟩ := field
    unfold fieldsWithout
    by_cases hkey : key = name
    · subst hkey
      by_cases homitted : omitted [key] = true <;> simp [homitted, ih]
    · have hne : (key == name) = false := beq_eq_false_iff_ne.2 hkey
      by_cases hname : omitted [name] = true <;> simp [hname, List.lookup_cons, hne, ih]

theorem fieldsWithout_sublist (omitted : List String → Bool) (fields : List (String × Json)) :
    ((fieldsWithout omitted fields).map Prod.fst).Sublist (fields.map Prod.fst) := by
  induction fields with
  | nil => exact .slnil
  | cons field rest ih =>
    obtain ⟨name, value⟩ := field
    unfold fieldsWithout
    split
    · exact ih.cons _
    · exact ih.cons_cons _

/-- No field goes if no key of the object is omitted; what is inside may still change. -/
theorem fieldsWithout_eq_map {fields : List (String × Json)}
    (h : ∀ field ∈ fields, omitted [field.1] = false) :
    fieldsWithout omitted fields =
      fields.map fun field => (field.1, field.2.without (under field.1 omitted)) := by
  induction fields with
  | nil => rfl
  | cons field rest ih =>
    rw [fieldsWithout, if_neg (Bool.eq_false_iff.1 (h _ List.mem_cons_self)),
      ih fun other hm => h other (List.mem_cons_of_mem _ hm)]
    rfl

/-- A key that is not repeated has a single value or none. -/
theorem isSome_single? {fields : List (String × α)} (h : (fields.map Prod.fst).Nodup) :
    (single? key fields).isSome = true := by
  have hcount : (fields.filter fun entry => entry.1 == key).length ≤ 1 := by
    rw [← List.countP_eq_length_filter]
    refine Nat.le_trans (Nat.le_of_eq ?_) (List.nodup_iff_count_le_one.1 h key)
    rw [List.count, List.countP_map]
    rfl
  unfold single?
  split
  · rfl
  · rfl
  · rename_i hnil hone
    match hf : fields.filter fun entry => entry.1 == key with
    | [] => exact absurd hf hnil
    | [entry] => exact absurd hf (hone entry)
    | _ :: _ :: _ => rw [hf] at hcount; exact absurd hcount (by simp)

/-- An object that repeats no key is a record. -/
theorem record?_object {value : Json} {fields : List (String × Json)} (keys : List String)
    (hvalue : value = object fields) (h : (fields.map Prod.fst).Nodup) :
    value.record? keys = some fun key => fields.lookup key := by
  have hsingle : (keys.all fun key => (single? key fields).isSome) = true :=
    List.all_eq_true.2 fun _ _ => isSome_single? h
  rw [hvalue, record?, if_pos hsingle]

/-- What is left under a key. -/
def remaining? (value : Json) (omitted : List String → Bool) (key : String) : Option Json :=
  if omitted [key] then none else (value.at? [key]).map (without (under key omitted))

/-- A record without some of its fields still has each of the others under its key. -/
theorem record?_without {value : Json} {fields : List (String × Json)} (keys : List String)
    (omitted : List String → Bool) (hvalue : value = object fields)
    (h : (fields.map Prod.fst).Nodup) :
    (value.without omitted).record? keys = some (value.remaining? omitted) := by
  subst hvalue
  rw [record?_object keys (rfl : (object fields).without omitted = _)
    ((fieldsWithout_sublist omitted fields).nodup h)]
  congr 1
  funext key
  rw [lookup_fieldsWithout, remaining?, at?_object]
  cases fields.lookup key <;> rfl

/-- Reading a written value without fields that have their defaults gives the value that `reread`
makes of it; nothing changes if nothing is left out. -/
structure Rereads (write : α → Json) (read : Json → Option α) (missing : α)
    (reread : (List String → Bool) → α → α) : Prop where
  of_agreesAt : ∀ omitted x, AgreesAt omitted (write x) (write missing) →
    read ((write x).without omitted) = some (reread omitted x)
  of_none : ∀ x, reread (fun _ => false) x = x

namespace Rereads

variable {write : α → Json} {read : Json → Option α} {missing : α}
  {reread : (List String → Bool) → α → α}

/-- No other value is written as the default is. -/
theorem eq_missing (h : Rereads write read missing reread) {x : α} (hx : write missing = write x) :
    missing = x := by
  have hread : ∀ y, AgreesAt (fun _ => false) (write y) (write missing) →
      read ((write y).without fun _ => false) = some y := fun y hagrees =>
    (h.of_agreesAt _ y hagrees).trans (congrArg some (h.of_none y))
  have hmissing := hread missing (agreesAt_none _ _)
  rw [hx] at hmissing
  exact Option.some.inj (hmissing.symm.trans (hread x (agreesAt_none _ _)))

/-- A field has its default if it is left out, and is reread from what is left otherwise. -/
theorem field {value default : Json} (hrereads : Rereads write read missing reread)
    (h : AgreesAt omitted value default) {x : α} (key : String)
    (hvalue : value.at? [key] = some (write x))
    (hdefault : default.at? [key] = some (write missing)) :
    withDefault missing read (value.remaining? omitted key) =
      some (if omitted [key] then x else reread (under key omitted) x) := by
  unfold remaining?
  split
  · rename_i homitted
    have hsame : write missing = write x :=
      Option.some.inj (hdefault.symm.trans (h [key] homitted _ hvalue))
    exact congrArg some (hrereads.eq_missing hsame)
  · rw [hvalue]
    exact hrereads.of_agreesAt _ _ (h.field hvalue hdefault)

end Rereads

/-- What was written is read back, whichever fields that have their defaults are left out. -/
def Preserved (write : α → Json) (read : Json → Option α) (missing : α) : Prop :=
  ∀ (omitted : List String → Bool) (x : α), AgreesAt omitted (write x) (write missing) →
    read ((write x).without omitted) = some x

namespace Preserved

variable {write : α → Json} {read : Json → Option α} {missing : α}

theorem field {value default : Json} (hpreserved : Preserved write read missing)
    (h : AgreesAt omitted value default) {x : α} (key : String)
    (hvalue : value.at? [key] = some (write x))
    (hdefault : default.at? [key] = some (write missing)) :
    withDefault missing read (value.remaining? omitted key) = some x := by
  have hrereads : Rereads write read missing fun _ x => x := ⟨hpreserved, fun _ => rfl⟩
  rw [hrereads.field h key hvalue hdefault, ite_self]

/-- A value in which nothing can be left out only has to be read back. -/
theorem of_read (hwrite : ∀ omitted x, (write x).without omitted = write x)
    (hread : ∀ x, read (write x) = some x) : Preserved write read missing := fun omitted x _ => by
  rw [hwrite, hread]

end Preserved

theorem preserved_bool (missing : Bool) : Preserved .bool bool? missing :=
  .of_read (fun _ _ => rfl) fun _ => rfl

theorem preserved_string (missing : String) : Preserved .string string? missing :=
  .of_read (fun _ _ => rfl) fun _ => rfl

theorem mapM_map_eq_some {β : Type} {write : α → β} {read : β → Option α} {items : List α}
    (h : ∀ item ∈ items, read (write item) = some item) :
    (items.map write).mapM read = some items := by
  induction items with
  | nil => rfl
  | cons item rest ih =>
    have ih' := ih fun other hm => h other (List.mem_cons_of_mem _ hm)
    simp [h item List.mem_cons_self, ih']

theorem preserved_list {write : α → Json} {read : Json → Option α} (missing : List α)
    (h : ∀ item, read (write item) = some item) :
    Preserved (fun items => .array (items.map write)) (list? read) missing :=
  .of_read (fun _ _ => rfl) fun _ => mapM_map_eq_some fun item _ => h item

/-- The empty map has nothing at any place, so nothing of a map can be left out. -/
theorem kept_of_agreesAt_empty {write : α → Json} {map : NameMap α}
    (h : AgreesAt omitted (object (map.entries.map fun entry => (entry.1, write entry.2)))
      (object [])) {entry : String × α} (hm : entry ∈ map.entries) {place : List String}
    {found : Json} (hfound : (write entry.2).at? place = some found) :
    omitted (entry.1 :: place) = false := by
  have hlookup : (map.entries.map fun entry => (entry.1, write entry.2)).lookup entry.1 =
      some (write entry.2) := by
    rw [← Entries.get?_eq_lookup]
    exact (Entries.get?_mapValues (fun _ => write) entry.1 map.entries).trans
      (congrArg (Option.map write) ((Entries.get?_eq_some_iff map.ordered).2 hm))
  refine Bool.eq_false_iff.2 fun homitted => ?_
  have hdefault : (object []).at? (entry.1 :: place) = some found := by
    refine h _ homitted found ?_
    rw [at?_object, hlookup]
    exact hfound
  cases hdefault

theorem Preserved.map {write : α → Json} {read : Json → Option α} {missing : α}
    (hpreserved : Preserved write read missing) :
    Preserved (fun map : NameMap α => .object (map.entries.map fun entry =>
      (entry.1, write entry.2))) (map? read) ∅ := by
  intro omitted map h
  have hread : ∀ entry ∈ map.entries,
      read ((write entry.2).without (under entry.1 omitted)) = some entry.2 := fun entry hm =>
    hpreserved _ _ fun place homitted found hfound =>
      absurd homitted (Bool.eq_false_iff.1 (kept_of_agreesAt_empty h hm hfound))
  have hfields : fieldsWithout omitted (map.entries.map fun entry => (entry.1, write entry.2)) =
      map.entries.map fun entry =>
        (entry.1, (write entry.2).without (under entry.1 omitted)) := by
    rw [fieldsWithout_eq_map, List.map_map]
    · rfl
    · rintro _ hm
      obtain ⟨entry, hentry, rfl⟩ := List.mem_map.1 hm
      exact kept_of_agreesAt_empty h hentry rfl
  rw [without, hfields, map?, mapM_map_eq_some fun entry hm => by rw [hread entry hm]; rfl]
  exact congrArg some (NameMap.ext (Entries.ofList_eq_self map.ordered))

theorem preserved_strings (missing : List String) :
    Preserved .strings (list? string?) missing :=
  preserved_list missing fun _ => rfl

end OntoSchema.Json
