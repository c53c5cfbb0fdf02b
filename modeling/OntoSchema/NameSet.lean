/-!
# Finite sets of names

A `NameSet` lists its members in strictly ascending order of their code points, so a set is
determined by its members (`NameSet.ext_mem`).
-/

namespace OntoSchema

structure NameSet where
  toList : List String
  ordered : toList.Pairwise (· < ·)
deriving DecidableEq

namespace NameSet

theorem ext {first second : NameSet} (h : first.toList = second.toList) : first = second := by
  cases first; cases second; congr

instance : Membership String NameSet := ⟨fun set name => name ∈ set.toList⟩

instance (name : String) (set : NameSet) : Decidable (name ∈ set) :=
  inferInstanceAs (Decidable (name ∈ set.toList))

theorem mem_def {name : String} {set : NameSet} : name ∈ set ↔ name ∈ set.toList := Iff.rfl

def empty : NameSet := ⟨[], List.Pairwise.nil⟩

instance : EmptyCollection NameSet := ⟨empty⟩

instance : Inhabited NameSet := ⟨empty⟩

@[simp] theorem not_mem_empty (name : String) : name ∉ (∅ : NameSet) := List.not_mem_nil

def isEmpty (set : NameSet) : Bool := set.toList.isEmpty

def contains (set : NameSet) (name : String) : Bool := decide (name ∈ set)

theorem contains_iff {set : NameSet} {name : String} :
    set.contains name = true ↔ name ∈ set := by
  simp [contains]

/-- Puts a name at its place in an ascending list. -/
def place (name : String) : List String → List String
  | [] => [name]
  | other :: rest =>
    if name < other then name :: other :: rest
    else if name = other then other :: rest
    else other :: place name rest

theorem mem_place {name wanted : String} {names : List String} :
    wanted ∈ place name names ↔ wanted = name ∨ wanted ∈ names := by
  induction names with
  | nil => simp [place]
  | cons other rest ih =>
    unfold place
    split
    · simp
    · split
      · rename_i _ h
        subst h
        simp
      · simp only [List.mem_cons, ih]
        exact or_left_comm

theorem pairwise_place (name : String) {names : List String} (h : names.Pairwise (· < ·)) :
    (place name names).Pairwise (· < ·) := by
  induction names with
  | nil => exact List.pairwise_singleton _ _
  | cons other rest ih =>
    have hc := List.pairwise_cons.1 h
    unfold place
    split
    · rename_i hlt
      refine List.pairwise_cons.2 ⟨fun third ht => ?_, h⟩
      rcases List.mem_cons.1 ht with rfl | ht
      · exact hlt
      · exact String.lt_trans hlt (hc.1 third ht)
    · split
      · exact h
      · rename_i hlt hne
        refine List.pairwise_cons.2 ⟨fun third ht => ?_, ih hc.2⟩
        rcases mem_place.1 ht with rfl | ht
        · exact Decidable.by_contra fun hk =>
            hne (String.le_antisymm (String.not_lt.1 hk) (String.not_lt.1 hlt))
        · exact hc.1 third ht

def insert (set : NameSet) (name : String) : NameSet :=
  ⟨place name set.toList, pairwise_place name set.ordered⟩

@[simp] theorem mem_insert {set : NameSet} {name wanted : String} :
    wanted ∈ set.insert name ↔ wanted = name ∨ wanted ∈ set :=
  mem_place

def erase (set : NameSet) (name : String) : NameSet :=
  ⟨set.toList.filter (· ≠ name), List.Pairwise.filter _ set.ordered⟩

@[simp] theorem mem_erase {set : NameSet} {name wanted : String} :
    wanted ∈ set.erase name ↔ wanted ∈ set ∧ wanted ≠ name := by
  simp [mem_def, erase]

def filter (keep : String → Bool) (set : NameSet) : NameSet :=
  ⟨set.toList.filter keep, List.Pairwise.filter _ set.ordered⟩

@[simp] theorem mem_filter {set : NameSet} {keep : String → Bool} {name : String} :
    name ∈ set.filter keep ↔ name ∈ set ∧ keep name := by
  simp [mem_def, filter]

/-- The members of a set together with the names of a list. -/
def insertAll (set : NameSet) (names : List String) : NameSet :=
  names.foldl insert set

@[simp] theorem mem_insertAll {set : NameSet} {names : List String} {wanted : String} :
    wanted ∈ set.insertAll names ↔ wanted ∈ names ∨ wanted ∈ set := by
  induction names generalizing set with
  | nil => simp [insertAll]
  | cons name rest ih =>
    have ih' := @ih (set.insert name)
    simp only [insertAll, List.foldl_cons] at ih' ⊢
    rw [ih', mem_insert, List.mem_cons, or_left_comm, or_assoc]

def ofList (names : List String) : NameSet := insertAll ∅ names

@[simp] theorem mem_ofList {names : List String} {wanted : String} :
    wanted ∈ ofList names ↔ wanted ∈ names := by
  simp [ofList]

/-- Moves a member to another name; a set without that member stays as it is. -/
def rename (set : NameSet) (source target : String) : NameSet :=
  if source ∈ set then (set.erase source).insert target else set

theorem mem_rename {set : NameSet} {source target wanted : String} :
    wanted ∈ set.rename source target ↔
      (source ∈ set ∧ wanted = target) ∨ (wanted ∈ set ∧ (wanted = source → source ∉ set)) := by
  unfold rename
  split
  · rename_i h
    simp [h]
  · rename_i h
    simp [h]

theorem nodup (set : NameSet) : set.toList.Nodup :=
  List.Pairwise.imp (S := fun a b => a ≠ b)
    (fun hab heq => String.lt_irrefl _ (heq ▸ hab)) set.ordered

/-- Ascending lists with the same members are equal. -/
theorem eq_of_mem_iff {first second : List String} (h₁ : first.Pairwise (· < ·))
    (h₂ : second.Pairwise (· < ·)) (h : ∀ name, name ∈ first ↔ name ∈ second) :
    first = second := by
  induction first generalizing second with
  | nil =>
    cases second with
    | nil => rfl
    | cons b bs => simpa using h b
  | cons a as ih =>
    cases second with
    | nil => simpa using h a
    | cons b bs =>
      have ha := List.pairwise_cons.1 h₁
      have hb := List.pairwise_cons.1 h₂
      have hab : a = b := by
        rcases List.mem_cons.1 ((h a).1 List.mem_cons_self) with heq | hmem
        · exact heq
        · rcases List.mem_cons.1 ((h b).2 List.mem_cons_self) with heq | hmem'
          · exact heq.symm
          · exact absurd (hb.1 a hmem) (String.lt_asymm (ha.1 b hmem'))
      subst hab
      congr 1
      refine ih ha.2 hb.2 fun name => ⟨fun hn => ?_, fun hn => ?_⟩
      · rcases List.mem_cons.1 ((h name).1 (List.mem_cons_of_mem _ hn)) with heq | hmem
        · exact absurd (ha.1 name hn) (heq ▸ String.lt_irrefl name)
        · exact hmem
      · rcases List.mem_cons.1 ((h name).2 (List.mem_cons_of_mem _ hn)) with heq | hmem
        · exact absurd (hb.1 name hn) (heq ▸ String.lt_irrefl name)
        · exact hmem

theorem ext_mem {first second : NameSet} (h : ∀ name, name ∈ first ↔ name ∈ second) :
    first = second :=
  ext (eq_of_mem_iff first.ordered second.ordered h)

end NameSet

end OntoSchema
