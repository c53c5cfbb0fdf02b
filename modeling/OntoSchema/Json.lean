import OntoSchema.Binary64

/-!
# JSON values

Objects list their fields in order of appearance. A text may repeat a key; `Json.distinct` gives
the value that such a text denotes, where a key keeps its first place and its last value.
-/

namespace OntoSchema

/-- Integers stay exact; every other number is a binary floating point number. -/
inductive Json.Number where
  | integer (n : Int)
  | real (x : Binary64)
deriving DecidableEq

inductive Json where
  | null
  | bool (b : Bool)
  | number (n : Json.Number)
  | string (s : String)
  | array (items : List Json)
  | object (fields : List (String × Json))

namespace Json

mutual

/-- Decides the equality of two values. -/
def decEq : (a b : Json) → Decidable (a = b)
  | .null, .null => isTrue rfl
  | .bool x, .bool y => decidable_of_iff (x = y) (by simp)
  | .number x, .number y => decidable_of_iff (x = y) (by simp)
  | .string x, .string y => decidable_of_iff (x = y) (by simp)
  | .array x, .array y =>
    match decEqItems x y with
    | isTrue h => isTrue (by rw [h])
    | isFalse h => isFalse (by simpa using h)
  | .object x, .object y =>
    match decEqFields x y with
    | isTrue h => isTrue (by rw [h])
    | isFalse h => isFalse (by simpa using h)
  | .null, .bool _ | .null, .number _ | .null, .string _ | .null, .array _ | .null, .object _
  | .bool _, .null | .bool _, .number _ | .bool _, .string _ | .bool _, .array _
  | .bool _, .object _ | .number _, .null | .number _, .bool _ | .number _, .string _
  | .number _, .array _ | .number _, .object _ | .string _, .null | .string _, .bool _
  | .string _, .number _ | .string _, .array _ | .string _, .object _ | .array _, .null
  | .array _, .bool _ | .array _, .number _ | .array _, .string _ | .array _, .object _
  | .object _, .null | .object _, .bool _ | .object _, .number _ | .object _, .string _
  | .object _, .array _ => isFalse nofun

def decEqItems : (a b : List Json) → Decidable (a = b)
  | [], [] => isTrue rfl
  | [], _ :: _ | _ :: _, [] => isFalse nofun
  | x :: xs, y :: ys =>
    match decEq x y, decEqItems xs ys with
    | isTrue h, isTrue h' => isTrue (by rw [h, h'])
    | isFalse h, _ => isFalse (by simp [h])
    | _, isFalse h => isFalse (by simp [h])

def decEqFields : (a b : List (String × Json)) → Decidable (a = b)
  | [], [] => isTrue rfl
  | [], _ :: _ | _ :: _, [] => isFalse nofun
  | (j, x) :: xs, (k, y) :: ys =>
    match decEq x y, decEqFields xs ys with
    | isTrue h, isTrue h' => decidable_of_iff (j = k) (by simp [h, h'])
    | isFalse h, _ => isFalse (by simp [h])
    | _, isFalse h => isFalse (by simp [h])

end

instance : DecidableEq Json := decEq

instance : Inhabited Json := ⟨.null⟩

def ofNat (n : Nat) : Json := .number (.integer n)

def strings (texts : List String) : Json := .array (texts.map .string)

/-- Null for nothing. -/
def ofOption {α : Type} (write : α → Json) : Option α → Json
  | none => .null
  | some x => write x

mutual

/-- The value in which no object repeats a key. -/
def distinct : Json → Json
  | .array items => .array (distinctItems items)
  | .object fields => .object (distinctFields fields)
  | .null => .null
  | .bool b => .bool b
  | .number n => .number n
  | .string s => .string s

def distinctItems : List Json → List Json
  | [] => []
  | item :: rest => distinct item :: distinctItems rest

/-- Fields in order of first appearance with the last value of each key. -/
def distinctFields : List (String × Json) → List (String × Json)
  | [] => []
  | (key, value) :: rest =>
    let later := distinctFields rest
    match later.lookup key with
    | some last => (key, last) :: later.filter (·.1 ≠ key)
    | none => (key, distinct value) :: later

end

mutual

/-- Whether a key occurs in a value at any depth. -/
def mentions (key : String) : Json → Bool
  | .array items => itemsMention key items
  | .object fields => fieldsMention key fields
  | .null | .bool _ | .number _ | .string _ => false

def itemsMention (key : String) : List Json → Bool
  | [] => false
  | item :: rest => mentions key item || itemsMention key rest

def fieldsMention (key : String) : List (String × Json) → Bool
  | [] => false
  | (name, value) :: rest => name == key || mentions key value || fieldsMention key rest

end

end Json

end OntoSchema
