import OntoSchema.Text.Blank
import OntoSchema.Text.Lowercase

/-!
# Operations on resources

The eight operations that a class may offer. An operation has a label, made of its verb and a name,
and a key, under which settings list it; `Operation.ofLabel?` reads either, whatever its case and
the blanks around it.
-/

namespace OntoSchema

inductive HttpVerb where
  | delete
  | get
  | post
  | put
deriving DecidableEq

def HttpVerb.text : HttpVerb → String
  | delete => "delete"
  | get => "get"
  | post => "post"
  | put => "put"

def HttpVerb.all : List HttpVerb := [.delete, .get, .post, .put]

/-- Whether an operation acts on one resource or on a collection. -/
inductive Multiplicity where
  | singular
  | plural
deriving DecidableEq

def Multiplicity.text : Multiplicity → String
  | singular => "singular"
  | plural => "plural"

def Multiplicity.all : List Multiplicity := [.singular, .plural]

inductive Operation where
  | deleteByKey
  | getAll
  | getByKey
  | postBulk
  | postSingle
  | putBulk
  | putByKey
  | searchByPost
deriving DecidableEq

namespace Operation

/-- All operations, in the order in which they are listed everywhere. -/
def all : List Operation :=
  [deleteByKey, getAll, getByKey, postBulk, postSingle, putBulk, putByKey, searchByPost]

theorem mem_all (operation : Operation) : operation ∈ all := by
  cases operation <;> decide

def verb : Operation → HttpVerb
  | deleteByKey => .delete
  | getAll | getByKey => .get
  | postBulk | postSingle | searchByPost => .post
  | putBulk | putByKey => .put

def multiplicity : Operation → Multiplicity
  | deleteByKey | getByKey | postSingle | putByKey => .singular
  | getAll | postBulk | putBulk | searchByPost => .plural

/-- The part of the label behind the verb. -/
def name : Operation → String
  | deleteByKey | getByKey | putByKey => "by_key"
  | getAll => "all"
  | postBulk | putBulk => "bulk"
  | postSingle => "single"
  | searchByPost => "search"

def label (operation : Operation) : String := operation.verb.text ++ "_" ++ operation.name

/-- The name of the operation in settings and in written operations. -/
def key : Operation → String
  | deleteByKey => "delete_by_key"
  | getAll => "get_all"
  | getByKey => "get_by_key"
  | postBulk => "post_bulk"
  | postSingle => "post_single"
  | putBulk => "put_bulk"
  | putByKey => "put_by_key"
  | searchByPost => "search_by_post"

def isByKey (operation : Operation) : Bool := operation.name == "by_key"

def isBulk (operation : Operation) : Bool := operation.name == "bulk"

/-- The form in which labels are compared. -/
def normalize (text : String) : String := Text.lowercase (Text.trim text)

/-- The operation that a text denotes by its label or its key. -/
def ofLabel? (text : String) : Option Operation :=
  all.find? fun operation =>
    normalize text == operation.label || normalize text == operation.key

/-- All labels in ascending order. -/
def labels : List String :=
  [deleteByKey, getAll, getByKey, postBulk, searchByPost, postSingle, putBulk, putByKey].map label

def byVerb (verb : HttpVerb) : List Operation := all.filter (·.verb == verb)

def byMultiplicity (multiplicity : Multiplicity) : List Operation :=
  all.filter (·.multiplicity == multiplicity)

end Operation

end OntoSchema
