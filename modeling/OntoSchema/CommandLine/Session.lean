/-!
# Sessions

A `Session` is a run of the program as a tree of requests to the file system: it reads and writes
files and ends with an exit code and what it prints. Whoever runs a session answers its requests.
-/

namespace OntoSchema.CommandLine

inductive ReadFailure where
  | missing
  | unreadable (reason : String)

structure Outcome where
  code : Nat := 0
  stdout : String := ""
  stderr : String := ""

inductive Session where
  | read (path : String) (next : Except ReadFailure String → Session)
  | write (path text : String) (next : Except String Unit → Session)
  | finish (outcome : Outcome)

namespace Session

/-- Ends with an exit code and a message. -/
def fail (code : Nat) (message : String) : Session :=
  finish { code, stderr := message ++ "\n" }

/-- Reads a document; `parse` is its reader. -/
def load {α : Type} (path : String) (parse : String → Option α) (next : α → Session) : Session :=
  read path fun
    | .error .missing => fail 3 ("Error: file not found: " ++ path)
    | .error (.unreadable reason) => fail 3 ("Error: cannot read " ++ path ++ ": " ++ reason)
    | .ok text =>
      match parse text with
      | some document => next document
      | none => fail 2 "Error: invalid JSON: not a document of the expected shape"

/-- Reads a document if there is a path for it. -/
def loadOptional {α : Type} (path : Option String) (parse : String → Option α)
    (next : Option α → Session) : Session :=
  match path with
  | none => next none
  | some path => load path parse fun document => next (some document)

/-- Writes a file if there is a path for it. -/
def save (path : Option String) (text : String) (next : Session) : Session :=
  match path with
  | none => next
  | some path => write path text fun
    | .ok _ => next
    | .error reason => fail 3 ("Error writing to " ++ path ++ ": " ++ reason)

end Session

end OntoSchema.CommandLine
