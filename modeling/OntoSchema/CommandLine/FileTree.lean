import OntoSchema.CommandLine.Session

/-!
# Files in memory

A `FileTree` answers the requests of a session from memory. Paths lead through existing directories
only. An entry is known by its names from the working directory; `..` stands in front for every
level above it, and `/` for the top of the file system.
-/

namespace OntoSchema.CommandLine

inductive FileTree.Entry where
  | directory
  | text (content : String)
  /-- A file that holds no text. -/
  | binary
  /-- A file that is empty whatever is written to it. -/
  | sink
deriving DecidableEq

/-- Entries by the names on the way to them; what lies above an entry is a directory. -/
abbrev FileTree := List (List String × FileTree.Entry)

namespace FileTree

/-- An empty working directory, and what every system has around it. -/
def bare : FileTree :=
  (["/", "dev", "null"], .sink) ::
    ["bin", "etc", "home", "proc", "root", "tmp", "usr", "var"].map fun name =>
      (["/", name], .directory)

/-- The names in a path; an empty one at the end asks for a directory. -/
def splitPath (path : String) : List String := path.splitOn "/"

/-- Whether names lead to the working directory, a directory above it, or the top. -/
def isAncestor (names : List String) : Bool := names.all (· = "..") || names = ["/"]

/-- The directory above a directory; the top is above itself. -/
def parent (names : List String) : List String :=
  if names = ["/"] then names
  else if names.all (· = "..") then ".." :: names
  else names.dropLast

def entry? (tree : FileTree) (names : List String) : Option Entry :=
  match tree.lookup names with
  | some entry => some entry
  | none =>
    if isAncestor names || tree.any fun entry => names.isPrefixOf entry.1 then some .directory
    else none

/-- Where a path leads. -/
inductive Place where
  | found (names : List String) (entry : Entry)
  /-- Nothing is there, but a file of this name could be. -/
  | free (names : List String)
  | nowhere

/-- Follows the names of a path from a directory. A name has at most 255 bytes. -/
def follow (tree : FileTree) (here : List String) : List String → Place
  | [] => .found here .directory
  | name :: rest =>
    if name = "" || name = "." then follow tree here rest
    else if name = ".." then follow tree (parent here) rest
    else if 255 < name.utf8ByteSize then .nowhere
    else
      match tree.entry? (here ++ [name]), rest with
      | some .directory, rest => follow tree (here ++ [name]) rest
      | some entry, [] => .found (here ++ [name]) entry
      | none, [] => .free (here ++ [name])
      | _, _ :: _ => .nowhere

/-- A path that starts with a slash is followed from the top. A path has less than 4096 bytes. -/
def locate (tree : FileTree) (path : String) : Place :=
  if 4096 ≤ path.utf8ByteSize then .nowhere
  else
    match path.toList with
    | [] => .nowhere
    | '/' :: _ => tree.follow ["/"] (splitPath path)
    | _ => tree.follow [] (splitPath path)

def read (tree : FileTree) (path : String) : Except ReadFailure String :=
  match tree.locate path with
  | .found _ (.text content) => .ok content
  | .found _ .sink => .ok ""
  | .found _ .binary => .error (.unreadable "not a text")
  | .found _ .directory => .error (.unreadable "is a directory")
  | .free _ | .nowhere => .error .missing

def put (tree : FileTree) (names : List String) (content : String) : FileTree :=
  (names, .text content) :: tree.filter fun entry => entry.1 ≠ names

/-- The tree after a file was written, if it can be. -/
def write (tree : FileTree) (path content : String) : Except String FileTree :=
  match tree.locate path with
  | .found names (.text _) | .found names .binary | .free names => .ok (tree.put names content)
  | .found _ .sink => .ok tree
  | .found _ .directory => .error "is a directory"
  | .nowhere => .error "no such directory"

/-- Adds an entry under a path; a slash at the end makes it a directory. -/
def add (tree : FileTree) (path : String) (entry : Entry) : FileTree :=
  let names := (splitPath path).filter fun name => name ≠ "" && name ≠ "."
  (names, entry) :: tree.filter fun other => other.1 ≠ names

end FileTree

/-- Runs a session on files in memory. -/
def Session.run (tree : FileTree) : Session → Outcome × FileTree
  | finish outcome => (outcome, tree)
  | read path next => (next (tree.read path)).run tree
  | write path text next =>
    match tree.write path text with
    | .ok tree => (next (.ok ())).run tree
    | .error reason => (next (.error reason)).run tree

end OntoSchema.CommandLine
