import OntoSchema.CommandLine

/-!
# The executable

Runs the session of the command line on the file system.
-/

namespace OntoSchema.CommandLine

/-- Whether nothing is at a path: no such entry, a path that none can have, or a file where a
directory should be, which is error 20, with either sign. -/
def isMissing : IO.Error → Bool
  | .noFileOrDirectory .. | .invalidArgument .. => true
  | .inappropriateType _ code _ => code == 20 || code == -20
  | _ => false

/-- Answers the requests of a session from the file system. -/
def Session.perform : Session → IO UInt32
  | finish outcome => do
    IO.print outcome.stdout
    IO.eprint outcome.stderr
    return UInt32.ofNat outcome.code
  | read path next => do
    let found ← (IO.FS.readFile path).toBaseIO
    match found with
    | .ok text => (next (.ok text)).perform
    | .error error =>
      let failure : ReadFailure :=
        if isMissing error then .missing else .unreadable (toString error)
      (next (.error failure)).perform
  | write path text next => do
    let done ← (IO.FS.writeFile path text).toBaseIO
    match done with
    | .ok _ => (next (.ok ())).perform
    | .error error => (next (.error (toString error))).perform

end OntoSchema.CommandLine

def main (arguments : List String) : IO UInt32 :=
  (OntoSchema.CommandLine.session arguments).perform
