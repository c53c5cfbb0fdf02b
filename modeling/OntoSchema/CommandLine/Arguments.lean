/-!
# Command line arguments

A line is a subcommand with options, flags and at most one operand. Options take a value behind an
equals sign or in the next argument, and short forms may be bundled. An option or flag may be given
only once, except the one that asks for more log messages, which may stand anywhere.
-/

namespace OntoSchema.CommandLine

inductive Command where
  | compile (source : String) (config output markdown : Option String)
      (pretty checkExamples : Bool)
  | operations (subject : String) (config : Option String) (pretty : Bool)
  | lint (config : String) (ontology : Option String) (format : String) (strict : Bool)
deriving DecidableEq

/-- An option or a flag of a subcommand. -/
structure Switch where
  name : String
  short : Option Char := none
  takesValue : Bool := false
  /-- A file name must not be empty. -/
  isFile : Bool := false

/-- The arguments of a subcommand, sorted out. -/
structure Arguments where
  values : List (String × String) := []
  flags : List String := []
  operands : List String := []

namespace Arguments

variable (arguments : Arguments)

def value? (name : String) : Option String := arguments.values.lookup name

def hasFlag (name : String) : Bool := arguments.flags.contains name

/-- Notes a flag; a second time is refused. -/
def addFlag? (name : String) : Option Arguments :=
  if name = "verbose" then some arguments
  else if arguments.hasFlag name then none
  else some { arguments with flags := name :: arguments.flags }

/-- Notes the value of an option; a second value is refused. -/
def addValue? (switch : Switch) (value : String) : Option Arguments :=
  if (arguments.value? switch.name).isSome || (switch.isFile && value = "") then none
  else some { arguments with values := (switch.name, value) :: arguments.values }

def addOperand (operand : String) : Arguments :=
  { arguments with operands := arguments.operands ++ [operand] }

end Arguments

def verbose : Switch := { name := "verbose", short := some 'v' }

/-- What an argument asks for, given the switches of the subcommand. -/
inductive Reading where
  /-- All is noted. -/
  | done (arguments : Arguments)
  /-- The next argument is the value. -/
  | awaiting (switch : Switch) (arguments : Arguments)
  | refused

/-- Notes a switch without an attached value. -/
def useSwitch (arguments : Arguments) (switch : Switch) : Reading :=
  if switch.takesValue then .awaiting switch arguments
  else
    match arguments.addFlag? switch.name with
    | some arguments => .done arguments
    | none => .refused

def useValue (arguments : Arguments) (switch : Switch) (value : List Char) : Reading :=
  if switch.takesValue then
    match arguments.addValue? switch (String.ofList value) with
    | some arguments => .done arguments
    | none => .refused
  else .refused

/-- Reads the text behind two hyphens. -/
def readLong (switches : List Switch) (arguments : Arguments) (text : List Char) : Reading :=
  let name := String.ofList (text.takeWhile (· != '='))
  match switches.find? (·.name == name), text.dropWhile (· != '=') with
  | none, _ => .refused
  | some switch, [] => useSwitch arguments switch
  | some switch, _ :: value => useValue arguments switch value

/-- Reads the letters behind one hyphen. -/
def readShort (switches : List Switch) (arguments : Arguments) : List Char → Reading
  | [] => .done arguments
  | letter :: rest =>
    match switches.find? (·.short == some letter) with
    | none => .refused
    | some switch =>
      if switch.takesValue then
        match rest with
        | [] => .awaiting switch arguments
        | '=' :: value => useValue arguments switch value
        | value => useValue arguments switch value
      else
        match arguments.addFlag? switch.name with
        | some arguments => readShort switches arguments rest
        | none => .refused

def readArgument (switches : List Switch) (arguments : Arguments) (text : String) : Reading :=
  match text.toList with
  | '-' :: '-' :: rest => readLong switches arguments rest
  | '-' :: letter :: rest => readShort switches arguments (letter :: rest)
  | _ => .done (arguments.addOperand text)

/-- Whether an argument can stand as a value of its own. -/
def isPlain (text : String) : Bool :=
  match text.toList with
  | '-' :: _ :: _ => false
  | _ => true

/-- Reads the arguments behind a subcommand. -/
def readArguments (switches : List Switch) (arguments : Arguments) :
    List String → Option Arguments
  | [] => some arguments
  | "--" :: operands =>
    some { arguments with operands := arguments.operands ++ operands }
  | text :: rest =>
    match readArgument switches arguments text, rest with
    | .done arguments, rest => readArguments switches arguments rest
    | .awaiting switch arguments, value :: rest =>
      if isPlain value then
        match arguments.addValue? switch value with
        | some arguments => readArguments switches arguments rest
        | none => none
      else none
    | _, _ => none

def configSwitch : Switch :=
  { name := "config", short := some 'c', takesValue := true, isFile := true }

def fileSwitch (name : String) : Switch := { name, takesValue := true, isFile := true }

def compile? (texts : List String) : Option Command := do
  let arguments ← readArguments
    [verbose, configSwitch, fileSwitch "output", { name := "pretty" }, fileSwitch "markdown",
      { name := "check-examples" }] {} texts
  match arguments.operands with
  | [source] =>
    return .compile source (arguments.value? "config") (arguments.value? "output")
      (arguments.value? "markdown") (arguments.hasFlag "pretty")
      (arguments.hasFlag "check-examples")
  | _ => none

def operations? (texts : List String) : Option Command := do
  let arguments ← readArguments
    [verbose, { name := "class", takesValue := true }, configSwitch, { name := "pretty" }] {} texts
  match arguments.operands with
  | [] =>
    return .operations (← arguments.value? "class") (arguments.value? "config")
      (arguments.hasFlag "pretty")
  | _ => none

def lint? (texts : List String) : Option Command := do
  let arguments ← readArguments
    [verbose, configSwitch, fileSwitch "ontology", { name := "format", takesValue := true },
      { name := "strict" }] {} texts
  match arguments.operands with
  | [] =>
    return .lint (← arguments.value? "config") (arguments.value? "ontology")
      ((arguments.value? "format").getD "text") (arguments.hasFlag "strict")
  | _ => none

/-- Reads a command line. -/
def command? : List String → Option Command
  | [] => none
  | "compile" :: rest => compile? rest
  | "operations" :: rest => operations? rest
  | "lint" :: rest => lint? rest
  | text :: rest =>
    match text.toList, readArgument [verbose] {} text with
    | '-' :: _ :: _, .done _ => command? rest
    | _, _ => none

end OntoSchema.CommandLine
