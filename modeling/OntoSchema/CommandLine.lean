import OntoSchema.CommandLine.Arguments
import OntoSchema.CommandLine.Session
import OntoSchema.Document.Configuration
import OntoSchema.Document.Ontology
import OntoSchema.Document.Output
import OntoSchema.Json.Printer
import OntoSchema.KeywordCheck

/-!
# The program

`CommandLine.session` turns command line arguments into a session. Configurations are read before
ontologies, and nothing is written before all checks have passed.
-/

namespace OntoSchema.CommandLine

/-- Whether a source is a web address, which cannot be loaded. -/
def isUrl (source : String) : Bool :=
  "http://".toList.isPrefixOf source.toList || "https://".toList.isPrefixOf source.toList

def jsonText (pretty : Bool) (value : Json) : String :=
  if pretty then value.pretty else value.compact

def loadConfiguration (path : Option String) (next : Configuration → Session) : Session :=
  .loadOptional path Configuration.parse? fun configuration => next (configuration.getD {})

/-- Goes on unless a build has failed. -/
def unlessFailed {α : Type} (result : Except BuildError α) (next : α → Session) : Session :=
  match result with
  | .error error => .fail error.exitCode ("Error: " ++ error.message)
  | .ok value => next value

def validationReport : ValidationError → String
  | .invalid problems =>
    "Example validation failed:" ++
      String.join (problems.map fun problem => "\n  " ++ problem.line)
  | .refused path reason => "Error: " ++ (ValidationError.refused path reason).message

/-- Writes or prints a compiled ontology. -/
def deliver (configuration : Configuration) (compilation : Compilation)
    (output markdown : Option String) (pretty : Bool) : Session :=
  let text := jsonText pretty compilation.toJson
  let tables := MarkdownTables.render compilation.markdown (configuration.annotations.getD {})
  .save markdown tables (.save output text
    (.finish { stdout := if output.isNone then text ++ "\n" else "" }))

def compileSession (source : String) (config output markdown : Option String)
    (pretty checkExamples : Bool) : Session :=
  loadConfiguration config fun configuration =>
    if isUrl source then .fail 3 ("Error: file not found: " ++ source)
    else
      .load source Ontology.parse? fun ontology =>
        unlessFailed (ontology.compile configuration .english) fun compilation =>
          let validated :=
            if checkExamples then validateExamples keywordCheck compilation.schemas else .ok ()
          match validated with
          | .ok () => deliver configuration compilation output markdown pretty
          | .error error => .fail error.exitCode (validationReport error)

def operationsSession (subject : String) (config : Option String) (pretty : Bool) : Session :=
  loadConfiguration config fun configuration =>
    unlessFailed (configuration.operationsOf .english subject) fun operations =>
      .finish { stdout := jsonText pretty operations.toJson ++ "\n" }

/-- A text in a terminal color. -/
def colored (color text : String) : String := "\x1b[" ++ color ++ "m" ++ text ++ "\x1b[0m"

def red : String := "31"

def green : String := "32"

def yellow : String := "33"

def findingLine (finding : Finding) : String :=
  let color := match finding.severity with
    | .error => red
    | .warning => yellow
  "  " ++ colored color (finding.severity.text ++ "[" ++ finding.code ++ "]") ++ ": " ++
    finding.path ++ " - " ++ finding.message ++ "\n"

def verdict (strict : Bool) (findings : List Finding) : String :=
  let warnings := toString (Finding.warningCount findings)
  if Finding.passes strict findings then
    colored green ("✓ configuration passed (" ++ warnings ++ " warnings)")
  else
    colored red ("✗ configuration failed (" ++ toString (Finding.errorCount findings) ++
      " errors, " ++ warnings ++ " warnings)")

def lintReport (path : String) (strict : Bool) (findings : List Finding) : String :=
  "Linting " ++ path ++ " ...\n\n" ++ String.join (findings.map findingLine) ++ "\n" ++
    verdict strict findings ++ "\n"

def lintSession (config : String) (ontology : Option String) (format : String) (strict : Bool) :
    Session :=
  .load config Configuration.parse? fun configuration =>
    .loadOptional ontology Ontology.parse? fun ontology =>
      let findings := configuration.lint ontology
      .finish {
        code := if Finding.passes strict findings then 0 else 1
        stdout :=
          if format = "json" then (Finding.summaryToJson findings).pretty ++ "\n"
          else lintReport config strict findings }

/-- What a wrong command line is told. -/
def usage : String :=
  "error: expected a subcommand: compile ONTOLOGY, operations --class CLASS, or lint --config FILE"

/-- The session of a command line. -/
def session (arguments : List String) : Session :=
  match command? arguments with
  | none => .fail 2 usage
  | some (.compile source config output markdown pretty checkExamples) =>
    compileSession source config output markdown pretty checkExamples
  | some (.operations subject config pretty) => operationsSession subject config pretty
  | some (.lint config ontology format strict) => lintSession config ontology format strict

end OntoSchema.CommandLine
