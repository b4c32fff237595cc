import SchemaPlan.CommandLine.Arguments

/-!
# Running a command

What a run prints, how it ends, and what it tells about failures. A procedure that cannot be
resolved is no more than a warning.
-/

namespace SchemaPlan.CommandLine

/-- How a run ends. -/
inductive Ending where
  | done
  | failed (e : LoadError)
  | refused (refusal : Refusal)
deriving Repr, DecidableEq, Inhabited

/-- What a run leaves behind. -/
structure Outcome where
  /-- The text for standard output. -/
  output : String
  warnings : List LoadError
  ending : Ending
deriving Repr, DecidableEq, Inhabited

/-! ## Messages -/

/-- How the program is used. -/
def usage : String :=
  Text.joinWith "\n"
    ["Usage: schema-plan <plan|model> [OPTIONS] <--project <PROJECT>|--sql-path <SQL_PATHS>>",
     "",
     "Commands:",
     "  plan   Write the code plans and the schema as JSON",
     "  model  Write only the schema as JSON",
     "",
     "Options:",
     "  -p, --project <PROJECT>                Project file",
     "      --sql-path <SQL_PATHS>             Script or directory to include (repeatable)",
     "      --prefix <PREFIX>                  Start of procedure names that methods go without",
     "      --default-schema <DEFAULT_SCHEMA>  Schema of names without one",
     "  -o, --output <OUTPUT>                  Write here instead of standard output",
     "  -v, --verbose                          Report each step",
     "  -h, --help                             Print this text"]

/-- The version of the program. -/
def versionText : String := "schema-plan 0.1.0"

/-- What is wrong with the arguments. -/
def Refusal.message : Refusal → String
  | help => usage
  | version => versionText
  | missingCommand => usage
  | unknownCommand word => "error: unrecognized command '" ++ word ++ "'"
  | unexpected argument => "error: unexpected argument '" ++ argument ++ "'"
  | missingValue option => "error: a value is required for '--" ++ option ++ "'"
  | repeated option => "error: '--" ++ option ++ "' cannot be used multiple times"
  | missingInput => "error: one of '--project' and '--sql-path' is required"

/-- Whether a refusal is what the user asked for. -/
def Refusal.isAnswer : Refusal → Bool
  | help | version => true
  | _ => false

/-- The warning for a failure, with its cause after it. -/
def warningOf (e : LoadError) : String :=
  let cause := match e.causeText? with
    | some text => ": " ++ text
    | none => ""
  "warning: " ++ e.message ++ cause

/-- The text of a failure that ends a run. The lines of its cause are indented. -/
def failureText (e : LoadError) : String :=
  let cause := match e.causeText? with
    | some text => "\n\nCaused by:\n    " ++ Text.replaceChar '\n' "\n    " text
    | none => ""
  "Error: " ++ e.message ++ cause

namespace Outcome

/-- The status that the program exits with. -/
def exitCode (outcome : Outcome) : Nat :=
  match outcome.ending with
  | .done => 0
  | .failed _ => 1
  | .refused refusal => if refusal.isAnswer then 0 else 2

/-- The texts for standard error, in order. -/
def errors (outcome : Outcome) : List String :=
  outcome.warnings.map warningOf ++
    match outcome.ending with
    | .done => []
    | .failed e => [failureText e]
    | .refused refusal => if refusal.isAnswer then [] else [refusal.message]

end Outcome

/-! ## Running -/

variable {m : Type → Type} [Monad m]

/-- The document of a request, and the failures of procedures. -/
def document (fs : FileSystem m) (request : Request) : Generation m (Json × List LoadError) := do
  match request.command with
  | .plan =>
    let generated ← generate fs request.options
    return (generated.toJson, generated.failures)
  | .model =>
    let loaded ← loadFiles fs request.options
    return (loaded.model.toJson, loaded.failures)

/-- What a verbose run prints about its steps. -/
def report (request : Request) (done : List Milestone) : String :=
  if request.isVerbose then String.join (done.map fun milestone => milestone.line ++ "\n") else ""

/-- Runs a request. -/
def runRequest (fs : FileSystem m) (request : Request) : m Outcome := do
  let (result, done) ← (document fs request).run.run []
  let steps := report request done
  match result with
  | .error e => return ⟨steps, [], .failed e⟩
  | .ok (value, warnings) =>
    match request.output with
    | none => return ⟨steps ++ value.document ++ "\n", warnings, .done⟩
    | some path =>
      match ← fs.write path value.document with
      | .ok () => return ⟨steps, warnings, .done⟩
      | .error reason => return ⟨steps, warnings, .failed (.unwritable path reason)⟩

/-- Runs the program with arguments. -/
def run (fs : FileSystem m) (arguments : List String) : m Outcome := do
  match readArguments arguments with
  | .ok request => runRequest fs request
  | .error refusal =>
    let answer := if refusal.isAnswer then refusal.message ++ "\n" else ""
    return ⟨answer, [], .refused refusal⟩

end SchemaPlan.CommandLine
