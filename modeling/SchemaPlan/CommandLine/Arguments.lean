import SchemaPlan.Generation

/-!
# Arguments of the command line

A command and its options. An option that takes a value may have it in the same argument or in the
next one, which may not look like an option itself; short options may share an argument. Only
`--sql-path` may be given more than once.
-/

namespace SchemaPlan.CommandLine

/-- What to write. -/
inductive Command where
  /-- The plans and the model. -/
  | plan
  /-- The model alone. -/
  | model
deriving Repr, DecidableEq, Inhabited

/-- A command with its options. -/
structure Request where
  command : Command
  project : Option String := none
  paths : List String := []
  procedurePrefix : Option String := none
  defaultSchema : Option String := none
  /-- The file to write instead of standard output. -/
  output : Option String := none
  /-- Steps are reported as they are done. -/
  isVerbose : Bool := false
deriving Repr, DecidableEq, Inhabited

namespace Request

/-- What a request asks to generate. -/
def options (request : Request) : GenerationOptions :=
  { project := request.project, paths := request.paths,
    procedurePrefix := request.procedurePrefix.getD "", defaultSchema := request.defaultSchema }

end Request

/-- Why arguments are no request. -/
inductive Refusal where
  /-- The user asks what there is to say. -/
  | help
  /-- The user asks which version this is. -/
  | version
  | missingCommand
  | unknownCommand (word : String)
  | unexpected (argument : String)
  | missingValue (option : String)
  | repeated (option : String)
  | missingInput
deriving Repr, DecidableEq, Inhabited

/-- The options. -/
inductive OptionName where
  | project
  | sqlPath
  | procedurePrefix
  | defaultSchema
  | output
  | verbose
  | help
deriving Repr, DecidableEq, Inhabited

namespace OptionName

/-- The long spelling of an option. -/
def long : OptionName → String
  | project => "project"
  | sqlPath => "sql-path"
  | procedurePrefix => "prefix"
  | defaultSchema => "default-schema"
  | output => "output"
  | verbose => "verbose"
  | help => "help"

/-- All options. -/
def all : List OptionName :=
  [project, sqlPath, procedurePrefix, defaultSchema, output, verbose, help]

/-- The option of a long spelling. -/
def ofLong? (word : String) : Option OptionName := all.find? fun option => option.long == word

/-- The option of a letter. -/
def ofLetter? : Char → Option OptionName
  | 'p' => some project
  | 'o' => some output
  | 'v' => some verbose
  | 'h' => some help
  | _ => none

/-- Whether an option takes a value. -/
def takesValue : OptionName → Bool
  | verbose | help => false
  | _ => true

end OptionName

/-- A request with the value of an option. Paths may not be empty. -/
def setValue (request : Request) (option : OptionName) (value : String) : Except Refusal Request :=
  let isPath := option = .project || option = .sqlPath || option = .output
  let repeated := Except.error (Refusal.repeated option.long)
  if isPath && value.isEmpty then .error (.missingValue option.long)
  else match option with
    | .project => if request.project.isSome then repeated else .ok { request with project := some value }
    | .sqlPath => .ok { request with paths := request.paths ++ [value] }
    | .procedurePrefix =>
      if request.procedurePrefix.isSome then repeated
      else .ok { request with procedurePrefix := some value }
    | .defaultSchema =>
      if request.defaultSchema.isSome then repeated
      else .ok { request with defaultSchema := some value }
    | .output => if request.output.isSome then repeated else .ok { request with output := some value }
    | .verbose | .help => .error (.unexpected value)

/-- A request with an option that takes no value. -/
def setFlag (request : Request) (option : OptionName) : Except Refusal Request :=
  match option with
  | .help => .error .help
  | _ =>
    if request.isVerbose then .error (.repeated option.long)
    else .ok { request with isVerbose := true }

/-- Whether an argument looks like an option. A single dash does not. -/
def looksLikeOption (argument : String) : Bool :=
  Text.startsWith "-" argument && argument ≠ "-"

/-- The options that share an argument, and the option that takes its value from the next
argument, if there is one. -/
def readLetters (request : Request) : List Char → Except Refusal (Request × Option OptionName)
  | [] => .ok (request, none)
  | letter :: rest =>
    match OptionName.ofLetter? letter with
    | none => .error (.unexpected (String.ofList ['-', letter]))
    | some option =>
      if option.takesValue then
        match rest with
        | [] => .ok (request, some option)
        | '=' :: value => (setValue request option (String.ofList value)).map (·, none)
        | value => (setValue request option (String.ofList value)).map (·, none)
      else
        match setFlag request option with
        | .ok request => readLetters request rest
        | .error refusal => .error refusal

/-- A word before an equals sign, and the text after the sign. -/
def splitValue (word : String) : String × Option String :=
  let chars := word.toList
  let name := chars.takeWhile (· ≠ '=')
  match chars.drop name.length with
  | _ :: value => (String.ofList name, some (String.ofList value))
  | [] => (word, none)

/-- The option that an argument spells, and the option that takes its value from the next
argument, if there is one. -/
def readOption (request : Request) (argument : String) :
    Except Refusal (Request × Option OptionName) :=
  match Text.after? "--" argument with
  | none => readLetters request (argument.toList.drop 1)
  | some word =>
    let (name, value) := splitValue word
    match OptionName.ofLong? name, value with
    | none, _ => .error (.unexpected argument)
    | some option, some value => (setValue request option value).map (·, none)
    | some option, none =>
      if option.takesValue then .ok (request, some option)
      else (setFlag request option).map (·, none)

/-- The request with the options of arguments; an option may wait for its value. -/
def readOptions (request : Request) (waiting : Option OptionName) :
    List String → Except Refusal Request
  | [] =>
    match waiting with
    | some option => .error (.missingValue option.long)
    | none => .ok request
  | argument :: rest =>
    match waiting with
    | some option =>
      if looksLikeOption argument then .error (.missingValue option.long)
      else match setValue request option argument with
        | .ok request => readOptions request none rest
        | .error refusal => .error refusal
    | none =>
      if argument = "--" then
        match rest with
        | [] => .ok request
        | next :: _ => .error (.unexpected next)
      else if looksLikeOption argument then
        match readOption request argument with
        | .ok (request, waiting) => readOptions request waiting rest
        | .error refusal => .error refusal
      else .error (.unexpected argument)

/-- A request needs something to read. -/
def checkInput (request : Request) : Except Refusal Request :=
  if request.project.isNone && request.paths.isEmpty then .error .missingInput else .ok request

/-- The request of a command with arguments. -/
def readCommand (command : Command) (arguments : List String) : Except Refusal Request :=
  (readOptions { command } none arguments).bind checkInput

/-- The request that arguments spell. -/
def readArguments : List String → Except Refusal Request
  | [] => .error .missingCommand
  | "plan" :: rest => readCommand .plan rest
  | "model" :: rest => readCommand .model rest
  | "help" :: [] => .error .help
  | "help" :: word :: [] =>
    if ["plan", "model", "help"].contains word then .error .help else .error (.unknownCommand word)
  | word :: _ =>
    if word = "-h" || word = "--help" then .error .help
    else if word = "-V" || word = "--version" then .error .version
    else if looksLikeOption word then .error (.unexpected word)
    else .error (.unknownCommand word)

end SchemaPlan.CommandLine
