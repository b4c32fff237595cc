import SchemaPlan.Query.Text
import SchemaPlan.Sql.Token.Scan

/-!
# Parsers over tokens

A `Parser α` reads from the head of a list of tokens without blanks. It fails with the line that
the failure is reported at. Parsers try alternatives with `maybe`, which takes back what it read;
nesting that is too deep ends the whole parse and is never taken back.

Grammar rules that contain one another are tied together through `Nested`: each rule is written
over the parsers for the constructs inside it.
-/

namespace SchemaPlan.Grammar

open SchemaPlan.Sql SchemaPlan.Query

/-- Why a text does not follow the grammar. -/
inductive SyntaxError where
  /-- Something else was expected; the line is missing at the end of the text. -/
  | unexpected (line : Option Nat)
  /-- Constructs are nested deeper than the limit. -/
  | tooDeep
deriving Repr, DecidableEq, Inhabited

/-- The message of a failure. -/
def SyntaxError.message : SyntaxError → String
  | .unexpected (some line) => "sql parser error: unexpected text at Line: " ++ toString line
  | .unexpected none => "sql parser error: unexpected end of text"
  | .tooDeep => "sql parser error: nested too deep"

/-- The line a failure is reported at; the first where it names none. -/
def SyntaxError.line : SyntaxError → Nat
  | .unexpected (some line) => line
  | _ => 1

/-- A reader of tokens that may fail. -/
abbrev Parser := StateT (List PlacedToken) (Except SyntaxError)

/-! ## Failure -/

/-- The number that follows the words `Line:` at the head of a text. -/
def lineNumberAtHead? (chars : List Char) : Option Nat :=
  if "Line:".toList.isPrefixOf chars then
    let digits := ((chars.drop 5).dropWhile Text.isSpace).takeWhile Char.isDigit
    if digits.isEmpty then none
    else some ((Text.natBelow? 18446744073709551616 (String.ofList digits)).getD 1)
  else none

/-- The first number that a text states in the form `Line: n`. -/
def statedLine? : List Char → Option Nat
  | [] => none
  | c :: rest =>
    match lineNumberAtHead? (c :: rest) with
    | some n => some n
    | none => statedLine? rest

/-- The line a failure at a token is reported at: the line the token itself states, if its text
has the form of a report, or else the line it stands on. -/
def reportLine (placed : PlacedToken) : Nat :=
  (statedLine? placed.token.text.toList).getD placed.line

/-- Fail at a given token. -/
def refuseAt {α : Type} (placed : PlacedToken) : Parser α :=
  throw (.unexpected (some (reportLine placed)))

/-- Fail without a place. -/
def refuseAnywhere {α : Type} : Parser α :=
  throw (.unexpected none)

/-- Fail at the token that comes next. -/
def refuse {α : Type} : Parser α := do
  match ← get with
  | placed :: _ => refuseAt placed
  | [] => refuseAnywhere

/-- What a parser yields, or nothing where it fails; then nothing is read. -/
def maybe {α : Type} (parser : Parser α) : Parser (Option α) := fun tokens =>
  match parser tokens with
  | .ok (value, rest) => .ok (some value, rest)
  -- Nesting that is too deep says nothing about what stands here, so it is no reason to go on.
  | .error .tooDeep => .error .tooDeep
  | .error _ => .ok (none, tokens)

/-! ## Tokens -/

/-- The next token, which is not read. -/
def peek? : Parser (Option Token) := do
  match ← get with
  | placed :: _ => return some placed.token
  | [] => return none

/-- Whether a token comes next that satisfies `p`. -/
def sees (p : Token → Bool) : Parser Bool := do
  return (← peek?).any p

/-- The next token, or nothing at the end. -/
def next? : Parser (Option PlacedToken) := do
  match ← get with
  | placed :: rest =>
    set rest
    return some placed
  | [] => return none

/-- Pass over the next token if there is one. -/
def skip : Parser Unit := do
  discard next?

/-- Read a token that satisfies `p`, if it comes next, and tell whether it did. -/
def accepts (p : Token → Bool) : Parser Bool := do
  if ← sees p then
    skip
    return true
  else return false

/-- Read a token that has to satisfy `p`. -/
def expect (p : Token → Bool) : Parser Unit := do
  if !(← accepts p) then refuse

/-- Whether a mark comes next. -/
def seesMark (mark : Mark) : Parser Bool := sees (·.isMark mark)

/-- Read a mark if it comes next. -/
def mark? (mark : Mark) : Parser Bool := accepts (·.isMark mark)

/-- Read a mark that has to come next. -/
def expectMark (mark : Mark) : Parser Unit := expect (·.isMark mark)

/-- Whether a keyword comes next. -/
def seesKeyword (keyword : String) : Parser Bool := sees (·.isKeyword keyword)

/-- Whether one of several keywords comes next. -/
def seesOneOf (keywords : List String) : Parser Bool :=
  sees fun token => keywords.any token.isKeyword

/-- Read a keyword if it comes next. -/
def keyword? (keyword : String) : Parser Bool := accepts (·.isKeyword keyword)

/-- Read a keyword that has to come next. -/
def expectKeyword (keyword : String) : Parser Unit := expect (·.isKeyword keyword)

/-- Whether the tokens start with the keywords in order. -/
def startsWithKeywords : List String → List PlacedToken → Bool
  | [], _ => true
  | _ :: _, [] => false
  | keyword :: keywords, placed :: rest =>
    placed.token.isKeyword keyword && startsWithKeywords keywords rest

/-- Read all of the keywords if they come next in order. -/
def keywords? (keywords : List String) : Parser Bool := do
  let tokens ← get
  if startsWithKeywords keywords tokens then
    set (tokens.drop keywords.length)
    return true
  else return false

/-- Read keywords that have to come next in order. -/
def expectKeywords : List String → Parser Unit
  | [] => return
  | keyword :: rest => do
    expectKeyword keyword
    expectKeywords rest

/-- Read one of the keywords if it comes next, and tell which. -/
def oneOf? (keywords : List String) : Parser (Option String) := do
  match ← peek? with
  | some token =>
    match keywords.find? token.isKeyword with
    | some keyword =>
      skip
      return some keyword
    | none => return none
  | none => return none

/-- Read one of the keywords, which has to come next. -/
def expectOneOf (keywords : List String) : Parser String := do
  match ← oneOf? keywords with
  | some keyword => return keyword
  | none => refuse

/-! ## Repetition -/

/-- Repeat a step from a state until it yields nothing. Every step but the last reads a token, so
the number of tokens bounds the repetition. -/
def iterate {σ : Type} (step : σ → Parser (Option σ)) (start : σ) : Parser σ := fun tokens =>
  go (tokens.length + 1) start tokens
where
  /-- At most `fuel` steps. -/
  go : Nat → σ → Parser σ
    | 0, state => return state
    | fuel + 1, state => do
      match ← step state with
      | some next => go fuel next
      | none => return state

/-- What a step yields each time until it yields nothing. -/
def many {α : Type} (step : Parser (Option α)) : Parser (List α) := do
  let found ← iterate (fun found => do return (← step).map (· :: found)) []
  return found.reverse

/-- One or more constructs with a mark between neighbours. -/
def separated {α : Type} (mark : Mark) (parser : Parser α) : Parser (List α) := do
  let first ← parser
  let more ← many do
    if ← mark? mark then return some (← parser)
    else return none
  return first :: more

/-- One or more constructs with commas between neighbours. -/
def commaSeparated {α : Type} (parser : Parser α) : Parser (List α) :=
  separated .comma parser

/-- A construct in parentheses. -/
def parenthesized {α : Type} (parser : Parser α) : Parser α := do
  expectMark .openParen
  let value ← parser
  expectMark .closeParen
  return value

/-! ## Names and literals -/

/-- The name that a word token spells. -/
def wordName (text : String) : Quote → Ident
  | .bare => ⟨text, none⟩
  | .bracket => ⟨text, some '['⟩
  | .double => ⟨text, some '"'⟩

/-- A name: any word, or a text in single quotes. -/
def identifier : Parser Ident := do
  match ← next? with
  | some ⟨.word text quote, _⟩ => return wordName text quote
  | some ⟨.literal .plain text, _⟩ => return ⟨text, some '\''⟩
  | some placed => refuseAt placed
  | none => refuseAnywhere

/-- A dotted name. -/
def objectName : Parser (List Ident) := separated .period identifier

/-- Names in parentheses. -/
def columnList : Parser (List Ident) := parenthesized (commaSeparated identifier)

/-- Names in parentheses, if a parenthesis comes next. -/
def columnList? : Parser (List Ident) := do
  if ← seesMark .openParen then columnList else return []

/-- A text in quotes, or a word. -/
def literalText : Parser String := do
  match ← next? with
  | some ⟨.literal .plain text, _⟩ => return text
  | some ⟨.word text _, _⟩ => return text
  | some placed => refuseAt placed
  | none => refuseAnywhere

/-- A whole number below two to the sixty-fourth. -/
def literalNumber : Parser Nat := do
  match ← next? with
  | some ⟨.number digits long, line⟩ =>
    match Text.natBelow? 18446744073709551616 digits with
    | some n => return n
    | none => refuseAt ⟨.number digits long, line⟩
  | some placed => refuseAt placed
  | none => refuseAnywhere

/-- A literal value. -/
inductive Literal where
  | number (text : String)
  | placeholder (text : String)
  | other (text : String)
deriving Repr, DecidableEq, Inhabited

/-- The text of a literal value. -/
def Literal.text : Literal → String
  | .number text => text
  | .placeholder text => text
  | .other text => text

/-- The name of a parameter after a colon or an at sign. -/
def placeholderName (sign : String) : Parser Literal := do
  match ← next? with
  | some ⟨.word text _, _⟩ => return .placeholder (sign ++ text)
  | some ⟨.number digits false, _⟩ => return .placeholder (sign ++ digits)
  | some placed => refuseAt placed
  | none => refuseAnywhere

/-- A literal value: a number, a string of any kind, `NULL` or a parameter. -/
def literal : Parser Literal := do
  match ← next? with
  | none => refuseAnywhere
  | some placed =>
    match placed.token with
    | .number digits long => return .number (digits ++ if long then "L" else "")
    | .literal .plain text => return .other (quoted '\'' text)
    | .literal .national text => return .other ("N'" ++ text ++ "'")
    | .literal .escaped text => return .other ("E'" ++ text ++ "'")
    | .literal .binary text => return .other ("X'" ++ text ++ "'")
    | .dollar tag text => return .other (Token.dollar tag text).text
    | .placeholder text => return .placeholder text
    | .word text .double => return .other (quoted '"' text)
    | .word text .bare => if spells "NULL" text then return .other "NULL" else refuseAt placed
    | .mark .colon => placeholderName ":"
    | .mark .at => placeholderName "@"
    | _ => refuseAt placed

/-! ## Nested constructs -/

/-- A type as it is written back, with the two properties that the grammar asks for. -/
structure TypeText where
  text : String
  /-- The type is named by its user. -/
  custom : Bool := false
  /-- The type is a span of time. -/
  interval : Bool := false
deriving Repr, DecidableEq, Inhabited

/-- The parsers for constructs inside a construct. -/
structure Nested where
  /-- An expression of operators that bind tighter than a level. -/
  expr : Nat → Parser Expr
  /-- An operand without operators after it. -/
  operand : Parser Expr
  type : Parser TypeText
  query : Parser Query
  /-- A query body of set operations that bind tighter than a level. -/
  body : Nat → Parser Body
  source : Parser JoinedSource
  factor : Parser Factor

/-- Pieces with a separator between neighbours. -/
def intersperse (separator : String) : List (List Piece) → List Piece
  | [] => []
  | [pieces] => pieces
  | pieces :: rest => pieces ++ .text separator :: intersperse separator rest

/-- Expressions with commas between them, as pieces. -/
def listPieces (exprs : List Expr) : List Piece :=
  intersperse ", " (exprs.map fun expr => [.expr expr])

end SchemaPlan.Grammar
