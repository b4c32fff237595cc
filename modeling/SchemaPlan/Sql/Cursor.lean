import SchemaPlan.Sql.DeclaredType
import SchemaPlan.Sql.Token.Scan

/-!
# Reading definitions token by token

A `Cursor` is a position in the tokens of a text. `Reading α` is a step that moves the cursor and
may fail; a step that fails leaves the cursor where it stopped. Blanks and comments are tokens
like any other here: every step says where it skips them.
-/

namespace SchemaPlan.Sql

/-- A position in a list of tokens. -/
structure Cursor where
  tokens : Array PlacedToken
  pos : Nat
deriving Repr, DecidableEq, Inhabited

namespace Cursor

/-- The cursor at the start of a text, if the text has tokens. -/
def ofText? (text : String) : Option Cursor :=
  match scan text with
  | .ok tokens => some ⟨tokens.toArray, 0⟩
  | .error _ => none

/-- Whether no token is left. -/
def atEnd (c : Cursor) : Bool := c.tokens.size ≤ c.pos

/-- The number of tokens left. -/
def left (c : Cursor) : Nat := c.tokens.size - c.pos

/-- The token at the cursor. -/
def current? (c : Cursor) : Option Token := c.tokens[c.pos]?.map (·.token)

/-- Whether a token stands at the cursor that satisfies `p`. -/
def sees (c : Cursor) (p : Token → Bool) : Bool := c.current?.any p

/-- The cursor at another position, or at the end if that lies beyond it. -/
def moveTo (c : Cursor) (pos : Nat) : Cursor := { c with pos := min pos c.tokens.size }

/-- The cursor after the current token. -/
def advance (c : Cursor) : Cursor := if c.atEnd then c else { c with pos := c.pos + 1 }

/-- The cursor at the first token that does not satisfy `p`. -/
def skipWhile (p : Token → Bool) (c : Cursor) : Cursor :=
  if h : c.pos < c.tokens.size then
    if p c.tokens[c.pos].token then skipWhile p { c with pos := c.pos + 1 } else c
  else c
termination_by c.left
decreasing_by simp only [left]; omega

/-- The cursor after blanks and comments. -/
def skipBlanks (c : Cursor) : Cursor := c.skipWhile Token.isBlank

/-- The cursor after the parenthesis that closes `depth` open ones, or at the end. -/
def skipClosing (depth : Nat) (c : Cursor) : Cursor :=
  if h : c.pos < c.tokens.size then
    let next := { c with pos := c.pos + 1 }
    match c.tokens[c.pos].token with
    | .mark .openParen => skipClosing (depth + 1) next
    | .mark .closeParen => if depth ≤ 1 then next else skipClosing (depth - 1) next
    | _ => skipClosing depth next
  else c
termination_by c.left
decreasing_by all_goals simp only [left]; omega

/-- The cursor after the group in parentheses that opens here; unmoved where none opens. -/
def skipGroup (c : Cursor) : Cursor :=
  -- The parenthesis that opens the group is counted on the way.
  if c.sees (·.isMark .openParen) then skipClosing 0 c else c

/-- The cursor at the next comma or closing parenthesis outside the groups that open on the way,
of which `depth` are open. -/
def skipToDelimiter (depth : Nat) (c : Cursor) : Cursor :=
  if h : c.pos < c.tokens.size then
    let next := { c with pos := c.pos + 1 }
    match c.tokens[c.pos].token with
    | .mark .comma => if depth = 0 then c else skipToDelimiter depth next
    | .mark .openParen => skipToDelimiter (depth + 1) next
    | .mark .closeParen => if depth = 0 then c else skipToDelimiter (depth - 1) next
    | _ => skipToDelimiter depth next
  else c
termination_by c.left
decreasing_by all_goals simp only [left]; omega

/-- The line of the token at `pos`; one if there is none. -/
def lineAt (c : Cursor) (pos : Nat) : Nat :=
  max 1 ((c.tokens[pos]?.map (·.line)).getD 1)

/-- The text of a token within a larger text: comments count as a space. -/
def inlineText : Token → String
  | .blank (.lineComment _) => " "
  | .blank (.blockComment _) => " "
  | token => token.text

/-- The SQL text of the tokens from `start` up to `stop`, without blanks at its ends. -/
def slice (c : Cursor) (start stop : Nat) : String :=
  let stop := min stop c.tokens.size
  let run := (c.tokens.toList.take stop).drop (min start stop)
  Text.trim (String.join (run.map fun placed => inlineText placed.token))

end Cursor

/-! ## Steps -/

/-- A step that moves the cursor and may fail. -/
abbrev Reading := OptionT (StateM Cursor)

namespace Reading

/-- The position of the cursor. -/
def position : Reading Nat := do return (← get).pos

/-- Move to a position. -/
def moveTo (pos : Nat) : Reading Unit := modify (·.moveTo pos)

/-- Move over the current token. -/
def advance : Reading Unit := modify Cursor.advance

/-- Move over blanks and comments. -/
def skipBlanks : Reading Unit := modify Cursor.skipBlanks

/-- Move over the group in parentheses that opens here, if one does. -/
def skipGroup : Reading Unit := modify Cursor.skipGroup

/-- Move to the next comma or closing parenthesis of this level. -/
def skipToDelimiter : Reading Unit := modify (Cursor.skipToDelimiter 0)

/-- Whether the current token satisfies `p`. -/
def sees (p : Token → Bool) : Reading Bool := do return (← get).sees p

/-- Move over the current token if it satisfies `p`, and tell whether it does. -/
def accepts (p : Token → Bool) : Reading Bool := do
  if ← sees p then
    advance
    return true
  else return false

/-- Move over the current token, which has to satisfy `p`. -/
def expect (p : Token → Bool) : Reading Unit := do
  if !(← accepts p) then failure

/-- What a step yields, or nothing where it fails; the cursor stays where the step stopped. -/
def attempt {α : Type} (step : Reading α) : Reading (Option α) :=
  fun c => let (result, after) := step c; (some result, after)

/-- A word without its quotes. -/
def identifier : Reading String := do
  match (← get).current? with
  | some (.word text _) =>
    advance
    return text
  | _ => failure

/-- The parts of a dotted name after the first, in order. A part between two periods may be
missing. `fuel` is the number of tokens left. -/
def nameParts : Nat → Reading (List String)
  | 0 => return []
  | fuel + 1 => do
    let checkpoint ← position
    skipBlanks
    if !(← sees (·.isMark .period)) then
      -- Blanks behind a name are left to what comes next.
      moveTo checkpoint
      return []
    advance
    skipBlanks
    match ← attempt identifier with
    | some part => return part :: (← nameParts fuel)
    | none =>
      if ← sees (·.isMark .period) then return "" :: (← nameParts fuel)
      failure

/-- A dotted name of one to four parts. -/
def qualifiedName : Reading QualifiedName := do
  let first ← identifier
  let more ← nameParts (← get).left
  match QualifiedName.ofParts? (first :: more) with
  | some name => return name
  | none => failure

/-- The names after the opening parenthesis of a list, each with an optional direction. -/
def listedNames : Nat → Reading (List String)
  | 0 => failure
  | fuel + 1 => do
    skipBlanks
    -- Seen behind the last name and behind a comma alike.
    if ← accepts (·.isMark .closeParen) then return []
    let name ← identifier
    skipBlanks
    if (← sees (·.isKeyword "ASC")) || (← sees (·.isKeyword "DESC")) then
      advance
      skipBlanks
    if !(← accepts (·.isMark .comma)) && !(← sees (·.isMark .closeParen)) then failure
    return name :: (← listedNames fuel)

/-- A list of names in parentheses. Sort directions are dropped, and a comma may stand last. -/
def identifierList : Reading (List String) := do
  expect (·.isMark .openParen)
  listedNames ((← get).left + 1)

/-- The sizes after the opening parenthesis of a type. -/
def typeSizes : Nat → Reading (List TypeSize)
  | 0 => failure
  | fuel + 1 => do
    skipBlanks
    let size ← match (← get).current? with
      | some (.number digits _) =>
        match Text.natBelow? 4294967296 digits with
        | some n => pure (.number n)
        | none => failure
      | some (.word text _) => if Text.sameText text "MAX" then pure .max else failure
      | _ => failure
    advance
    skipBlanks
    if ← accepts (·.isMark .closeParen) then return [size]
    expect (·.isMark .comma)
    return size :: (← typeSizes fuel)

/-- A declared type: a dotted name and optional sizes. A database in front of it is dropped. -/
def declaredType : Reading DeclaredType := do
  let name ← qualifiedName
  let checkpoint ← position
  skipBlanks
  if ← accepts (·.isMark .openParen) then
    let sizes ← typeSizes ((← get).left + 1)
    return .ofSizes name.schema name.name sizes
  moveTo checkpoint
  return .ofSizes name.schema name.name []

/-- A whole number below two to the sixty-fourth. -/
def wholeNumber : Reading Nat := do
  match (← get).current? with
  | some (.number digits _) =>
    match Text.natBelow? 18446744073709551616 digits with
    | some n =>
      advance
      return n
    | none => failure
  | _ => failure

/-- The result of a step at the start of a text. -/
def run? {α : Type} (step : Reading α) (text : String) : Option α := do
  let cursor ← Cursor.ofText? text
  (OptionT.run step cursor).1

end Reading

/-- The type written at the start of a text; what follows it is not looked at. -/
def DeclaredType.parse? (text : String) : Option DeclaredType :=
  Reading.run? (do Reading.skipBlanks; Reading.declaredType) text

end SchemaPlan.Sql
