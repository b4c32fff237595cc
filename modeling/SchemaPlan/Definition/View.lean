import SchemaPlan.Definition.Basic
import SchemaPlan.Sql.Cursor

/-!
# View definitions

The head of a view is read token by token; what follows `AS`, up to an optional
`WITH CHECK OPTION` and semicolon, is its query.
-/

namespace SchemaPlan.Definition

open SchemaPlan.Sql SchemaPlan.Sql.Reading

/-- Whether a token is a word, quoted or not, equal to `word` without regard to ASCII case. -/
def isAnyWord (word : String) : Token → Bool
  | .word text _ => Text.sameText text word
  | _ => false

/-- The tokens that are no blanks from a position on, with their positions. -/
def significantFrom (cursor : Cursor) : List (Nat × Token) :=
  ((cursor.tokens.toList.map (·.token)).zipIdx.map fun (token, pos) => (pos, token)).filter
    fun (pos, token) => cursor.pos ≤ pos && !token.isBlank

/-- The tokens without an ending such as `WITH CHECK OPTION ;`. Both lists are in reverse order. -/
def withoutEnding : List (Nat × Token) → List (Nat × Token)
  | (p, last) :: rest =>
    let before := if last.isMark .semicolon then rest else (p, last) :: rest
    -- The words stand in reverse order here as well.
    match before with
    | (_, third) :: (_, second) :: (_, first) :: head =>
      if isAnyWord "WITH" first && isAnyWord "CHECK" second && isAnyWord "OPTION" third then head
      else before
    | _ => before
  | [] => []

/-- The position at which the query of a view ends. -/
def queryEnd (cursor : Cursor) : Nat :=
  let significant := significantFrom cursor
  let kept := (withoutEnding significant.reverse).length
  match significant.drop kept with
  | (pos, _) :: _ => pos
  | [] => cursor.tokens.size

/-- The words that start a definition: `CREATE`, `CREATE OR ALTER` or `ALTER`. -/
def definitionStart : Reading Unit := do
  skipBlanks
  if ← accepts (·.isKeyword "CREATE") then
    skipBlanks
    if ← accepts (·.isKeyword "OR") then
      skipBlanks
      expect (·.isKeyword "ALTER")
      skipBlanks
  else
    expect (·.isKeyword "ALTER")
    skipBlanks

/-- The attributes of a view with commas between them. -/
def viewAttributes : Nat → Reading Unit
  | 0 => failure
  | fuel + 1 => do
    skipBlanks
    discard identifier
    skipBlanks
    if ← accepts (·.isMark .comma) then viewAttributes fuel

/-- A `CREATE VIEW` or `ALTER VIEW`. -/
def view : Reading ViewDefinition := do
  definitionStart
  expect (·.isKeyword "VIEW")
  skipBlanks
  let name ← qualifiedName
  skipBlanks
  let columns ←
    if ← sees (·.isMark .openParen) then do
      let columns ← identifierList
      skipBlanks
      pure columns
    else pure []
  if ← accepts (·.isKeyword "WITH") then viewAttributes ((← get).left + 1)
  expect (·.isKeyword "AS")
  let cursor ← get
  match Grammar.parseQuery (cursor.slice cursor.pos (queryEnd cursor)) with
  | .ok query => return { name, columns, query }
  | .error _ => failure

end SchemaPlan.Definition
