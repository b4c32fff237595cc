import SchemaPlan.Sql.Cursor

/-!
# Statements of a procedure body

Statements need no terminator, so a body is cut at the words that start one. Only words outside
parentheses and outside `CASE .. END` count. A starting word may also belong to the statement
that is open: `INSERT .. SELECT`, `UPDATE .. SET`, `UNION SELECT`, the statement after a list of
common table expressions, and everything inside a `MERGE`.
-/

namespace SchemaPlan.Sql

/-- What a statement of a body does. -/
inductive StatementKind where
  | select | insert | update | delete | merge
  /-- A list of common table expressions whose statement has not been seen. -/
  | cte
  | declare | set | exec | controlFlow | other
deriving Repr, DecidableEq, Inhabited

/-- A statement as the range of tokens from `start` up to `stop`. -/
structure BodyStatement where
  kind : StatementKind
  start : Nat
  stop : Nat
deriving Repr, DecidableEq, Inhabited

namespace Body

/-- Words that start a statement which steers the control flow. -/
def controlFlowStarters : List String :=
  ["IF", "ELSE", "WHILE", "BEGIN", "END", "RETURN", "BREAK", "CONTINUE", "GOTO", "WAITFOR"]

/-- Words that start a statement of no interest here. -/
def otherStarters : List String :=
  ["PRINT", "RAISERROR", "THROW", "TRUNCATE", "CREATE", "DROP", "ALTER", "OPEN", "CLOSE",
   "FETCH", "DEALLOCATE", "COMMIT", "ROLLBACK", "SAVE", "USE", "GRANT", "DENY", "REVOKE"]

/-- The kind of statement that a word, given in capitals, starts. -/
def starterKind? (word : String) : Option StatementKind :=
  match word with
  | "SELECT" => some .select
  | "INSERT" => some .insert
  | "UPDATE" => some .update
  | "DELETE" => some .delete
  | "MERGE" => some .merge
  | "DECLARE" => some .declare
  | "SET" => some .set
  | "EXEC" => some .exec
  | "EXECUTE" => some .exec
  | _ =>
    if controlFlowStarters.contains word then some .controlFlow
    else if otherStarters.contains word then some .other
    else none

/-- A statement whose end has not been reached. -/
structure OpenStatement where
  kind : StatementKind
  start : Nat
  /-- An `INSERT` has the source of its rows. -/
  hasSource : Bool := false
  /-- An `UPDATE` has its `SET` clause. -/
  hasSet : Bool := false
deriving Repr, DecidableEq, Inhabited

/-- The open statement after a starting word that belongs to it; nothing if the word starts a
statement of its own. `previous` is the word directly before. -/
def OpenStatement.absorb? (s : OpenStatement) (word : String) (previous : Option String) :
    Option OpenStatement :=
  -- Behind a set operator, or the `FOR` of a cursor, the open statement goes on.
  if previous.any fun p => ["UNION", "ALL", "EXCEPT", "INTERSECT", "FOR"].contains p then some s
  else match s.kind with
    -- Only a semicolon ends a `MERGE`: its branches are made of words that start statements.
    | .merge => some s
    -- The list and the statement it was written for are one statement, of the kind of the latter.
    | .cte =>
      if ["SELECT", "INSERT", "UPDATE", "DELETE", "MERGE"].contains word then
        some { s with kind := (starterKind? word).getD s.kind }
      else none
    | .insert =>
      if ["SELECT", "EXEC", "EXECUTE"].contains word && !s.hasSource then
        some { s with hasSource := true }
      else none
    | .update => if word = "SET" && !s.hasSet then some { s with hasSet := true } else none
    | _ => none

/-- What is known between two tokens of a body. -/
structure State where
  /-- Finished statements, the last one first. -/
  finished : List BodyStatement := []
  current : Option OpenStatement := none
  /-- Open parentheses. -/
  depth : Nat := 0
  /-- Open `CASE` blocks. -/
  caseDepth : Nat := 0
  /-- The word directly before, in capitals. -/
  previous : Option String := none
deriving Repr, DecidableEq, Inhabited

namespace State

/-- Finish the open statement before token `pos`. -/
def close (s : State) (pos : Nat) : State :=
  match s.current with
  | some opened =>
    { s with
      finished := ⟨opened.kind, opened.start, pos⟩ :: s.finished
      current := none }
  | none => s

/-- Have a statement open at token `pos`. -/
def ensureOpen (s : State) (pos : Nat) : State :=
  match s.current with
  | some _ => s
  | none => { s with current := some { kind := .other, start := pos } }

end State

/-- What follows the parenthesis that closes `depth` open ones. -/
def afterClosing : Nat → List Token → List Token
  | _, [] => []
  | depth, token :: rest =>
    match token with
    | .mark .openParen => afterClosing (depth + 1) rest
    | .mark .closeParen => if depth ≤ 1 then rest else afterClosing (depth - 1) rest
    | _ => afterClosing depth rest

/-- Whether the tokens after a `WITH` begin a list of common table expressions:
`name AS (` or `name (columns) AS (`. -/
def startsCte (rest : List Token) : Bool :=
  match rest.filter fun token => !token.isBlank with
  | .word _ _ :: after =>
    let after := match after with
      | .mark .openParen :: inner => afterClosing 1 inner
      | _ => after
    match after with
    | token :: .mark .openParen :: _ => token.isBareWord "AS"
    | _ => false
  | _ => false

/-- The state after a word outside parentheses, given in capitals. `rest` is what follows it. -/
def visitWord (s : State) (word : String) (pos : Nat) (rest : List Token) : State :=
  if word = "CASE" then { s with caseDepth := s.caseDepth + 1 }.ensureOpen pos
  else if s.caseDepth > 0 then
    -- The `END` of a `CASE` starts no statement.
    if word = "END" then { s with caseDepth := s.caseDepth - 1 } else s
  else if word = "VALUES" then
    -- With its rows in place an `INSERT` takes no `SELECT` any more.
    { s with current := s.current.map fun opened => { opened with hasSource := true } }
  else
    let kind? :=
      if word = "WITH" then (if startsCte rest then some StatementKind.cte else none)
      else starterKind? word
    match kind? with
    | none => s.ensureOpen pos
    | some kind =>
      match s.current.bind (·.absorb? word s.previous) with
      | some opened => { s with current := some opened }
      | none => { s.close pos with current := some { kind, start := pos } }

/-- The state after the token at `pos`, which `rest` follows. -/
def step (s : State) (pos : Nat) (token : Token) (rest : List Token) : State :=
  match token with
  | .blank _ => s
  | .word text .bare =>
    if s.depth = 0 then
      let word := Text.asciiUpper text
      { visitWord s word pos rest with previous := some word }
    else { s with previous := none }
  | .mark .semicolon =>
    if s.depth = 0 then { s.close pos with previous := none } else { s with previous := none }
  | .mark .openParen =>
    let s := if s.depth = 0 then s.ensureOpen pos else s
    { s with depth := s.depth + 1, previous := none }
  | .mark .closeParen => { s with depth := s.depth - 1, previous := none }
  | _ =>
    -- A token that starts nothing opens a statement where none is open.
    let s := if s.depth = 0 then s.ensureOpen pos else s
    { s with previous := none }

/-- The state after all tokens, the first of which stands at `pos`. -/
def run (s : State) (pos : Nat) : List Token → State
  | [] => s
  | token :: rest => run (step s pos token rest) (pos + 1) rest

/-- The statements of the tokens from `start` on. -/
def statements (tokens : List Token) (start : Nat) : List BodyStatement :=
  ((run {} start (tokens.drop start)).close tokens.length).finished.reverse

end Body

/-- The statements of the tokens from `start` on. -/
def Cursor.statements (c : Cursor) (start : Nat) : List BodyStatement :=
  Body.statements (c.tokens.toList.map (·.token)) start

end SchemaPlan.Sql
