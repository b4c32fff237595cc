import SchemaPlan.Sql.Body

/-!
# The shape of a procedure body

A grammar of statements in a row. Between the words that tell statements apart stands filler, which
starts none: it has parentheses and `CASE .. END` blocks in pairs and no word of a start outside of
them. A layout is a list of statements with the blanks and semicolons after each; it says which
statements its tokens should be cut into.
-/

namespace SchemaPlan.Sql

/-- An unquoted word in ASCII capitals. -/
def Token.bareWord? : Token → Option String
  | .word text .bare => some (Text.asciiUpper text)
  | _ => none

/-- Whether a token is neither a parenthesis nor a semicolon. -/
def Token.isPlain (token : Token) : Bool :=
  !(token.isMark .openParen || token.isMark .closeParen || token.isMark .semicolon)

namespace Body

/-! ## Stretches of tokens -/

/-- Blanks and comments only. -/
def IsBlank (tokens : List Token) : Prop := ∀ token ∈ tokens, token.isBlank = true

/-- Parentheses in pairs. -/
inductive Balanced : List Token → Prop where
  | nil : Balanced []
  | token {token : Token} {rest : List Token} :
      token ≠ .mark .openParen → token ≠ .mark .closeParen → Balanced rest →
      Balanced (token :: rest)
  | group {inner rest : List Token} :
      Balanced inner → Balanced rest →
      Balanced (.mark .openParen :: (inner ++ .mark .closeParen :: rest))

/-- What stands between a `CASE` and its `END`. -/
inductive CaseInner : List Token → Prop where
  | nil : CaseInner []
  | token {token : Token} {rest : List Token} :
      token.isPlain = true → token.bareWord? ≠ some "CASE" → token.bareWord? ≠ some "END" →
      CaseInner rest → CaseInner (token :: rest)
  | group {inner rest : List Token} :
      Balanced inner → CaseInner rest →
      CaseInner (.mark .openParen :: (inner ++ .mark .closeParen :: rest))
  | block {first last : Token} {inner rest : List Token} :
      first.bareWord? = some "CASE" → CaseInner inner → last.bareWord? = some "END" →
      CaseInner rest → CaseInner (first :: (inner ++ last :: rest))

/-- Tokens with parentheses and `CASE .. END` blocks in pairs, all others of which are `single`, given
what follows them; `after` follows the stretch. -/
inductive Stretch (single : Token → List Token → Prop) (after : List Token) : List Token → Prop where
  | nil : Stretch single after []
  | token {token : Token} {rest : List Token} :
      token.isPlain = true → token.bareWord? ≠ some "CASE" → single token (rest ++ after) →
      Stretch single after rest → Stretch single after (token :: rest)
  | group {inner rest : List Token} :
      Balanced inner → Stretch single after rest →
      Stretch single after (.mark .openParen :: (inner ++ .mark .closeParen :: rest))
  | block {first last : Token} {inner rest : List Token} :
      first.bareWord? = some "CASE" → CaseInner inner → last.bareWord? = some "END" →
      Stretch single after rest → Stretch single after (first :: (inner ++ last :: rest))

/-- A token that neither starts a statement nor gives rows to one. -/
structure StartsNothing (token : Token) (rest : List Token) : Prop where
  noStarter : ∀ word, token.bareWord? = some word → starterKind? word = none
  noValues : token.bareWord? ≠ some "VALUES"
  noCte : token.bareWord? = some "WITH" → startsCte rest = false

/-- The unquoted word directly before what follows a token; blanks are passed over. -/
def nextWord (previous : Option String) (token : Token) : Option String :=
  if token.isBlank then previous else token.bareWord?

/-- The unquoted word directly before what follows tokens. -/
def lastWord (previous : Option String) : List Token → Option String
  | [] => previous
  | token :: rest => lastWord (nextWord previous token) rest

/-- Words that make the next statement a part of the one that is open. -/
def isJoiner (word : String) : Bool :=
  ["UNION", "ALL", "EXCEPT", "INTERSECT", "FOR"].contains word

/-- Tokens that start no statement and do not end in a word that joins the next one. -/
structure Filler (after tokens : List Token) : Prop where
  stretch : Stretch StartsNothing after tokens
  ending : (lastWord none tokens).any isJoiner = false

/-! ## Statements -/

/-- `UNION`, `UNION ALL`, `EXCEPT` or `INTERSECT`, with the blanks behind. -/
inductive SetOperator : List Token → Prop where
  | word {token : Token} {word : String} {blanks : List Token} :
      token.bareWord? = some word → word ∈ ["UNION", "EXCEPT", "INTERSECT"] → IsBlank blanks →
      SetOperator (token :: blanks)
  | unionAll {union all : Token} {between blanks : List Token} :
      union.bareWord? = some "UNION" → IsBlank between → all.bareWord? = some "ALL" →
      IsBlank blanks → SetOperator (union :: (between ++ all :: blanks))

/-- What follows the `SELECT` of a query: filler, and further selects joined by set operators. -/
inductive SelectTail (after : List Token) : List Token → Prop where
  | single {filler : List Token} : Filler after filler → SelectTail after filler
  | joined {filler operator rest : List Token} {select : Token} :
      Filler ((operator ++ select :: rest) ++ after) filler → SetOperator operator →
      select.bareWord? = some "SELECT" → SelectTail after rest →
      SelectTail after (filler ++ (operator ++ select :: rest))

/-- What follows the `INSERT` of a statement: filler and the source of the rows. -/
inductive InsertTail (after : List Token) : List Token → Prop where
  | values {filler rest : List Token} {word : Token} :
      Filler (word :: (rest ++ after)) filler → word.bareWord? = some "VALUES" →
      Filler after rest → InsertTail after (filler ++ word :: rest)
  | select {filler rest : List Token} {word : Token} :
      Filler (word :: (rest ++ after)) filler → word.bareWord? = some "SELECT" →
      SelectTail after rest → InsertTail after (filler ++ word :: rest)
  | exec {filler rest : List Token} {token : Token} {word : String} :
      Filler (token :: (rest ++ after)) filler → token.bareWord? = some word →
      word ∈ ["EXEC", "EXECUTE"] → Filler after rest → InsertTail after (filler ++ token :: rest)

/-- What follows the word that starts a statement of a kind. -/
inductive Tail (after : List Token) : StatementKind → List Token → Prop where
  | select {tokens : List Token} : SelectTail after tokens → Tail after .select tokens
  | insert {tokens : List Token} : InsertTail after tokens → Tail after .insert tokens
  | update {filler rest : List Token} {set : Token} :
      Filler (set :: (rest ++ after)) filler → set.bareWord? = some "SET" → Filler after rest →
      Tail after .update (filler ++ set :: rest)
  | other {kind : StatementKind} {tokens : List Token} :
      kind ∉ [.select, .insert, .update, .merge, .cte] → Filler after tokens →
      Tail after kind tokens

/-- The columns of a common table expression in parentheses, with the blanks behind, or nothing. -/
inductive CteColumns : List Token → Prop where
  | absent : CteColumns []
  | listed {inner blanks : List Token} :
      Balanced inner → IsBlank blanks →
      CteColumns (.mark .openParen :: (inner ++ .mark .closeParen :: blanks))

/-- What follows the name of a common table expression: its columns and its query. -/
inductive CteRest : List Token → Prop where
  | intro {as' : Token} {first columns second inner : List Token} :
      IsBlank first → CteColumns columns → as'.bareWord? = some "AS" → IsBlank second →
      Balanced inner → CteRest (first ++ (columns ++ as' :: (second ++
        .mark .openParen :: (inner ++ [.mark .closeParen]))))

/-- `WITH name AS (..)` or `WITH name (columns) AS (..)`, where `isName` tells the names. -/
inductive CteHead (isName : Token → Bool) : List Token → Prop where
  | intro {with' name : Token} {blanks rest : List Token} :
      with'.bareWord? = some "WITH" → IsBlank blanks → isName name = true → CteRest rest →
      CteHead isName (with' :: (blanks ++ name :: rest))

/-- A statement of a kind, which `after` follows. -/
inductive Form (isName : Token → Bool) (after : List Token) :
    StatementKind → List Token → Prop where
  | starter {token : Token} {word : String} {kind : StatementKind} {tail : List Token} :
      token.bareWord? = some word → starterKind? word = some kind → Tail after kind tail →
      Form isName after kind (token :: tail)
  | cte {head filler tail : List Token} {token : Token} {word : String} {kind : StatementKind} :
      CteHead isName head → Filler (token :: (tail ++ after)) filler →
      token.bareWord? = some word → starterKind? word = some kind →
      kind ∈ [.select, .insert, .update, .delete] → Tail after kind tail →
      Form isName after kind (head ++ (filler ++ token :: tail))
  | merge {token : Token} {tail : List Token} :
      token.bareWord? = some "MERGE" → Stretch (fun _ _ => True) after tail →
      Form isName after .merge (token :: tail)

/-! ## Layouts -/

/-- A statement with what stands between it and the next one. -/
structure Part where
  kind : StatementKind
  tokens : List Token
  gap : List Token

/-- The tokens of statements in a row. -/
def tokensOf (parts : List Part) : List Token :=
  parts.flatMap fun part => part.tokens ++ part.gap

/-- Blanks and semicolons only. -/
def IsGap (tokens : List Token) : Prop :=
  ∀ token ∈ tokens, token.isBlank = true ∨ token = .mark .semicolon

/-- Statements in a row, with a semicolon after each `MERGE`. -/
inductive Layout (isName : Token → Bool) : List Part → Prop where
  | nil : Layout isName []
  | cons {part : Part} {rest : List Part} :
      Form isName (part.gap ++ tokensOf rest) part.kind part.tokens → IsGap part.gap →
      (part.kind = .merge → .mark .semicolon ∈ part.gap) → Layout isName rest →
      Layout isName (part :: rest)

/-- The statements of a layout that starts at `pos`. A statement ends at the first semicolon behind
it, or where the next one starts. -/
def statementsOf (pos : Nat) : List Part → List BodyStatement
  | [] => []
  | part :: rest =>
    let stop := pos + part.tokens.length
    ⟨part.kind, pos, stop + (part.gap.takeWhile (!·.isMark .semicolon)).length⟩ ::
      statementsOf (stop + part.gap.length) rest

/-- Words that start no statement but mean something where statements are told apart. -/
def markers : List String := ["CASE", "VALUES", "WITH"]

/-- A token that means nothing where statements are told apart. -/
def isMere (token : Token) : Bool :=
  match token.bareWord? with
  | some word => (starterKind? word).isNone && !markers.contains word
  | none => token.isPlain

/-- A word that is none of the markers, as all words in quotes are. -/
def isUnmarked (token : Token) : Bool :=
  token.isWord && token.bareWord?.all fun word => !markers.contains word

/-- A word that means nothing where statements are told apart, as all words in quotes do. -/
def isPlainName (token : Token) : Bool := token.isWord && isMere token

end Body

end SchemaPlan.Sql
