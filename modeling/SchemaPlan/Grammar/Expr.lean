import SchemaPlan.Grammar.DataType
import SchemaPlan.Sql.Keyword

/-!
# Expressions

An expression is an operand with operators after it, read by precedence: `expression n level`
takes the operators that bind tighter than `level`. A word that opens a form of its own, such as
`CASE` or `CAST`, is read as that form if it can be and as a mere name otherwise.

The rules are written over `Nested`, the parsers for what stands inside.
-/

namespace SchemaPlan.Grammar

open SchemaPlan.Sql SchemaPlan.Query

/-! ## Precedence -/

/-- How tightly operators bind. -/
def Level.or : Nat := 5

/-- The level of `AND`. -/
def Level.and : Nat := 10

/-- The level of a `NOT` in front of an operand. -/
def Level.not : Nat := 15

/-- The level of `LIKE`. -/
def Level.like : Nat := 19

/-- The level of comparisons and of `BETWEEN`. -/
def Level.compare : Nat := 20

/-- The level of sums. -/
def Level.sum : Nat := 30

/-- The level of products. -/
def Level.product : Nat := 40

/-- The level of the period between the parts of a name. -/
def Level.period : Nat := 100

/-- The level of a keyword that stands after an operand. -/
def keywordLevel (keyword : String) (after : List PlacedToken) : Nat :=
  match keyword with
  | "OR" => Level.or
  | "AND" => Level.and
  | "XOR" => 24
  | "AT" => if startsWithKeywords ["TIME", "ZONE"] after then 41 else 0
  -- `NOT` is an operator only in front of a test that can be denied.
  | "NOT" =>
    match after with
    | next :: _ =>
      match next.token.keyword? with
      | some "IN" | some "BETWEEN" => Level.compare
      | some "LIKE" | some "ILIKE" | some "RLIKE" | some "REGEXP" | some "SIMILAR" => Level.like
      | _ => 0
    | [] => 0
  | "IS" => 17
  | "IN" | "BETWEEN" | "OVERLAPS" | "OPERATOR" => Level.compare
  | "LIKE" | "ILIKE" | "RLIKE" | "REGEXP" | "SIMILAR" => Level.like
  | "DIV" => Level.product
  | _ => 0

/-- The level of a mark that stands after an operand. -/
def markLevel : Mark → Nat
  | .period => Level.period
  | .assign | .equal | .less | .lessEqual | .notEqual | .greater | .greaterEqual | .doubleEqual
  | .tilde | .tildeStar | .bangTilde | .bangTildeStar | .doubleTilde | .doubleTildeStar
  | .bangDoubleTilde | .bangDoubleTildeStar | .spaceship => Level.compare
  | .pipe => 21
  | .caret | .hash | .shiftRight | .shiftLeft => 22
  | .ampersand => 23
  | .plus | .minus => Level.sum
  | .star | .slash | .percent | .concat => Level.product
  | .doubleColon | .bang | .doubleAmpersand | .caretAt => 50
  | .arrow | .longArrow | .hashArrow | .hashLongArrow | .atArrow | .arrowAt | .hashMinus
  | .atQuestion | .doubleAt => 16
  | _ => 0

/-- How tightly the operator at the head of the tokens binds; zero if there is none. -/
def operatorLevel : List PlacedToken → Nat
  | [] => 0
  | placed :: after =>
    match placed.token with
    | .word text .bare => keywordLevel (capitals text) after
    | .mark mark => markLevel mark
    | _ => 0

/-- The spelling of an operator between two operands. -/
def binaryOperator? : Token → Option String
  | .mark .doubleEqual => some "="
  | .mark mark =>
    match mark with
    | .spaceship | .assign | .equal | .notEqual | .greater | .greaterEqual | .less | .lessEqual
    | .plus | .minus | .star | .percent | .concat | .pipe | .caret | .ampersand | .slash | .tilde
    | .tildeStar | .bangTilde | .bangTildeStar | .doubleTilde | .doubleTildeStar
    | .bangDoubleTilde | .bangDoubleTildeStar | .arrow | .longArrow | .hashArrow | .hashLongArrow
    | .atArrow | .arrowAt | .hashMinus | .atQuestion | .doubleAt => some mark.text
    | _ => none
  | token =>
    match token.keyword? with
    | some "AND" => some "AND"
    | some "OR" => some "OR"
    | some "XOR" => some "XOR"
    | some "OVERLAPS" => some "OVERLAPS"
    | _ => none

/-- Operators that compare with any or all rows of a query. -/
def comparesRows (operator : String) : Bool :=
  [">", "<", ">=", "<=", "=", "<>"].contains operator

/-! ## Calls -/

/-- An expression of any operators. -/
def Nested.any (n : Nested) : Parser Expr := n.expr 0

/-- Expressions with commas between them. -/
def Nested.exprs (n : Nested) : Parser (List Expr) := commaSeparated n.any

/-- An expression, or a star with an optional qualifier. -/
inductive Projected where
  | star
  | qualifiedStar (qualifier : List Ident)
  | expr (value : Expr)

/-- The name that a word or a text in single quotes may be part of. -/
def namePart? : Token → Option Ident
  | .word text quote => some (wordName text quote)
  | .literal .plain text => some ⟨text, some '\''⟩
  | _ => none

/-- The rest of a dotted name that may end in a star; nothing if it ends otherwise. -/
def dottedStar? (first : Ident) : Parser (Option (List Ident)) := do
  let step : List Ident × Bool → Parser (Option (List Ident × Bool)) := fun (parts, done) => do
    if done then return none
    if !(← mark? .period) then return none
    match ← next? with
    | some placed =>
      match namePart? placed.token with
      | some part => return some (part :: parts, false)
      | none => if placed.token.isMark .star then return some (parts, true) else refuseAt placed
    | none => refuseAnywhere
  let (parts, done) ← iterate step ([first], false)
  return if done then some parts.reverse else none

/-- An expression, or a star with an optional qualifier. After a name and a period, only names and
a star may follow. -/
def projected (n : Nested) : Parser Projected := do
  let start ← get
  match ← next? with
  | some placed =>
    if placed.token.isMark .star then return .star
    match namePart? placed.token with
    | some part =>
      match ← dottedStar? part with
      | some qualifier => return .qualifiedStar qualifier
      | none => pure ()
    | none => pure ()
  | none => pure ()
  -- No star: the same tokens are read again, as an expression.
  set start
  return .expr (← n.any)

/-- The pieces of an argument. -/
def Projected.pieces : Projected → List Piece
  | .star => [.text "*"]
  | .qualifiedStar qualifier => [.text (nameText qualifier ++ ".*")]
  | .expr value => [.expr value]

/-- An item of an order: an expression, its direction and the place of nulls. -/
def orderItem (n : Nested) : Parser (List Piece) := do
  let expr ← n.any
  let direction := match ← oneOf? ["ASC", "DESC"] with
    | some word => " " ++ word
    | none => ""
  let nulls ←
    if ← keywords? ["NULLS", "FIRST"] then pure " NULLS FIRST"
    else do
      if ← keywords? ["NULLS", "LAST"] then pure " NULLS LAST" else pure ""
  return [.expr expr, .text (direction ++ nulls)]

/-- The items of an order with commas between them. -/
def orderItems (n : Nested) : Parser (List Piece) := do
  return intersperse ", " (← commaSeparated (orderItem n))

/-- The clause of a call that says what becomes of nulls in a document. -/
def nullClause? : Parser (Option String) := do
  if ← keywords? ["ABSENT", "ON", "NULL"] then return some "ABSENT ON NULL"
  else if ← keywords? ["NULL", "ON", "NULL"] then return some "NULL ON NULL"
  else return none

/-- An argument of a call; one with a name has a colon or the word `VALUE` after it. -/
def argument (n : Nested) : Parser (List Piece) := do
  -- The name is an expression itself, so only what stands behind it tells.
  let named ← maybe do
    let name ← n.any
    let operator ←
      if ← keyword? "VALUE" then pure "VALUE"
      else do
        expectMark .colon
        pure ":"
    let value ← projected n
    return [.expr name, .text (" " ++ operator ++ " ")] ++ value.pieces
  match named with
  | some pieces => return pieces
  | none => return (← projected n).pieces

/-- The clauses after the arguments of a call. -/
def argumentClauses (n : Nested) : Parser (List (List Piece)) := do
  let order ←
    if ← keywords? ["ORDER", "BY"] then pure [.text "ORDER BY " :: (← orderItems n)] else pure []
  let limit ←
    if ← keyword? "LIMIT" then pure [[.text "LIMIT ", .expr (← n.any)]] else pure []
  let nulls := match ← nullClause? with
    | some clause => [[Piece.text clause]]
    | none => []
  return order ++ limit ++ nulls

/-- The arguments of a call after the opening parenthesis, with the closing one. -/
def callArguments (n : Nested) : Parser (List Piece) := do
  let before := match ← nullClause? with
    | some clause => [[Piece.text clause]]
    | none => []
  if ← mark? .closeParen then
    return .text "(" :: intersperse " " before ++ [.text ")"]
  let all ← keyword? "ALL"
  let distinct ← keyword? "DISTINCT"
  if all && distinct then refuse
  let quantifier := if all then "ALL " else if distinct then "DISTINCT " else ""
  let arguments ← commaSeparated (argument n)
  let clauses := before ++ (← argumentClauses n)
  expectMark .closeParen
  let after := if clauses.isEmpty then [] else .text " " :: intersperse " " clauses
  return .text ("(" ++ quantifier) :: intersperse ", " arguments ++ after ++ [.text ")"]

/-- An end of a window's frame. -/
def frameBound (n : Nested) : Parser (List Piece) := do
  if ← keywords? ["CURRENT", "ROW"] then return [.text "CURRENT ROW"]
  let amount : List Piece ←
    if ← keyword? "UNBOUNDED" then pure [.text "UNBOUNDED"]
    else pure [.expr (← n.any)]
  let side ← expectOneOf ["PRECEDING", "FOLLOWING"]
  return amount ++ [.text (" " ++ side)]

/-- The frame of a window. -/
def windowFrame (n : Nested) : Parser (List Piece) := do
  let units ← expectOneOf ["ROWS", "RANGE", "GROUPS"]
  if ← keyword? "BETWEEN" then
    let first ← frameBound n
    expectKeyword "AND"
    let last ← frameBound n
    return .text (units ++ " BETWEEN ") :: first ++ .text " AND " :: last
  else
    let first ← frameBound n
    return .text (units ++ " ") :: first

/-- A window after its opening parenthesis, with the closing one. -/
def windowSpec (n : Nested) : Parser (List Piece) := do
  let name : List (List Piece) ←
    if (← sees fun token => token.isWord && !token.isReservedWord) then
      pure [[.text (← identifier).text]]
    else pure []
  let partition : List (List Piece) ←
    if ← keywords? ["PARTITION", "BY"] then
      pure [.text "PARTITION BY " :: listPieces (← n.exprs)]
    else pure []
  let order : List (List Piece) ←
    if ← keywords? ["ORDER", "BY"] then pure [.text "ORDER BY " :: (← orderItems n)] else pure []
  let frame : List (List Piece) ←
    if ← mark? .closeParen then pure []
    else do
      let frame ← windowFrame n
      expectMark .closeParen
      pure [frame]
  return .text "(" :: intersperse " " (name ++ partition ++ order ++ frame) ++ [.text ")"]

/-- A call after its name: the arguments, the order within a group, the treatment of nulls and
the window. -/
def callAfterName (n : Nested) (name : List Ident) : Parser Expr := do
  expectMark .openParen
  let arguments ← callArguments n
  let group : List Piece ←
    if ← keywords? ["WITHIN", "GROUP"] then do
      expectMark .openParen
      expectKeywords ["ORDER", "BY"]
      let items ← orderItems n
      expectMark .closeParen
      pure (.text " WITHIN GROUP (ORDER BY " :: items ++ [.text ")"])
    else pure []
  let nulls : List Piece ← match ← oneOf? ["RESPECT", "IGNORE"] with
    | some word => do
      expectKeyword "NULLS"
      pure [.text (" " ++ word ++ " NULLS")]
    | none => pure []
  let window ←
    if ← keyword? "OVER" then
      if ← mark? .openParen then pure (some (← windowSpec n))
      else pure (some [.text (← identifier).text])
    else pure none
  return .call name (arguments ++ group ++ nulls) window

/-! ## Forms that a word opens -/

/-- A form in parentheses after a word. -/
def wordForm (word : String) (inside : Parser (List Piece)) : Parser Expr := do
  expectMark .openParen
  let pieces ← inside
  expectMark .closeParen
  return .form (.text (word ++ "(") :: pieces ++ [.text ")"])

/-- The branches of a `CASE`. -/
def caseForm (n : Nested) : Parser Expr := do
  let operand : List Piece ←
    if ← keyword? "WHEN" then pure []
    else do
      let operand ← n.any
      expectKeyword "WHEN"
      pure [.text " ", .expr operand]
  let branch : Parser (List Piece) := do
    let condition ← n.any
    expectKeyword "THEN"
    return [.text " WHEN ", .expr condition, .text " THEN ", .expr (← n.any)]
  let first ← branch
  let more ← many do
    if ← keyword? "WHEN" then return some (← branch) else return none
  let otherwise : List Piece ←
    if ← keyword? "ELSE" then pure [.text " ELSE ", .expr (← n.any)] else pure []
  expectKeyword "END"
  return .form (.text "CASE" :: operand ++ first ++ more.flatten ++ otherwise ++ [.text " END"])

/-- The type and the value of a conversion, with optional styles. -/
def convertForm (n : Nested) (word : String) : Parser Expr :=
  wordForm word do
    let type ← n.type
    expectMark .comma
    let value ← n.any
    let styles : List Piece ←
      if ← mark? .comma then pure (.text ", " :: listPieces (← n.exprs)) else pure []
    return .text (type.text ++ ", ") :: .expr value :: styles

/-- The value and the type of a cast, with an optional format. -/
def castForm (n : Nested) (word : String) : Parser Expr :=
  wordForm word do
    let value ← n.any
    expectKeyword "AS"
    let type ← n.type
    let format ←
      if ← keyword? "FORMAT" then do
        let format ← literal
        let zone ←
          if ← keywords? ["AT", "TIME", "ZONE"] then
            pure (" AT TIME ZONE " ++ (← literal).text)
          else pure ""
        pure (" FORMAT " ++ format.text ++ zone)
      else pure ""
    return [.expr value, .text (" AS " ++ type.text ++ format)]

/-- The test whether a query has rows. -/
def existsForm (n : Nested) (word : String) : Parser Expr := do
  let query ← parenthesized n.query
  return .form [.text (word ++ " ("), .query query, .text ")"]

/-- A part of a point in time. -/
def extractForm (n : Nested) : Parser Expr :=
  wordForm "EXTRACT" do
    let unit ← timeUnit
    expectKeyword "FROM"
    return [.text (unit ++ " FROM "), .expr (← n.any)]

/-- A rounded number, or a point in time rounded to a unit. -/
def roundForm (n : Nested) (word : String) : Parser Expr :=
  wordForm word do
    let value ← n.any
    if ← keyword? "TO" then return [.expr value, .text (" TO " ++ (← timeUnit))]
    else if ← mark? .comma then
      match ← literal with
      | .number digits => return [.expr value, .text (", " ++ digits)]
      | _ => refuseAnywhere
    else return [.expr value]

/-- The place of a text in another, or a call of the same name. -/
def positionForm (n : Nested) (name : Ident) : Parser Expr := do
  let position ← maybe (wordForm "POSITION" do
    let part ← n.expr Level.compare
    expectKeyword "IN"
    return [.expr part, .text " IN ", .expr (← n.any)])
  match position with
  | some form => return form
  | none => callAfterName n [name]

/-- A part of a text, given by its place and its length. -/
def substringForm (n : Nested) : Parser Expr :=
  wordForm "SUBSTRING" do
    let value ← n.any
    let plain ← mark? .comma
    let start : List Piece ←
      if plain then pure [.text ", ", .expr (← n.any)]
      else do
        if ← keyword? "FROM" then pure [.text " FROM ", .expr (← n.any)] else pure []
    let length : List Piece ←
      if ← accepts fun token => token.isKeyword "FOR" || token.isMark .comma then
        pure [.text (if plain then ", " else " FOR "), .expr (← n.any)]
      else pure []
    return .expr value :: start ++ length

/-- A text with a part replaced. -/
def overlayForm (n : Nested) : Parser Expr :=
  wordForm "OVERLAY" do
    let value ← n.any
    expectKeyword "PLACING"
    let what ← n.any
    expectKeyword "FROM"
    let start ← n.any
    let length : List Piece ←
      if ← keyword? "FOR" then pure [.text " FOR ", .expr (← n.any)] else pure []
    return [.expr value, .text " PLACING ", .expr what, .text " FROM ", .expr start] ++ length

/-- A text without characters at its ends. -/
def trimForm (n : Nested) : Parser Expr :=
  wordForm "TRIM" do
    let side := match ← oneOf? ["BOTH", "LEADING", "TRAILING"] with
      | some word => word ++ " "
      | none => ""
    let value ← n.any
    if ← keyword? "FROM" then
      return [.text side, .expr value, .text " FROM ", .expr (← n.any)]
    else return [.text side, .expr value]

/-- A span of time: a value, its unit, and the unit it extends to. -/
def intervalForm (n : Nested) : Parser Expr := do
  let value ← n.operand
  let unit ← if ← seesOneOf timeUnits then (do pure (" " ++ (← timeUnit))) else pure ""
  let precision ← size?
  let last ← if ← keyword? "TO" then (do pure (" TO " ++ (← timeUnit))) else pure ""
  let fraction ← if last.isEmpty then pure "" else size?
  let space := fun text => if text == "" then "" else " " ++ text
  return .form [.text "INTERVAL ", .expr value, .text (unit ++ space precision ++ last ++
    space fraction)]

/-- The denial of what follows. -/
def notForm (n : Nested) : Parser Expr := do
  if ← keyword? "EXISTS" then existsForm n "NOT EXISTS"
  else return .form [.text "NOT ", .expr (← n.expr Level.not)]

/-- The form that a word opens; nothing if it opens none. -/
def openedForm? (n : Nested) (text : String) (quote : Quote) : Parser (Option Expr) := do
  if quote != .bare then return none
  match capitals text with
  | "NULL" => return some (.form [.text "NULL"])
  | "CURRENT_TIMESTAMP" | "CURRENT_TIME" | "CURRENT_DATE" | "LOCALTIME" | "LOCALTIMESTAMP" =>
    let arguments ← if ← mark? .openParen then callArguments n else pure []
    return some (.call [wordName text quote] arguments none)
  | "CASE" => return some (← caseForm n)
  | "CONVERT" => return some (← convertForm n "CONVERT")
  | "TRY_CONVERT" => return some (← convertForm n "TRY_CONVERT")
  | "CAST" => return some (← castForm n "CAST")
  | "TRY_CAST" => return some (← castForm n "TRY_CAST")
  | "SAFE_CAST" => return some (← castForm n "SAFE_CAST")
  | "EXISTS" => return some (← existsForm n "EXISTS")
  | "EXTRACT" => return some (← extractForm n)
  | "CEIL" => return some (← roundForm n "CEIL")
  | "FLOOR" => return some (← roundForm n "FLOOR")
  | "POSITION" =>
    if ← seesMark .openParen then return some (← positionForm n (wordName text quote))
    else return none
  | "SUBSTRING" => return some (← substringForm n)
  | "OVERLAY" => return some (← overlayForm n)
  | "TRIM" => return some (← trimForm n)
  | "INTERVAL" => return some (← intervalForm n)
  | "ARRAY" =>
    if ← seesMark .openParen then
      let query ← parenthesized n.query
      return some (.call [wordName text quote] [.text "(", .query query, .text ")"] none)
    else return none
  | "NOT" => return some (← notForm n)
  | _ => return none

/-! ## Operands -/

/-- A word as a mere name: a call if a parenthesis follows, or a literal with an introducer. -/
def namedOperand (n : Nested) (text : String) (quote : Quote) : Parser Expr := do
  if ← seesMark .openParen then callAfterName n [wordName text quote]
  else if Text.startsWith "_" text then
    match ← peek? with
    | some (.literal .plain value) =>
      skip
      return .form [.text (text ++ " " ++ quoted '\'' value)]
    | some (.literal .binary value) =>
      skip
      return .form [.text (text ++ " X'" ++ value ++ "'")]
    | _ => return .ident (wordName text quote)
  else return .ident (wordName text quote)

/-- The words that cannot be read as mere names where their form fails. -/
def neverMereNames : List String := ["EXISTS", "INTERVAL", "STRUCT", "TRIM"]

/-- What a word opens, the word itself being read. The flag tells that the form of the word failed
and it was taken for a mere name. -/
def wordOperand (n : Nested) (text : String) (quote : Quote) : Parser (Expr × Bool) := fun tokens =>
  match openedForm? n text quote tokens with
  | .ok (some expr, rest) => .ok ((expr, false), rest)
  | .ok (none, _) => (do return (← namedOperand n text quote, false) : Parser _) tokens
  | .error failure =>
    if neverMereNames.contains (capitals text) then .error failure
    else match namedOperand n text quote tokens with
      | .ok (expr, rest) => .ok ((expr, true), rest)
      | .error _ => .error failure

/-- A text after the name of a type: a text in quotes or a word that is no keyword. -/
def typedText : Parser String := do
  match ← next? with
  | some ⟨.literal .plain text, _⟩ => return text
  | some ⟨.word text quote, line⟩ =>
    if (Token.word text quote).isReservedWord then refuseAt ⟨.word text quote, line⟩
    else return text
  | some placed => refuseAt placed
  | none => refuseAnywhere

/-- A literal with its type in front. -/
def typedLiteral (n : Nested) : Parser Expr := do
  let type ← n.type
  if type.custom then refuse
  else if type.interval then intervalForm n
  else return .form [.text (type.text ++ " " ++ quoted '\'' (← typedText))]

/-- Expressions in parentheses, or a query, after the opening parenthesis. -/
def groupOperand (n : Nested) : Parser Expr := do
  if ← seesOneOf ["SELECT", "WITH"] then
    let query ← n.query
    expectMark .closeParen
    return .form [.text "(", .query query, .text ")"]
  let exprs ← n.exprs
  expectMark .closeParen
  match exprs with
  | [expr] => return .nested expr
  | _ => return .form (.text "(" :: listPieces exprs ++ [.text ")"])

/-- A call in braces, after the opening brace. -/
def bracedCall (n : Nested) : Parser Expr := do
  expectKeyword "FN"
  let name ← objectName
  let call ← callAfterName n name
  return .form [.text "\x7bfn ", .expr call, .text "\x7d"]

/-- An operand that does not start with a word. -/
def markOperand (n : Nested) (placed : PlacedToken) : Parser Expr := do
  match placed.token with
  | .mark .minus => return .form [.text "-", .expr (← n.expr Level.product)]
  | .mark .plus => return .form [.text "+", .expr (← n.expr Level.product)]
  | .mark .tilde => return .form [.text "~", .expr (← n.expr Level.sum)]
  | .mark .openParen => groupOperand n
  | .mark .openBrace =>
    match ← maybe (bracedCall n) with
    | some call =>
      expectMark .closeBrace
      return call
    | none => refuseAt placed
  | .number _ _ | .literal .plain _ | .literal .national _ | .literal .binary _ | .dollar _ _
  | .placeholder _ | .mark .colon | .mark .at =>
    modify (placed :: ·)
    return .form [.text (← literal).text]
  | _ => refuseAt placed

/-- An operand with the collation after it. -/
def operand (n : Nested) : Parser Expr := do
  -- A type in front of a text comes first, as `date` alone would be a name.
  if let some form ← maybe (typedLiteral n) then return form
  let (expr, final) ← match ← next? with
    | some ⟨.word text quote, _⟩ => wordOperand n text quote
    | some placed => pure (← markOperand n placed, false)
    | none => refuseAnywhere
  -- A word that was taken for a name has no collation.
  if final then return expr
  else if ← keyword? "COLLATE" then
    return .form [.expr expr, .text (" COLLATE " ++ nameText (← objectName))]
  else return expr

/-! ## Dotted operands -/

/-- A part after a period. -/
inductive DottedPart where
  | name (part : Ident)
  | other (expr : Expr)

/-- The parts that an expression after a period stands for. -/
def dottedParts : Expr → List DottedPart
  | .ident name => [.name name]
  | .compound parts => parts.map .name
  | expr => [.other expr]

/-- The parts after an operand, each after a period. A star after a period is not read. -/
def partsAfter (n : Nested) : Parser (List DottedPart) := do
  let found ← many do
    match ← get with
    | ⟨.mark .period, _⟩ :: ⟨.mark .star, _⟩ :: _ => return none
    | ⟨.mark .period, _⟩ :: ⟨.literal .plain text, _⟩ :: rest =>
      set rest
      return some [.name ⟨text, some '\''⟩]
    | ⟨.mark .period, _⟩ :: rest =>
      set rest
      return some (dottedParts (← n.expr Level.period))
    | _ => return none
  return found.flatten

/-- The names of parts that are all names. -/
def DottedPart.names? : List DottedPart → Option (List Ident)
  | [] => some []
  | .name part :: rest => (names? rest).map (part :: ·)
  | .other _ :: _ => none

/-- A part as pieces. -/
def DottedPart.pieces : DottedPart → List Piece
  | .name part => [.expr (.ident part)]
  | .other expr => [.expr expr]

/-- An operand and the parts after it: a name of several parts, a call whose name has several
parts, or an access to a part of a value. -/
def withParts (root : Expr) (parts : List DottedPart) : Expr :=
  if parts.isEmpty then root
  else
    let access := Expr.form (intersperse "." ([.expr root] :: parts.map DottedPart.pieces))
    match root with
    | .ident first =>
      match DottedPart.names? parts with
      | some names => .compound (first :: names)
      | none =>
        match parts.getLast?, DottedPart.names? parts.dropLast with
        | some (.other (.call name arguments window)), some names =>
          .call (first :: names ++ name) arguments window
        | _, _ => access
    | _ => access

/-! ## Operators -/

/-- The text after `ESCAPE`. -/
def escapeClause : Parser String := do
  if ← keyword? "ESCAPE" then return " ESCAPE '" ++ (← typedText) ++ "'" else return ""

/-- The right side of a test for membership. -/
def membership (n : Nested) (left : Expr) (negation : String) : Parser Expr := do
  if ← keyword? "UNNEST" then
    let value ← parenthesized n.any
    return .form [.expr left, .text (negation ++ " IN UNNEST("), .expr value, .text ")"]
  expectMark .openParen
  -- What is no query is read again, as a list of values.
  match ← maybe (n.body 0) with
  | some body =>
    expectMark .closeParen
    return .form [.expr left, .text (negation ++ " IN ("), .query ⟨false, [], body, []⟩, .text ")"]
  | none =>
    let values ← n.exprs
    expectMark .closeParen
    return .form (.expr left :: .text (negation ++ " IN (") :: listPieces values ++ [.text ")"])

/-- The right side of a test against a pattern. -/
def pattern (n : Nested) (left : Expr) (words : String) (escapes : Bool) : Parser Expr := do
  let value ← n.expr Level.like
  let escape ← if escapes then escapeClause else pure ""
  return .form [.expr left, .text (words ++ " "), .expr value, .text escape]

/-- A test that may be denied: membership, a range or a pattern. -/
def deniableTest (n : Nested) (left : Expr) : Parser Expr := do
  let negation := if ← keyword? "NOT" then " NOT" else ""
  if ← keyword? "REGEXP" then pattern n left (negation ++ " REGEXP") false
  else if ← keyword? "RLIKE" then pattern n left (negation ++ " RLIKE") false
  else if ← keyword? "IN" then membership n left negation
  else if ← keyword? "BETWEEN" then
    -- The bounds bind tighter than the `AND` between them.
    let low ← n.expr Level.compare
    expectKeyword "AND"
    let high ← n.expr Level.compare
    return .form [.expr left, .text (negation ++ " BETWEEN "), .expr low, .text " AND ", .expr high]
  else if ← keywords? ["SIMILAR", "TO"] then pattern n left (negation ++ " SIMILAR TO") true
  else match ← oneOf? ["LIKE", "ILIKE"] with
    | some word =>
      let any := if ← keyword? "ANY" then " ANY" else ""
      pattern n left (negation ++ " " ++ word ++ any) true
    | none => refuse

/-- The tests that the word `IS` opens, without their operands. -/
def plainTests : List (List String) :=
  [["NULL"], ["NOT", "NULL"], ["TRUE"], ["NOT", "TRUE"], ["FALSE"], ["NOT", "FALSE"],
   ["UNKNOWN"], ["NOT", "UNKNOWN"]]

/-- A test after `IS`. -/
def isTest (n : Nested) (left : Expr) : Parser Expr := do
  let tokens ← get
  match plainTests.find? (startsWithKeywords · tokens) with
  | some words =>
    set (tokens.drop words.length)
    return .form [.expr left, .text (" IS " ++ Text.joinWith " " words)]
  | none =>
    if ← keywords? ["DISTINCT", "FROM"] then
      return .form [.expr left, .text " IS DISTINCT FROM ", .expr (← n.any)]
    else if ← keywords? ["NOT", "DISTINCT", "FROM"] then
      return .form [.expr left, .text " IS NOT DISTINCT FROM ", .expr (← n.any)]
    else refuse

/-- The right side of an operator, which may be compared with any or all rows. -/
def rightSide (n : Nested) (left : Expr) (operator : String) (level : Nat) (line : PlacedToken) :
    Parser Expr := do
  match ← oneOf? ["ANY", "ALL", "SOME"] with
  | none => return .binary left operator (← n.expr level)
  | some word =>
    let start ← get
    expectMark .openParen
    let right : List Piece ←
      if ← seesOneOf ["SELECT", "WITH"] then do
        -- The query brings its own parentheses.
        set start
        pure [.expr (← n.expr level)]
      else do
        let right ← n.expr level
        expectMark .closeParen
        pure [.text "(", .expr right, .text ")"]
    -- The operator is at fault, but only once its right side is read.
    if !comparesRows operator then refuseAt line
    return .form (.expr left :: .text (" " ++ operator ++ " " ++ word) :: right)

/-- An operand with the operator of a level after it. -/
def operation (n : Nested) (left : Expr) (level : Nat) : Parser Expr := do
  match ← next? with
  | none => refuseAnywhere
  | some placed =>
    match binaryOperator? placed.token with
    | some operator => rightSide n left operator level placed
    | none =>
      if placed.token.isKeyword "IS" then isTest n left
      else if placed.token.isKeyword "AT" then
        expectKeywords ["TIME", "ZONE"]
        return .form [.expr left, .text " AT TIME ZONE ", .expr (← n.expr level)]
      else if ["NOT", "IN", "BETWEEN", "LIKE", "ILIKE", "SIMILAR", "REGEXP", "RLIKE"].any
          placed.token.isKeyword then
        modify (placed :: ·)
        deniableTest n left
      else if placed.token.isMark .doubleColon then
        return .form [.expr left, .text ("::" ++ (← n.type).text)]
      else refuseAt placed

/-- An expression of the operators that bind tighter than `level`. -/
def expression (n : Nested) (level : Nat) : Parser Expr := do
  let root ← operand n
  let start := withParts root (← partsAfter n)
  iterate (fun left => do
    let next := operatorLevel (← get)
    -- A period that is left belongs to a star.
    if next ≤ level || (← seesMark .period) then return none
    else return some (← operation n left next)) start

end SchemaPlan.Grammar
