import SchemaPlan.Proofs.Text.Folding
import SchemaPlan.Query.Text

/-!
# Queries and ASCII case

A query in which the case of all names and words is folded. Two queries that differ in the case of
their names are folded to the same query, and what a query is written as differs from what its
folded form is written as in case only.
-/

namespace SchemaPlan.Query

open SchemaPlan.Text

/-! ## Names -/

/-- A name in lower case. A letter that quotes a name would be confused with the letters in it, so
a name with such a quote is kept. -/
def Ident.folded (name : Ident) : Ident :=
  if name.quote.any Char.isAlpha then name else { name with value := asciiLower name.value }

/-- A column of an alias in lower case. -/
def AliasColumn.folded (column : AliasColumn) : AliasColumn :=
  ⟨column.name.folded, column.type.map asciiLower⟩

/-- An alias in lower case. -/
def TableAlias.folded (label : TableAlias) : TableAlias :=
  ⟨label.name.folded, label.columns.map AliasColumn.folded⟩

/-- Words in lower case. Those that open a brace are told from others by their case. -/
def foldedWords (words : String) : String :=
  if startsWith "\x7b" words then words else asciiLower words

/-! ## Queries -/

mutual

/-- An expression with folded names. -/
def Expr.folded : Expr → Expr
  | .ident name => .ident name.folded
  | .compound parts => .compound (parts.map Ident.folded)
  | .binary left operator right => .binary left.folded operator right.folded
  | .nested inner => .nested inner.folded
  | .call name arguments window =>
    .call (name.map Ident.folded) (foldedPieces arguments) (foldedPieces? window)
  | .form pieces => .form (foldedPieces pieces)

/-- Words and operands with folded names. -/
def foldedPieces : List Piece → List Piece
  | [] => []
  | .text words :: rest => .text (foldedWords words) :: foldedPieces rest
  | .expr operand :: rest => .expr operand.folded :: foldedPieces rest
  | .query inner :: rest => .query inner.folded :: foldedPieces rest

/-- A clause with folded names, if there is one. -/
def foldedPieces? : Option (List Piece) → Option (List Piece)
  | none => none
  | some pieces => some (foldedPieces pieces)

/-- A query with folded names. -/
def Query.folded : Query → Query
  | ⟨recursive, ctes, body, tail⟩ => ⟨recursive, foldedCtes ctes, body.folded, foldedPieces tail⟩

/-- A common table expression with folded names. -/
def Cte.folded : Cte → Cte
  | ⟨label, query, origin⟩ => ⟨label.folded, query.folded, origin.map Ident.folded⟩

/-- Common table expressions with folded names. -/
def foldedCtes : List Cte → List Cte
  | [] => []
  | cte :: rest => cte.folded :: foldedCtes rest

/-- A query body with folded names. -/
def Body.folded : Body → Body
  | .select select => .select select.folded
  | .nested query => .nested query.folded
  | .operation left operator right => .operation left.folded operator right.folded
  | .values explicitRow rows => .values explicitRow (foldedRows rows)
  | .other pieces => .other (foldedPieces pieces)

/-- Rows with folded names. -/
def foldedRows : List (List Expr) → List (List Expr)
  | [] => []
  | row :: rest => foldedExprs row :: foldedRows rest

/-- Expressions with folded names. -/
def foldedExprs : List Expr → List Expr
  | [] => []
  | expr :: rest => expr.folded :: foldedExprs rest

/-- A limit with folded names. -/
def foldedTop : Option Top → Option Top
  | none => none
  | some ⟨.number n, percent, withTies⟩ => some ⟨.number n, percent, withTies⟩
  | some ⟨.expr amount, percent, withTies⟩ => some ⟨.expr amount.folded, percent, withTies⟩

/-- A projected item with folded names. -/
def SelectItem.folded : SelectItem → SelectItem
  | .unnamed expr => .unnamed expr.folded
  | .aliased expr label => .aliased expr.folded label.folded
  | .wildcard => .wildcard
  | .qualifiedWildcard qualifier => .qualifiedWildcard (qualifier.map Ident.folded)

/-- Projected items with folded names. -/
def foldedItems : List SelectItem → List SelectItem
  | [] => []
  | item :: rest => item.folded :: foldedItems rest

/-- A select with folded names. -/
def Select.folded : Select → Select
  | ⟨quantifier, top, projection, into, sources, filter, grouping, tail⟩ =>
    ⟨foldedPieces quantifier, foldedTop top, foldedItems projection, into.map asciiLower,
      foldedSources sources, foldedPieces filter, grouping.folded, foldedPieces tail⟩

/-- A grouping with folded names. -/
def Grouping.folded : Grouping → Grouping
  | .ungrouped => .ungrouped
  | .all => .all
  | .by exprs => .by (foldedExprs exprs)

/-- Sources with folded names. -/
def foldedSources : List JoinedSource → List JoinedSource
  | [] => []
  | source :: rest => source.folded :: foldedSources rest

/-- A source and its joins with folded names. -/
def JoinedSource.folded : JoinedSource → JoinedSource
  | ⟨relation, joins⟩ => ⟨relation.folded, foldedJoins joins⟩

/-- A join with folded names. -/
def Join.folded : Join → Join
  | ⟨isGlobal, operator, relation, condition⟩ =>
    ⟨isGlobal, operator, relation.folded, condition.folded⟩

/-- Joins with folded names. -/
def foldedJoins : List Join → List Join
  | [] => []
  | join :: rest => join.folded :: foldedJoins rest

/-- A condition with folded names. -/
def JoinCondition.folded : JoinCondition → JoinCondition
  | .absent => .absent
  | .natural => .natural
  | .on condition => .on condition.folded
  | .using columns => .using (columns.map Ident.folded)

/-- A single source with folded names. -/
def Factor.folded : Factor → Factor
  | .table name arguments marker label tail =>
    .table (name.map Ident.folded) (foldedPieces? arguments) (asciiLower marker)
      (label.map TableAlias.folded) (foldedPieces tail)
  | .derived lateral query label => .derived lateral query.folded (label.map TableAlias.folded)
  | .joined inner label => .joined inner.folded (label.map TableAlias.folded)
  | .special pieces label => .special (foldedPieces pieces) (label.map TableAlias.folded)

end

/-! ## Texts -/

/-- Quotes are doubled in the same places in either case, unless a letter is the quote. -/
theorem escapeQuotes_map_toLower {quote : Char} (hquote : quote.isAlpha = false) (before : Char)
    (chars : List Char) :
    escapeQuotes quote before.toLower (chars.map Char.toLower) =
      (escapeQuotes quote before chars).map Char.toLower := by
  have hsame (c : Char) : c.toLower = quote ↔ c = quote := toLower_eq_iff hquote
  have hslash (c : Char) : c.toLower = '\\' ↔ c = '\\' := toLower_eq_iff (by decide)
  have hlower : quote.toLower = quote := toLower_of_not_isAlpha hquote
  induction before, chars using escapeQuotes.induct quote with
  | case1 => rfl
  | case2 before c h => simp_all [escapeQuotes]
  | case3 before c h =>
    have hkept : ¬ (c = quote ∧ ¬ before = '\\') := by simpa using h
    simp [escapeQuotes, hsame, hslash, hkept]
  | case4 d rest ih => simpa [escapeQuotes, hlower] using ih
  | case5 before rest hbefore ih => simpa [escapeQuotes, hlower, hslash, hbefore] using ih
  | case6 before d rest hbefore hd ih =>
    simpa [escapeQuotes, hlower, hslash, hsame, hbefore, hd] using ih
  | case7 before c d rest hc ih => simpa [escapeQuotes, hsame, hc] using ih

theorem asciiLower_quoted {quote : Char} (hquote : quote.isAlpha = false) (text : String) :
    asciiLower (quoted quote text) = quoted quote (asciiLower text) := by
  have hchars : escapeQuotes quote (Char.ofNat 0) (text.toList.map Char.toLower) =
      (escapeQuotes quote (Char.ofNat 0) text.toList).map Char.toLower :=
    escapeQuotes_map_toLower hquote (Char.ofNat 0) text.toList
  have hsign : asciiLower (String.singleton quote) = String.singleton quote := by
    simp [asciiLower, toLower_of_not_isAlpha hquote]
  rw [quoted, quoted, asciiLower_append, asciiLower_append, hsign]
  simp [asciiLower, hchars]

namespace Ident

variable (name : Ident)

/-- A name is the same as its folded form up to case. -/
theorem asciiLower_value_folded : asciiLower name.folded.value = asciiLower name.value := by
  unfold Ident.folded
  split
  · rfl
  · exact asciiLower_asciiLower _

theorem asciiLower_text_folded : asciiLower name.folded.text = asciiLower name.text := by
  obtain ⟨value, quote⟩ := name
  unfold Ident.folded
  split
  · rfl
  · rename_i hquote
    dsimp only at hquote ⊢
    unfold Ident.text
    dsimp only
    split
    · exact asciiLower_asciiLower value
    · simp only [asciiLower_append, asciiLower_asciiLower]
    · rename_i q hq
      have hquote : q.isAlpha = false := by simpa using hquote
      rw [asciiLower_quoted hquote, asciiLower_quoted hquote, asciiLower_asciiLower]

end Ident

theorem asciiLower_nameText_folded (parts : List Ident) :
    asciiLower (nameText (parts.map Ident.folded)) = asciiLower (nameText parts) := by
  simp only [nameText, asciiLower_joinWith, List.map_map, Function.comp_def,
    Ident.asciiLower_text_folded]

theorem AliasColumn.asciiLower_text_folded (column : AliasColumn) :
    asciiLower column.folded.text = asciiLower column.text := by
  obtain ⟨name, type⟩ := column
  cases type with
  | none => exact name.asciiLower_text_folded
  | some type =>
    simp only [AliasColumn.folded, AliasColumn.text, Option.map_some, asciiLower_append,
      name.asciiLower_text_folded, asciiLower_asciiLower]

theorem TableAlias.asciiLower_text_folded (label : TableAlias) :
    asciiLower label.folded.text = asciiLower label.text := by
  obtain ⟨name, columns⟩ := label
  unfold TableAlias.text TableAlias.folded
  dsimp only
  rw [List.isEmpty_map]
  split
  · exact name.asciiLower_text_folded
  · simp only [asciiLower_append, asciiLower_joinWith, List.map_map, Function.comp_def,
      name.asciiLower_text_folded, AliasColumn.asciiLower_text_folded]

theorem asciiLower_aliasText_folded (label : Option TableAlias) :
    asciiLower (aliasText (label.map TableAlias.folded)) = asciiLower (aliasText label) := by
  cases label with
  | none => rfl
  | some label =>
    simp only [aliasText, Option.map_some, asciiLower_append, label.asciiLower_text_folded]

theorem asciiLower_foldedWords (words : String) :
    asciiLower (foldedWords words) = asciiLower words := by
  unfold foldedWords
  split
  · rfl
  · exact asciiLower_asciiLower words

/-- The text of a limit in a select. -/
def topText : Option Top → String
  | some limit => " " ++ limit.text
  | none => ""

/-- The text of the target of a select. -/
def intoText : Option String → String
  | some target => " " ++ target
  | none => ""

/-- The text of the sources of a select. -/
def fromText : List JoinedSource → String
  | [] => ""
  | source :: more => " FROM " ++ source.text ++ sourcesText more

theorem Select.text_eq (quantifier : List Piece) (top : Option Top) (projection : List SelectItem)
    (into : Option String) (sources : List JoinedSource) (filter : List Piece)
    (grouping : Grouping) (tail : List Piece) :
    Select.text ⟨quantifier, top, projection, into, sources, filter, grouping, tail⟩ =
      "SELECT" ++ piecesText quantifier ++ topText top ++ " " ++ itemsText projection ++
        intoText into ++ fromText sources ++ piecesText filter ++ grouping.text ++
        piecesText tail := by
  cases top <;> cases into <;> cases sources <;> rfl

theorem asciiLower_intoText (into : Option String) :
    asciiLower (intoText (into.map asciiLower)) = asciiLower (intoText into) := by
  cases into with
  | none => rfl
  | some target =>
    simp only [intoText, Option.map_some, asciiLower_append, asciiLower_asciiLower]

mutual

theorem Expr.asciiLower_text_folded : ∀ expr : Expr,
    asciiLower expr.folded.text = asciiLower expr.text
  | .ident name => name.asciiLower_text_folded
  | .compound parts => asciiLower_nameText_folded parts
  | .binary left operator right => by
    simp only [Expr.folded, Expr.text, asciiLower_append, left.asciiLower_text_folded,
      right.asciiLower_text_folded]
  | .nested inner => by
    simp only [Expr.folded, Expr.text, asciiLower_append, inner.asciiLower_text_folded]
  | .call name arguments none => by
    simp only [Expr.folded, foldedPieces?, Expr.text, asciiLower_append,
      asciiLower_nameText_folded, asciiLower_piecesText_folded arguments]
  | .call name arguments (some window) => by
    simp only [Expr.folded, foldedPieces?, Expr.text, asciiLower_append,
      asciiLower_nameText_folded, asciiLower_piecesText_folded arguments,
      asciiLower_piecesText_folded window]
  | .form pieces => asciiLower_piecesText_folded pieces

theorem asciiLower_piecesText_folded : ∀ pieces : List Piece,
    asciiLower (piecesText (foldedPieces pieces)) = asciiLower (piecesText pieces)
  | [] => rfl
  | .text words :: rest => by
    simp only [foldedPieces, piecesText, asciiLower_append, asciiLower_foldedWords,
      asciiLower_piecesText_folded rest]
  | .expr operand :: rest => by
    simp only [foldedPieces, piecesText, asciiLower_append, operand.asciiLower_text_folded,
      asciiLower_piecesText_folded rest]
  | .query inner :: rest => by
    simp only [foldedPieces, piecesText, asciiLower_append, inner.asciiLower_text_folded,
      asciiLower_piecesText_folded rest]

theorem Query.asciiLower_text_folded : ∀ query : Query,
    asciiLower query.folded.text = asciiLower query.text
  | ⟨recursive, [], body, tail⟩ => by
    simp only [Query.folded, foldedCtes, Query.text, asciiLower_append,
      body.asciiLower_text_folded, asciiLower_piecesText_folded tail]
  | ⟨recursive, cte :: more, body, tail⟩ => by
    simp only [Query.folded, foldedCtes, Query.text, asciiLower_append,
      cte.asciiLower_text_folded, asciiLower_ctesText_folded more, body.asciiLower_text_folded,
      asciiLower_piecesText_folded tail]

theorem Cte.asciiLower_text_folded : ∀ cte : Cte,
    asciiLower cte.folded.text = asciiLower cte.text
  | ⟨label, query, none⟩ => by
    simp only [Cte.folded, Cte.text, asciiLower_append, label.asciiLower_text_folded,
      query.asciiLower_text_folded, Option.map_none]
  | ⟨label, query, some origin⟩ => by
    simp only [Cte.folded, Cte.text, asciiLower_append, label.asciiLower_text_folded,
      query.asciiLower_text_folded, Option.map_some, origin.asciiLower_text_folded]

theorem asciiLower_ctesText_folded : ∀ ctes : List Cte,
    asciiLower (ctesText (foldedCtes ctes)) = asciiLower (ctesText ctes)
  | [] => rfl
  | cte :: rest => by
    simp only [foldedCtes, ctesText, asciiLower_append, cte.asciiLower_text_folded,
      asciiLower_ctesText_folded rest]

theorem Body.asciiLower_text_folded : ∀ body : Body,
    asciiLower body.folded.text = asciiLower body.text
  | .select select => select.asciiLower_text_folded
  | .nested query => by
    simp only [Body.folded, Body.text, asciiLower_append, query.asciiLower_text_folded]
  | .operation left operator right => by
    simp only [Body.folded, Body.text, asciiLower_append, left.asciiLower_text_folded,
      right.asciiLower_text_folded]
  | .values explicitRow rows => by
    simp only [Body.folded, Body.text, asciiLower_append, asciiLower_rowsText_folded rows _]
  | .other pieces => asciiLower_piecesText_folded pieces

theorem asciiLower_rowsText_folded : ∀ (rows : List (List Expr)) (before : String),
    asciiLower (rowsText before (foldedRows rows)) = asciiLower (rowsText before rows)
  | [], _ => rfl
  | [row], _ => by
    simp only [foldedRows, rowsText, asciiLower_append, asciiLower_exprsText_folded row]
  | row :: next :: rest, before => by
    have hrest := asciiLower_rowsText_folded (next :: rest) before
    simp only [foldedRows, rowsText, asciiLower_append, asciiLower_exprsText_folded row] at hrest ⊢
    rw [hrest]

theorem asciiLower_exprsText_folded : ∀ exprs : List Expr,
    asciiLower (exprsText (foldedExprs exprs)) = asciiLower (exprsText exprs)
  | [] => rfl
  | [expr] => expr.asciiLower_text_folded
  | expr :: next :: rest => by
    have hrest := asciiLower_exprsText_folded (next :: rest)
    simp only [foldedExprs, exprsText, asciiLower_append, expr.asciiLower_text_folded] at hrest ⊢
    rw [hrest]

theorem asciiLower_topText_folded : ∀ top : Option Top,
    asciiLower (topText (foldedTop top)) = asciiLower (topText top)
  | none => rfl
  | some ⟨.number _, _, _⟩ => rfl
  | some ⟨.expr amount, percent, withTies⟩ => by
    simp only [foldedTop, topText, Top.text, Quantity.text, asciiLower_append,
      amount.asciiLower_text_folded]

theorem SelectItem.asciiLower_text_folded : ∀ item : SelectItem,
    asciiLower item.folded.text = asciiLower item.text
  | .unnamed expr => expr.asciiLower_text_folded
  | .aliased expr label => by
    simp only [SelectItem.folded, SelectItem.text, asciiLower_append, expr.asciiLower_text_folded,
      label.asciiLower_text_folded]
  | .wildcard => rfl
  | .qualifiedWildcard qualifier => by
    simp only [SelectItem.folded, SelectItem.text, asciiLower_append, asciiLower_nameText_folded]

theorem asciiLower_itemsText_folded : ∀ items : List SelectItem,
    asciiLower (itemsText (foldedItems items)) = asciiLower (itemsText items)
  | [] => rfl
  | [item] => item.asciiLower_text_folded
  | item :: next :: rest => by
    have hrest := asciiLower_itemsText_folded (next :: rest)
    simp only [foldedItems, itemsText, asciiLower_append, item.asciiLower_text_folded] at hrest ⊢
    rw [hrest]

theorem Select.asciiLower_text_folded : ∀ select : Select,
    asciiLower select.folded.text = asciiLower select.text
  | ⟨quantifier, top, projection, into, sources, filter, grouping, tail⟩ => by
    simp only [Select.folded, Select.text_eq, asciiLower_append,
      asciiLower_piecesText_folded quantifier, asciiLower_topText_folded top,
      asciiLower_itemsText_folded projection, asciiLower_intoText,
      asciiLower_fromText_folded sources, asciiLower_piecesText_folded filter,
      grouping.asciiLower_text_folded, asciiLower_piecesText_folded tail]

theorem asciiLower_fromText_folded : ∀ sources : List JoinedSource,
    asciiLower (fromText (foldedSources sources)) = asciiLower (fromText sources)
  | [] => rfl
  | source :: more => by
    simp only [foldedSources, fromText, asciiLower_append, source.asciiLower_text_folded,
      asciiLower_sourcesText_folded more]

theorem Grouping.asciiLower_text_folded : ∀ grouping : Grouping,
    asciiLower grouping.folded.text = asciiLower grouping.text
  | .ungrouped => rfl
  | .all => rfl
  | .by exprs => by
    simp only [Grouping.folded, Grouping.text, asciiLower_append, asciiLower_exprsText_folded exprs]

theorem JoinedSource.asciiLower_text_folded : ∀ source : JoinedSource,
    asciiLower source.folded.text = asciiLower source.text
  | ⟨relation, joins⟩ => by
    simp only [JoinedSource.folded, JoinedSource.text, asciiLower_append,
      relation.asciiLower_text_folded, asciiLower_joinsText_folded joins]

theorem asciiLower_sourcesText_folded : ∀ sources : List JoinedSource,
    asciiLower (sourcesText (foldedSources sources)) = asciiLower (sourcesText sources)
  | [] => rfl
  | source :: rest => by
    simp only [foldedSources, sourcesText, asciiLower_append, source.asciiLower_text_folded,
      asciiLower_sourcesText_folded rest]

theorem asciiLower_joinsText_folded : ∀ joins : List Join,
    asciiLower (joinsText (foldedJoins joins)) = asciiLower (joinsText joins)
  | [] => rfl
  | join :: rest => by
    simp only [foldedJoins, joinsText, asciiLower_append, join.asciiLower_text_folded,
      asciiLower_joinsText_folded rest]

theorem Join.asciiLower_text_folded : ∀ join : Join,
    asciiLower join.folded.text = asciiLower join.text
  | ⟨isGlobal, operator, relation, .absent⟩ => by
    simp only [Join.folded, JoinCondition.folded, Join.text, asciiLower_append,
      relation.asciiLower_text_folded]
  | ⟨isGlobal, operator, relation, .natural⟩ => by
    simp only [Join.folded, JoinCondition.folded, Join.text, asciiLower_append,
      relation.asciiLower_text_folded]
  | ⟨isGlobal, operator, relation, .on condition⟩ => by
    simp only [Join.folded, JoinCondition.folded, Join.text, asciiLower_append,
      relation.asciiLower_text_folded, condition.asciiLower_text_folded]
  | ⟨isGlobal, operator, relation, .using columns⟩ => by
    simp only [Join.folded, JoinCondition.folded, Join.text, asciiLower_append,
      relation.asciiLower_text_folded, asciiLower_joinWith, List.map_map, Function.comp_def,
      Ident.asciiLower_text_folded]

theorem Factor.asciiLower_text_folded : ∀ factor : Factor,
    asciiLower factor.folded.text = asciiLower factor.text
  | .table name none marker label tail => by
    simp only [Factor.folded, foldedPieces?, Factor.text, asciiLower_append,
      asciiLower_nameText_folded, asciiLower_asciiLower, asciiLower_aliasText_folded,
      asciiLower_piecesText_folded tail]
  | .table name (some arguments) marker label tail => by
    simp only [Factor.folded, foldedPieces?, Factor.text, asciiLower_append,
      asciiLower_nameText_folded, asciiLower_piecesText_folded arguments, asciiLower_asciiLower,
      asciiLower_aliasText_folded, asciiLower_piecesText_folded tail]
  | .derived lateral query label => by
    simp only [Factor.folded, Factor.text, asciiLower_append, query.asciiLower_text_folded,
      asciiLower_aliasText_folded]
  | .joined inner label => by
    simp only [Factor.folded, Factor.text, asciiLower_append, inner.asciiLower_text_folded,
      asciiLower_aliasText_folded]
  | .special pieces label => by
    simp only [Factor.folded, Factor.text, asciiLower_append, asciiLower_piecesText_folded pieces,
      asciiLower_aliasText_folded]

end

end SchemaPlan.Query
