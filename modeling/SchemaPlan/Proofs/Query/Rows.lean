import SchemaPlan.Proofs.Join.Rows
import SchemaPlan.Resolve.Query
import Mathlib.Data.List.Dedup

/-!
# The rows of a query

What a query yields over a database. A select joins its sources, drops rows, groups them, makes one
row of each group, drops duplicates, sorts what is left and keeps the first rows of it. Without
groups, an aggregate makes one row of the whole input and every other select makes one row of each
row.

A `Database` tells whatever depends on data: which rows the sources hold, which conditions hold and
what the expressions yield. How many rows a clause can leave is fixed here, by its syntax.

`isBoundedQuery` is the matching notion on syntax alone.
-/

namespace SchemaPlan

open SchemaPlan.Query

/-! ## Aggregates -/

/-- The built-in functions that make one row of many. -/
def builtInAggregates : List String :=
  ["APPROX_COUNT_DISTINCT", "AVG", "CHECKSUM_AGG", "COUNT", "COUNT_BIG", "GROUPING", "GROUPING_ID",
   "MAX", "MIN", "STDEV", "STDEVP", "STRING_AGG", "SUM", "VAR", "VARP"]

/-- Whether a name is that of a built-in aggregate. A name with a schema in front is that of a
function someone has defined. -/
def namesAggregate : List Ident → Bool
  | [name] => builtInAggregates.any (Text.sameText · name.value)
  | _ => false

mutual

/-- Whether an expression aggregates the rows of the select that it stands in. A call with a window
keeps these rows apart, but its operands may aggregate them. -/
def aggregatesIn : Expr → Bool
  | .ident _ => false
  | .compound _ => false
  | .binary left _ right => aggregatesIn left || aggregatesIn right
  | .nested inner => aggregatesIn inner
  | .call name arguments none => namesAggregate name || aggregatesInPieces arguments
  | .call _ arguments (some window) => aggregatesInPieces arguments || aggregatesInPieces window
  | .form pieces => aggregatesInPieces pieces

/-- Whether a part of a clause aggregates rows. The aggregates of a subquery are its own. -/
def aggregatesInPieces : List Piece → Bool
  | [] => false
  | .text _ :: rest => aggregatesInPieces rest
  | .expr operand :: rest => aggregatesIn operand || aggregatesInPieces rest
  | .query _ :: rest => aggregatesInPieces rest

end

/-- The expression of an item. -/
def itemExpr? : SelectItem → Option Expr
  | .unnamed expr => some expr
  | .aliased expr _ => some expr
  | .wildcard => none
  | .qualifiedWildcard _ => none

/-- Whether clauses hold a `HAVING`. -/
def hasHaving (clauses : List Piece) : Bool :=
  clauses.any fun
    | .text words => words == " HAVING "
    | _ => false

/-- Whether a select without groups makes one row of all: it aggregates in its projection, in its
order or in another clause, or has a `HAVING`. -/
def collapses (order : List Piece) (select : Select) : Bool :=
  (select.projection.any fun item => (itemExpr? item).any aggregatesIn) ||
    hasHaving select.tail || aggregatesInPieces select.tail || aggregatesInPieces order

/-! ## Databases -/

/-- What a query is evaluated over. A row stands for the values that a select yields, and also for
those that it is sorted by. -/
structure Database (Row : Type) where
  /-- What the sources of a select hold, and which of their rows match. -/
  joins : Select → JoinData Row
  /-- Whether a joined row satisfies the `WHERE` of a select. -/
  passes : Select → JoinedRow Row → Bool
  /-- The keys of the groups that a joined row is in, one for each grouping set. -/
  groups : Select → JoinedRow Row → List Row
  /-- There are no columns to group by without sources, hence no more than one grouping set. -/
  length_groups_le : ∀ select row, select.sources.isEmpty = true → (groups select row).length ≤ 1
  /-- Whether a group satisfies the `HAVING` of a select. -/
  keeps : Select → List (JoinedRow Row) → Bool
  /-- The row that a select makes of a group. -/
  result : Select → List (JoinedRow Row) → Row
  /-- The place of a row in an order. -/
  rank : List Piece → Row → Nat
  /-- The value of an amount that is not written as a number. -/
  amount : Expr → Nat
  /-- A row of literal values. -/
  literal : List Expr → Row
  /-- The rows of a statement in place of a query. -/
  stored : List Piece → List Row
  /-- What the clauses after a query make of its rows: they leave out some, or put all of them into
  one document. -/
  page : List Piece → List Row → List Row
  length_page_le : ∀ clauses rows, (page clauses rows).length ≤ max 1 rows.length

/-! ## Limits -/

/-- The whole number that an amount is written as, in parentheses or not. It has to fit into a
signed number of 64 bits. -/
def writtenNumber? : Quantity → Option Nat
  | .number n => some n
  | .expr amount => Text.natBelow? 9223372036854775808
      (Text.trimWhere (fun c => c == '(' || c == ')' || Text.isSpace c) amount.text)

/-- The number that an amount comes to. -/
def quantityValue (amount : Expr → Nat) : Quantity → Nat
  | .number n => n
  | .expr expr => (writtenNumber? (.expr expr)).getD (amount expr)

/-- The first rows of a sorted list, to a number or to a percentage that is rounded up. The rows
that tie with the last of them are kept as well if the clause says so. -/
def limited {Row : Type} (rank : Row → Nat) (amount : Expr → Nat) (top : Top) (rows : List Row) :
    List Row :=
  let number := quantityValue amount top.quantity
  let count := if top.percent then (rows.length * number + 99) / 100 else number
  let first := rows.take count
  if top.withTies then
    first ++ (rows.drop count).takeWhile fun row =>
      first.getLast?.any fun last => rank row == rank last
  else first

/-! ## Evaluation -/

namespace Database

variable {Row : Type} [DecidableEq Row]

/-- The rows of the sources of a select. A select without sources has one row to start with. -/
def input (db : Database Row) (select : Select) : List (JoinedRow Row) :=
  let joined := match JoinTree.ofSources select.sources with
    | .ok (some tree) => tree.rows (db.joins select) 0 []
    | .ok none => [[]]
    | .error _ => []
  joined.filter (db.passes select)

/-- The groups that a select makes a row of. -/
def units (db : Database Row) (order : List Piece) (select : Select) : List (List (JoinedRow Row)) :=
  if isGrouped select.grouping then
    -- A group for each key, of all rows that have it.
    ((db.input select).flatMap (db.groups select)).dedup.map fun key =>
      (db.input select).filter fun row => key ∈ db.groups select row
  else if collapses order select then [db.input select]
  else (db.input select).map fun row => [row]

/-- The rows of a select that is sorted by an order. -/
def select (db : Database Row) (order : List Piece) (select : Select) : List Row :=
  let made := ((db.units order select).filter (db.keeps select)).map (db.result select)
  -- `TOP` comes last: it sees the rows sorted and without duplicates.
  let distinct := if select.quantifier.isEmpty then made else made.dedup
  let sorted := distinct.mergeSort fun a b => db.rank order a ≤ db.rank order b
  match select.top with
  | some top => limited (db.rank order) db.amount top sorted
  | none => sorted

/-- The rows of a set operation, by its operator and quantifier. -/
def combined (operator : String) (left right : List Row) : List Row :=
  if Text.startsWith "UNION ALL" operator then left ++ right
  else if Text.startsWith "UNION" operator then (left ++ right).dedup
  else if Text.startsWith "INTERSECT" operator then (left.filter (· ∈ right)).dedup
  else (left.filter (· ∉ right)).dedup

mutual

/-- The rows of a query. -/
def query (db : Database Row) : Query → List Row
  | ⟨_, _, queryBody, tail⟩ => db.page tail (db.body tail queryBody)

/-- The rows of a body that the clauses `tail` follow. -/
def body (db : Database Row) (tail : List Piece) : Body → List Row
  | .select select => db.select tail select
  | .nested inner => db.query inner
  | .operation left operator right => combined operator (db.body [] left) (db.body [] right)
  | .values _ rows => rows.map db.literal
  | .other pieces => db.stored pieces

end

end Database

/-! ## Bounds by syntax -/

end SchemaPlan
