/-!
# Queries

The parts of a query: the common table expressions in front of it, its body, the items it
projects and the sources it reads. Expressions keep the forms that decide what a column is: names,
comparisons, parentheses and calls. Every other expression, and every clause that does not bear on
the columns of a result, is kept as its words and operands in order, so that a query can be
written back.
-/

namespace SchemaPlan.Query

/-- A name with the character that quotes it, if one does: a bracket or a quote. -/
structure Ident where
  value : String
  quote : Option Char := none
deriving Repr, DecidableEq, Inhabited

/-- A column in the list after an alias, with an optional type. -/
structure AliasColumn where
  name : Ident
  type : Option String := none
deriving Repr, DecidableEq, Inhabited

/-- The name a source takes in a query, with optional names for its columns. -/
structure TableAlias where
  name : Ident
  columns : List AliasColumn := []
deriving Repr, DecidableEq, Inhabited

/-- How a source is joined to those before it. -/
inductive JoinOperator where
  | inner | left | right | full | cross | crossApply | outerApply
  | semi | leftSemi | rightSemi | anti | leftAnti | rightAnti
deriving Repr, DecidableEq, Inhabited

mutual

/-- A scalar expression. -/
inductive Expr where
  /-- A single name: a column, or a variable. -/
  | ident (name : Ident)
  /-- A name of several parts joined by periods. -/
  | compound (parts : List Ident)
  /-- Two operands around an operator, which is given by its spelling. -/
  | binary (left : Expr) (operator : String) (right : Expr)
  /-- An expression in parentheses. -/
  | nested (inner : Expr)
  /-- A function call: its name, what follows the name, and the window if it has one. -/
  | call (name : List Ident) (arguments : List Piece) (window : Option (List Piece))
  /-- Any other expression as words and operands. -/
  | form (pieces : List Piece)

/-- A part of the written form of an expression or clause. -/
inductive Piece where
  | text (words : String)
  | expr (operand : Expr)
  | query (inner : Query)

/-- A query: common table expressions, a body, and the clauses after it such as its order. -/
structure Query where
  recursive : Bool
  ctes : List Cte
  body : Body
  tail : List Piece

/-- A common table expression, with the source named after it if there is one. -/
structure Cte where
  label : TableAlias
  query : Query
  origin : Option Ident

/-- The body of a query. -/
inductive Body where
  | select (select : Select)
  | nested (query : Query)
  /-- A set operation; the operator is given with its quantifier. -/
  | operation (left : Body) (operator : String) (right : Body)
  /-- Literal rows; `explicitRow` tells that they are written with the word `ROW`. -/
  | values (explicitRow : Bool) (rows : List (List Expr))
  /-- A statement in place of a query, or a bare table. -/
  | other (pieces : List Piece)

/-- How many rows a select keeps. -/
inductive Quantity where
  | number (n : Nat)
  | expr (amount : Expr)

/-- The clause that limits a select to its first rows. -/
structure Top where
  quantity : Quantity
  percent : Bool
  withTies : Bool

/-- An item of a projection. -/
inductive SelectItem where
  | unnamed (expr : Expr)
  | aliased (expr : Expr) (label : Ident)
  | wildcard
  | qualifiedWildcard (qualifier : List Ident)

/-- The grouping of a select. -/
inductive Grouping where
  | ungrouped
  | all
  | by (exprs : List Expr)

/-- A select. `filter` holds the clauses between the sources and the grouping, `tail` those after
the grouping. -/
structure Select where
  quantifier : List Piece
  top : Option Top
  projection : List SelectItem
  into : Option String
  sources : List JoinedSource
  filter : List Piece
  grouping : Grouping
  tail : List Piece

/-- A source and what is joined to it. -/
structure JoinedSource where
  relation : Factor
  joins : List Join

/-- A join. -/
structure Join where
  isGlobal : Bool
  operator : JoinOperator
  relation : Factor
  condition : JoinCondition

/-- The condition of a join. -/
inductive JoinCondition where
  | absent
  | natural
  | on (condition : Expr)
  | using (columns : List Ident)

/-- A single source of rows. -/
inductive Factor where
  /-- A named table, or a function if there are arguments. `marker` is written before the alias and
  `tail` after it. -/
  | table (name : List Ident) (arguments : Option (List Piece)) (marker : String)
      (label : Option TableAlias) (tail : List Piece)
  /-- A query in parentheses. -/
  | derived (lateral : Bool) (query : Query) (label : Option TableAlias)
  /-- Joined sources in parentheses. -/
  | joined (inner : JoinedSource) (label : Option TableAlias)
  /-- Any other source as words and operands. -/
  | special (pieces : List Piece) (label : Option TableAlias)

end

instance : Inhabited Expr := ⟨.ident default⟩

instance : Inhabited Factor := ⟨.special [] none⟩

end SchemaPlan.Query
