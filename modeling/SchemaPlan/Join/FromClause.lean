import SchemaPlan.Join.Qualifiers
import SchemaPlan.Join.Tree
import SchemaPlan.Query.Text
import SchemaPlan.Resolve.Error

/-!
# The join tree of a select

`JoinTree.ofSources` turns the sources of a select into a join tree. It fails only where a source
has a name of more than four parts or an empty one.
-/

namespace SchemaPlan

open SchemaPlan.Sql SchemaPlan.Query

/-- A semi or anti join counts as the outer join of its side, unless other words stand in front. -/
def sidedKind (kind : JoinKind) (isGlobal isNatural : Bool) : JoinKind :=
  if isGlobal || isNatural then .inner else kind

/-- Whether a join compares the columns of the same name. -/
def isNaturalJoin : JoinCondition → Bool
  | .natural => true
  | _ => false

/-- The kind of a join. -/
def joinKind (isGlobal : Bool) (operator : JoinOperator) (isNatural : Bool) : JoinKind :=
  match operator with
  | .inner => .inner
  | .left => .leftOuter
  | .right => .rightOuter
  | .full => .fullOuter
  | .crossApply => .crossApply
  | .outerApply => .outerApply
  | .cross => if isGlobal then .inner else .cross
  | .leftSemi => sidedKind .leftOuter isGlobal isNatural
  | .leftAnti => sidedKind .leftOuter isGlobal isNatural
  | .rightSemi => sidedKind .rightOuter isGlobal isNatural
  | .rightAnti => sidedKind .rightOuter isGlobal isNatural
  | .semi => .inner
  | .anti => .inner

/-- The qualifiers that a join names: in its condition, or in the parentheses of what it applies. -/
def joinReferences (operator : JoinOperator) (relation : Factor) (condition : JoinCondition) :
    List String :=
  match operator with
  | .crossApply => qualifiersIn 1 relation.text
  | .outerApply => qualifiersIn 1 relation.text
  | .inner | .left | .right | .full =>
    match condition with
    | .on expr => qualifiersIn 0 expr.text
    | _ => []
  | _ => []

/-- The name of a column in an alias: the first word of its text without quotes. -/
def aliasColumnName (column : AliasColumn) : String :=
  let text := column.text
  unquote ((Text.words text).headD text)

/-- The values of the parts of a name. -/
def nameValues (name : List Ident) : List String := name.map (·.value)

/-- The leaf of a named source. -/
def namedLeaf (name : List Ident) (hasArguments : Bool) (label : Option TableAlias) :
    Except ResolveError Leaf :=
  let label := label.map (·.name.value)
  if hasArguments then .ok (.function (Text.joinWith "." (nameValues name)) label)
  else match QualifiedName.ofParts? (nameValues name) with
    | some object => .ok (.source object label)
    | none => .error (.malformedSelect ("invalid source name '" ++ nameText name ++ "'"))

mutual

/-- The tree of a single source. -/
def JoinTree.ofFactor : Factor → Except ResolveError JoinTree
  | .table name arguments _ label _ =>
    (namedLeaf name arguments.isSome label).map JoinTree.leaf
  | .derived _ query label =>
    let columns := (label.map fun a => a.columns.map aliasColumnName).getD []
    .ok (.leaf (.derived (label.map (·.name.value)) columns query))
  -- An alias behind the parentheses names nothing that the select can refer to.
  | .joined inner _ => JoinTree.ofSource inner
  | .special pieces label => .ok (.leaf (.function (piecesText pieces ++ aliasText label) none))

/-- The tree of a source and its joins. -/
def JoinTree.ofSource : JoinedSource → Except ResolveError JoinTree
  | ⟨relation, joins⟩ => do
    let tree ← JoinTree.ofFactor relation
    JoinTree.withJoins tree joins

/-- A tree with further joins. -/
def JoinTree.withJoins (tree : JoinTree) : List Join → Except ResolveError JoinTree
  | [] => .ok tree
  | ⟨isGlobal, operator, relation, condition⟩ :: rest => do
    let right ← JoinTree.ofFactor relation
    let kind := joinKind isGlobal operator (isNaturalJoin condition)
    JoinTree.withJoins (.join kind tree right (joinReferences operator relation condition)) rest

end

/-- The sources after the first, each cross joined to those before. -/
def JoinTree.withSources (tree : JoinTree) : List JoinedSource → Except ResolveError JoinTree
  | [] => .ok tree
  | source :: rest => do
    let next ← JoinTree.ofSource source
    JoinTree.withSources (.join .cross tree next []) rest

/-- The tree of the sources of a select; nothing if it has none. -/
def JoinTree.ofSources : List JoinedSource → Except ResolveError (Option JoinTree)
  | [] => .ok none
  | source :: rest => do
    let tree ← JoinTree.ofSource source
    return some (← JoinTree.withSources tree rest)

end SchemaPlan
