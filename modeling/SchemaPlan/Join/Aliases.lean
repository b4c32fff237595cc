import SchemaPlan.Join.Tree
import SchemaPlan.Resolve.Error
import SchemaPlan.Text.LowerCase

/-!
# Names of the sources of a select

Each source is exposed under one name, compared without regard to case. Two sources under the same
name are an error. Sources with an alias are listed with the name that the alias stands for.
-/

namespace SchemaPlan

/-- Pairs in the order of their keys. -/
abbrev SortedMap := List (String × String)

/-- The map with a value for a key; a value that the key had is replaced. -/
def SortedMap.insert (key value : String) : SortedMap → SortedMap
  | [] => [(key, value)]
  | (k, v) :: rest =>
    if key = k then (key, value) :: rest
    else if key < k then (key, value) :: (k, v) :: rest
    else (k, v) :: SortedMap.insert key value rest

/-- The names under which the sources of a select are known. -/
structure SourceNames where
  /-- Each alias with the name of the table or view behind it. -/
  aliases : SortedMap := []
  /-- Each exposed name in lower case, with the place of its leaf. -/
  exposed : List (String × Nat) := []
deriving Repr, DecidableEq, Inhabited

namespace SourceNames

/-- The place of the leaf that is exposed under a name. -/
def index? (names : SourceNames) (name : String) : Option Nat :=
  names.exposed.lookup (Text.lower name)

/-- The names with those of a leaf at a place. -/
def add (names : SourceNames) (leaf : Leaf) (index : Nat) : Except ResolveError SourceNames :=
  match leaf.exposedName? with
  | none => .ok names
  | some name =>
    if (names.index? name).isSome then .error (.aliasCollision name)
    else
      let exposed := (Text.lower name, index) :: names.exposed
      match leaf with
      | .source object (some label) =>
        .ok { aliases := names.aliases.insert label object.dotted, exposed }
      | _ => .ok { names with exposed }

/-- The names of leaves, the first of which stands at `index`. -/
def addAll (names : SourceNames) (index : Nat) : List Leaf → Except ResolveError SourceNames
  | [] => .ok names
  | leaf :: rest => do
    let names ← names.add leaf index
    names.addAll (index + 1) rest

/-- The names of the sources in a tree. -/
def ofTree (tree : Option JoinTree) : Except ResolveError SourceNames :=
  addAll {} 0 ((tree.map JoinTree.leaves).getD [])

end SourceNames

end SchemaPlan
