import SchemaPlan.Schema.Basic
import SchemaPlan.Sql.Name

/-!
# Relationships

Foreign keys grouped by the table that owns them and by the table they refer to. Groups keep the
order of the keys, so a look-up gives what a scan of all keys would.
-/

namespace SchemaPlan

open SchemaPlan.Sql

/-- A foreign key: the columns of the owning table, and what they refer to. -/
structure ForeignKey where
  name : Option String
  schema : String
  table : String
  columns : List String
  referenced : KeySide
deriving Repr, DecidableEq, Inhabited

/-- The key under which relationships know a table. -/
def tableKey (schema table : String) : String :=
  identifierKey (schema ++ "." ++ table)

namespace ForeignKey

/-- The owning side. -/
def owner (key : ForeignKey) : KeySide :=
  ⟨none, some key.schema, key.table, key.columns⟩

/-- The key of the owning table. -/
def ownerKey (key : ForeignKey) : String := tableKey key.schema key.table

/-- The key of the table that is referred to. -/
def referencedKey (key : ForeignKey) : String :=
  tableKey (key.referenced.schema.getD "") key.referenced.table

end ForeignKey

/-! ## Groups -/

/-- Foreign keys grouped under the key of a table. -/
abbrev KeyGroups := List (String × List ForeignKey)

namespace KeyGroups

/-- The groups with another foreign key at the end of a group. -/
def add (table : String) (key : ForeignKey) : KeyGroups → KeyGroups
  | [] => [(table, [key])]
  | (t, keys) :: rest =>
    if t = table then (t, keys ++ [key]) :: rest else (t, keys) :: KeyGroups.add table key rest

/-- The foreign keys of a group. -/
def get (groups : KeyGroups) (table : String) : List ForeignKey :=
  (groups.lookup table).getD []

/-- The groups of foreign keys under the key that `tableOf` gives each. -/
def ofList (tableOf : ForeignKey → String) (keys : List ForeignKey) : KeyGroups :=
  keys.foldl (fun groups key => KeyGroups.add (tableOf key) key groups) []

end KeyGroups

/-! ## The index -/

/-- All foreign keys of a schema. -/
structure RelationshipIndex where
  foreignKeys : List ForeignKey := []
  byOwner : KeyGroups := []
  byReferenced : KeyGroups := []
deriving Repr, DecidableEq, Inhabited

namespace RelationshipIndex

/-- The index of foreign keys. -/
def ofList (keys : List ForeignKey) : RelationshipIndex :=
  { foreignKeys := keys
    byOwner := KeyGroups.ofList ForeignKey.ownerKey keys
    byReferenced := KeyGroups.ofList ForeignKey.referencedKey keys }

/-- Whether a column is among others without regard to ASCII case. -/
def listsColumn (columns : List String) (column : String) : Bool :=
  columns.any (Text.sameText · column)

/-- What a column refers to. -/
def parents (index : RelationshipIndex) (schema table column : String) : List KeySide :=
  let keys := index.byOwner.get (tableKey schema table)
  (keys.filter fun key => listsColumn key.columns column).map (·.referenced)

/-- What refers to a column. -/
def children (index : RelationshipIndex) (schema table column : String) : List KeySide :=
  let keys := index.byReferenced.get (tableKey schema table)
  (keys.filter fun key => listsColumn key.referenced.columns column).map ForeignKey.owner

end RelationshipIndex

end SchemaPlan
