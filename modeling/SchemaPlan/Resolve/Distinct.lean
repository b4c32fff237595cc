import SchemaPlan.Schema.Basic

/-!
# Distinct result names

Names of result columns that repeat an earlier one, without regard to case, take the least number
from two on that makes them new: `id, id, id` become `id, id2, id3`.
-/

namespace SchemaPlan

/-- A name that is not yet taken: the name itself, or the name with a number. As there are more
numbers to try than taken names, one of them fits. -/
def freshName (taken : List String) (name : String) : String :=
  if taken.contains (Text.lower name) then
    let numbers := (List.range (taken.length + 1)).map (· + 2)
    let isNew := fun n => !taken.contains (Text.lower (name ++ toString n))
    name ++ toString ((numbers.find? isNew).getD 2)
  else name

/-- The columns under distinct names; `taken` are the names before them in lower case. -/
def distinctNames (taken : List String) : List ResultColumn → List ResultColumn
  | [] => []
  | column :: rest =>
    let name := freshName taken column.name
    { column with name } :: distinctNames (Text.lower name :: taken) rest

end SchemaPlan
