/-!
# Ranges of code points

A character property is stored as a list of closed ranges of code points, in ascending order.
`Ranges.has` is membership.
-/

namespace SchemaPlan.Text

/-- A character property as closed ranges of code points. -/
abbrev Ranges := List (Nat × Nat)

/-- A character has the property when one of the ranges holds its code point. -/
def Ranges.has (ranges : Ranges) (c : Char) : Bool :=
  ranges.any fun range => range.1 ≤ c.toNat && c.toNat ≤ range.2

/-- A run of letters that lie `step` apart, each `shift` code points from its lower case. -/
structure CaseRun where
  first : Nat
  last : Nat
  step : Nat
  shift : Int
deriving Repr, DecidableEq

/-- The letters of a run are `first`, `first + step`, ... up to `last`. -/
def CaseRun.has (run : CaseRun) (c : Char) : Bool :=
  run.first ≤ c.toNat && c.toNat ≤ run.last && (c.toNat - run.first) % run.step == 0

end SchemaPlan.Text
