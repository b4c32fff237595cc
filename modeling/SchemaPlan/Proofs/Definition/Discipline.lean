import SchemaPlan.Proofs.Definition.Loops

/-!
# What every use of a cursor keeps to

A cursor is used through a few operations, one after another, some of which may fail. Whatever they are,
it stays among its tokens, and each operation moves it as far as it says. So the loops that consist of
these operations end.

* `Operation`: what is done with a cursor.
* `Disciplined`: what each operation does from where a cursor stands.
* `Operation.disciplined_foldl_after`: every sequence of operations leaves such a cursor.
-/

namespace SchemaPlan.Sql.Reading

open Body Definition

/-- What is done with a cursor. -/
inductive Operation where
  | moveTo (pos : Nat)
  | advance
  | skipBlanks
  | skipGroup
  | skipToDelimiter
  | sees (p : Token → Bool)
  | expect (p : Token → Bool)
  | identifier
  | qualifiedName
  | identifierList
  | declaredType
  | wholeNumber

namespace Operation

/-- An operation as a step; what it reads is left out. -/
def step : Operation → Reading Unit
  | .moveTo pos => Reading.moveTo pos
  | .advance => Reading.advance
  | .skipBlanks => Reading.skipBlanks
  | .skipGroup => Reading.skipGroup
  | .skipToDelimiter => Reading.skipToDelimiter
  | .sees p => discard (Reading.sees p)
  | .expect p => Reading.expect p
  | .identifier => discard Reading.identifier
  | .qualifiedName => discard Reading.qualifiedName
  | .identifierList => discard Reading.identifierList
  | .declaredType => discard Reading.declaredType
  | .wholeNumber => discard Reading.wholeNumber

/-- Whether an operation goes to a position of its own. -/
def jumps : Operation → Bool
  | .moveTo _ => true
  | _ => false

/-- Whether an operation reads a value. -/
def parses : Operation → Bool
  | .identifier | .qualifiedName | .identifierList | .declaredType | .wholeNumber => true
  | _ => false

/-- The cursor behind an operation, also where that fails. -/
def after (c : Cursor) (operation : Operation) : Cursor := (OptionT.run operation.step c).2

end Operation

/-- What the operations do from where a cursor stands, and that the loops end which start there. -/
structure Disciplined (c : Cursor) : Prop where
  /-- Only a jump moves back. -/
  onward : ∀ operation : Operation, operation.jumps = false → c.pos ≤ (operation.after c).pos
  /-- A token that is expected is taken, and where it is missing the cursor stays. -/
  expects : ∀ p : Token → Bool, OptionT.run (expect p) c =
    if c.sees p = true then (some (), { c with pos := c.pos + 1 }) else (none, c)
  /-- A value is not read from nothing. -/
  parses : ∀ (operation : Operation) (d : Cursor), operation.parses = true →
    Gives operation.step c () d → c.pos < d.pos
  /-- A group is left behind the parenthesis that closes it. -/
  group : ∀ inner more, c.rest = .mark .openParen :: (inner ++ .mark .closeParen :: more) →
    Balanced inner → Operation.skipGroup.after c = { c with pos := c.pos + inner.length + 2 }
  /-- A group that is not closed takes all that is left. -/
  openGroup : ∀ tokens, c.rest = .mark .openParen :: tokens → ¬ Ended tokens →
    Operation.skipGroup.after c = { c with pos := c.tokens.size }
  /-- An element is left at the first delimiter outside the groups that it opens itself. -/
  delimiter : ∀ passed token more, c.rest = passed ++ token :: more → Flat passed →
    (token = .mark .comma ∨ token = .mark .closeParen) →
    Operation.skipToDelimiter.after c = { c with pos := c.pos + passed.length }
  /-- An element without a delimiter takes all that is left. -/
  noDelimiter : ¬ Delimited c.rest → Operation.skipToDelimiter.after c = { c with pos := c.tokens.size }
  loops : LoopsEnd c

namespace Operation

variable {c : Cursor} {operation : Operation}

theorem takesToken_step (h : operation.parses = true) : TakesToken operation.step := by
  cases operation with
  | identifier => exact takesToken_identifier.bind fun _ => movesOn_pure ()
  | qualifiedName => exact takesToken_qualifiedName.bind fun _ => movesOn_pure ()
  | identifierList => exact takesToken_identifierList.bind fun _ => movesOn_pure ()
  | declaredType => exact takesToken_declaredType.bind fun _ => movesOn_pure ()
  | wholeNumber => exact takesToken_wholeNumber.bind fun _ => movesOn_pure ()
  | _ => cases h

theorem movesOn_step (h : operation.jumps = false) : MovesOn operation.step := by
  cases operation with
  | moveTo => cases h
  | advance => exact movesOn_advance
  | skipBlanks => exact movesOn_skipBlanks
  | skipGroup => exact movesOn_skipGroup
  | skipToDelimiter => exact movesOn_skipToDelimiter
  | sees p => exact movesOn_discard (movesOn_sees p)
  | expect p => exact movesOn_expect p
  | _ => exact (takesToken_step rfl).movesOn

/-- An operation leaves the cursor among its tokens. -/
theorem tokens_and_inBounds_after (operation : Operation) (hc : c.InBounds) :
    (operation.after c).tokens = c.tokens ∧ (operation.after c).InBounds := by
  cases hjumps : operation.jumps with
  | true =>
    obtain ⟨pos, rfl⟩ : ∃ pos, operation = .moveTo pos := by
      cases operation with
      | moveTo pos => exact ⟨pos, rfl⟩
      | _ => cases hjumps
    exact ⟨rfl, c.inBounds_moveTo pos⟩
  | false =>
    have hafter := (movesOn_step hjumps).precedes hc
    exact ⟨hafter.tokens_eq, hafter.inBounds⟩

theorem run_expect (p : Token → Bool) (c : Cursor) :
    OptionT.run (Reading.expect p) c =
      if c.sees p = true then (some (), { c with pos := c.pos + 1 }) else (none, c) := by
  cases hsees : c.sees p with
  | true =>
    have hgives : Gives (Reading.expect p) c () c.advance := gives_expect.mpr ⟨hsees, rfl⟩
    rw [hgives.run_eq, if_pos rfl, Cursor.advance_of_lt (Cursor.lt_of_sees hsees)]
  | false =>
    have hgives : Gives (accepts p) c false c := gives_accepts.mpr (.inr ⟨rfl, hsees, rfl⟩)
    rw [Reading.expect, run_bind, hgives.run_eq]
    rfl

theorem disciplined (hc : c.InBounds) : Disciplined c where
  onward _ hjumps := ((movesOn_step hjumps).precedes hc).pos_le
  expects p := run_expect p c
  parses _ _ hparses hgives := (takesToken_step hparses).pos_lt hc hgives trivial
  group _ _ hrest hinner := Cursor.skipGroup_eq_of_balanced hinner hrest
  openGroup _ hrest hended := Cursor.skipGroup_eq_of_not_ended hrest hended
  delimiter _ _ _ hrest hpassed htoken := Cursor.skipToDelimiter_eq_of_flat hpassed htoken hrest
  noDelimiter h := Cursor.skipToDelimiter_eq_of_not_delimited hc h
  loops := loopsEnd hc

theorem tokens_and_inBounds_foldl (operations : List Operation) (hc : c.InBounds) :
    (operations.foldl after c).tokens = c.tokens ∧ (operations.foldl after c).InBounds := by
  -- What one operation keeps, all of them keep.
  induction operations generalizing c with
  | nil => exact ⟨rfl, hc⟩
  | cons operation rest ih =>
    obtain ⟨htokens, hbounds⟩ := tokens_and_inBounds_after operation hc
    obtain ⟨htokens', hbounds'⟩ := ih hbounds
    exact ⟨htokens'.trans htokens, hbounds'⟩

/-- Whatever operations are done one after another, the cursor does not move beyond the end of its tokens.
Only a jump moves it back; a token that is expected is taken, and only that; what reads a value takes a
token; a group is left behind the parenthesis that closes it, and an element of a list at its delimiter,
both at the end if there is none; and every loop that starts there ends. -/
theorem disciplined_foldl_after (tokens : Array PlacedToken) (operations : List Operation) :
    (operations.foldl after ⟨tokens, 0⟩).tokens = tokens ∧
      (operations.foldl after ⟨tokens, 0⟩).pos ≤ tokens.size ∧
      Disciplined (operations.foldl after ⟨tokens, 0⟩) := by
  have hstart : (⟨tokens, 0⟩ : Cursor).InBounds := Nat.zero_le tokens.size
  obtain ⟨htokens, hbounds⟩ := tokens_and_inBounds_foldl operations hstart
  refine ⟨htokens, ?_, disciplined hbounds⟩
  have hle : (operations.foldl after ⟨tokens, 0⟩).pos ≤
      (operations.foldl after ⟨tokens, 0⟩).tokens.size := hbounds
  rwa [htokens] at hle

end Operation

end SchemaPlan.Sql.Reading
