import SchemaPlan.Proofs.Body.Closing
import SchemaPlan.Proofs.Definition.Ahead
import SchemaPlan.Proofs.Definition.Constraint

/-!
# Where a cursor moves to

A cursor moves on among the same tokens and never beyond their end. Where it stands is told from the
tokens that it has moved over.

* `Cursor.Precedes`: one cursor stands behind another.
* `Cursor.skipGroup_eq_of_balanced`, `Cursor.skipGroup_eq_of_not_ended`: where a group is left.
* `Cursor.skipToDelimiter_eq_of_flat`, `Cursor.skipToDelimiter_eq_of_not_delimited`: where an element of
  a list is left.
-/

namespace SchemaPlan.Sql

open Body

/-! ## Delimiters -/

/-- A comma or a closing parenthesis follows that stands in no group which opens on the way. -/
def Delimited (tokens : List Token) : Prop :=
  ∃ passed token more, tokens = passed ++ token :: more ∧ Flat passed ∧
    (token = .mark .comma ∨ token = .mark .closeParen)

section Delimited

variable {token : Token} {tokens passed more : List Token}

theorem Delimited.cons (hcomma : token ≠ .mark .comma) (hopen : token ≠ .mark .openParen)
    (hclose : token ≠ .mark .closeParen) (h : Delimited tokens) : Delimited (token :: tokens) := by
  obtain ⟨passed, delimiter, more, rfl, hpassed, hdelimiter⟩ := h
  exact ⟨token :: passed, delimiter, more, rfl, .token hcomma hopen hclose hpassed, hdelimiter⟩

theorem Delimited.group (h : ClosesTo Delimited 1 tokens) :
    Delimited (.mark .openParen :: tokens) := by
  obtain ⟨inner, _, rfl, hinner, passed, delimiter, more, rfl, hpassed, hdelimiter⟩ := h
  exact ⟨.mark .openParen :: (inner ++ .mark .closeParen :: passed), delimiter, more, by simp,
    .group hinner hpassed, hdelimiter⟩

/-- Where something is found at a delimiter, one follows behind the groups that are open. -/
theorem closesTo_of_fromDelimiter {depth : Nat} (h : fromDelimiter depth tokens ≠ []) :
    ClosesTo Delimited depth tokens := by
  -- One case for each kind of token; outside all groups the place itself may be delimited.
  fun_induction fromDelimiter depth tokens with
  | case1 => exact absurd rfl h
  | case2 rest => exact ⟨[], .mark .comma, rest, rfl, .nil, .inl rfl⟩
  | case3 depth rest hdepth ih =>
    obtain ⟨depth, rfl⟩ := Nat.exists_eq_add_one_of_ne_zero hdepth
    exact (ih h).cons (by decide) (by decide)
  | case4 depth rest ih =>
    cases depth with
    | zero => exact Delimited.group (ih h)
    | succ depth => exact (ih h).open
  | case5 rest => exact ⟨[], .mark .closeParen, rest, rfl, .nil, .inr rfl⟩
  | case6 depth rest hdepth ih =>
    obtain ⟨depth, rfl⟩ := Nat.exists_eq_add_one_of_ne_zero hdepth
    exact (ih h).close
  | case7 depth token rest hcomma hopen hclose ih =>
    cases depth with
    | zero => exact Delimited.cons hcomma hopen hclose (ih h)
    | succ depth => exact (ih h).cons hopen hclose

theorem fromDelimiter_of_not_delimited (h : ¬ Delimited tokens) : fromDelimiter 0 tokens = [] :=
  Classical.byContradiction fun hne => h (closesTo_of_fromDelimiter hne)

theorem fromDelimiter_of_flat (hpassed : Flat passed)
    (htoken : token = .mark .comma ∨ token = .mark .closeParen) :
    fromDelimiter 0 (passed ++ token :: more) = token :: more := by
  rw [fromDelimiter_flat hpassed]
  rcases htoken with rfl | rfl
  · rw [fromDelimiter, if_pos rfl]
  · rw [fromDelimiter, if_pos rfl]

end Delimited

namespace Cursor

section Position

variable {c d e : Cursor} {token : Token} {tokens passed inner more : List Token}

/-! ## Positions -/

/-- A cursor stands at a token or at the end. -/
def InBounds (c : Cursor) : Prop := c.pos ≤ c.tokens.size

/-- `d` stands among the tokens of `c`, not in front of it and not beyond the end. -/
structure Precedes (c d : Cursor) : Prop where
  tokens_eq : d.tokens = c.tokens
  pos_le : c.pos ≤ d.pos
  inBounds : d.InBounds

theorem InBounds.precedes (h : c.InBounds) : c.Precedes c := ⟨rfl, Nat.le_refl _, h⟩

theorem Precedes.trans (h : c.Precedes d) (hnext : d.Precedes e) : c.Precedes e :=
  ⟨hnext.tokens_eq.trans h.tokens_eq, Nat.le_trans h.pos_le hnext.pos_le, hnext.inBounds⟩

theorem Precedes.left_add_pos (h : c.Precedes d) : d.left + d.pos = c.left + c.pos := by
  have hbounds : d.pos ≤ d.tokens.size := h.inBounds
  have hsize := congrArg Array.size h.tokens_eq
  have hpos := h.pos_le
  unfold left
  omega

/-- Where a cursor stands is told from the tokens between. -/
theorem Precedes.eq_of_rest (h : c.Precedes d) (hrest : c.rest = passed ++ d.rest) :
    d = { c with pos := c.pos + passed.length } := by
  have hlength := congrArg List.length hrest
  rw [List.length_append, ← left_eq, ← left_eq] at hlength
  have hleft := h.left_add_pos
  have hpos : d.pos = c.pos + passed.length := by omega
  rw [← hpos, ← h.tokens_eq]

theorem pos_lt_of_rest (h : c.rest = token :: tokens) : c.pos < c.tokens.size := by
  by_cases hlt : c.pos < c.tokens.size
  · exact hlt
  · rw [rest_of_not_lt hlt] at h
    cases h

theorem inBounds_of_rest (h : c.rest = token :: tokens) : c.InBounds :=
  Nat.le_of_lt (pos_lt_of_rest h)

/-- To move back to where a cursor stood is to undo what has been moved since. -/
theorem Precedes.moveTo_pos (h : c.Precedes d) : d.moveTo c.pos = c := by
  have hpos : c.pos ≤ d.tokens.size := Nat.le_trans h.pos_le h.inBounds
  rw [moveTo, Nat.min_eq_left hpos, h.tokens_eq]

theorem inBounds_moveTo (c : Cursor) (pos : Nat) : (c.moveTo pos).InBounds := Nat.min_le_right _ _

/-! ## Moves -/

theorem advance_of_lt (h : c.pos < c.tokens.size) : c.advance = { c with pos := c.pos + 1 } := by
  rw [advance, atEnd, if_neg (by simpa using h)]

theorem lt_of_sees {p : Token → Bool} (h : c.sees p = true) : c.pos < c.tokens.size := by
  obtain ⟨token, -, hrest⟩ := Reading.exists_token_of_sees h
  exact pos_lt_of_rest hrest

theorem pos_lt_advance {p : Token → Bool} (h : c.sees p = true) : c.pos < c.advance.pos := by
  rw [advance_of_lt (lt_of_sees h)]
  exact Nat.lt_succ_self _

theorem precedes_next (h : c.pos < c.tokens.size) : c.Precedes { c with pos := c.pos + 1 } :=
  ⟨rfl, Nat.le_succ _, h⟩

theorem precedes_advance (h : c.InBounds) : c.Precedes c.advance := by
  by_cases hlt : c.pos < c.tokens.size
  · rw [advance_of_lt hlt]
    exact precedes_next hlt
  · rw [advance, atEnd, if_pos (by simpa using hlt)]
    exact h.precedes

theorem precedes_skipWhile (p : Token → Bool) (h : c.InBounds) : c.Precedes (c.skipWhile p) := by
  fun_induction skipWhile p c with
  | case1 c hlt _ ih => exact (precedes_next hlt).trans (ih hlt)
  | case2 => exact h.precedes
  | case3 => exact h.precedes

theorem precedes_skipBlanks (h : c.InBounds) : c.Precedes c.skipBlanks := precedes_skipWhile _ h

theorem precedes_skipClosing (depth : Nat) (h : c.InBounds) : c.Precedes (c.skipClosing depth) := by
  fun_induction skipClosing depth c with
  | case1 depth c hlt next _ ih => exact (precedes_next hlt).trans (ih hlt)
  | case2 depth c hlt next => exact precedes_next hlt
  | case3 depth c hlt next _ _ ih => exact (precedes_next hlt).trans (ih hlt)
  | case4 depth c hlt next _ _ ih => exact (precedes_next hlt).trans (ih hlt)
  | case5 => exact h.precedes

theorem precedes_skipGroup (h : c.InBounds) : c.Precedes c.skipGroup := by
  unfold skipGroup
  split
  · exact precedes_skipClosing 0 h
  · exact h.precedes

theorem precedes_skipToDelimiter (depth : Nat) (h : c.InBounds) :
    c.Precedes (c.skipToDelimiter depth) := by
  fun_induction skipToDelimiter depth c with
  | case1 => exact h.precedes
  | case2 depth c hlt next _ _ ih => exact (precedes_next hlt).trans (ih hlt)
  | case3 depth c hlt next _ ih => exact (precedes_next hlt).trans (ih hlt)
  | case4 => exact h.precedes
  | case5 depth c hlt next _ _ ih => exact (precedes_next hlt).trans (ih hlt)
  | case6 depth c hlt next _ _ _ ih => exact (precedes_next hlt).trans (ih hlt)
  | case7 => exact h.precedes

/-- A group takes at least the parenthesis that opens it. -/
theorem pos_lt_skipGroup (h : c.sees (·.isMark .openParen) = true) : c.pos < c.skipGroup.pos := by
  have hlt := lt_of_sees h
  have hnext (depth : Nat) : c.pos < (skipClosing depth { c with pos := c.pos + 1 }).pos :=
    (precedes_skipClosing (c := { c with pos := c.pos + 1 }) depth hlt).pos_le
  rw [skipGroup, if_pos h, skipClosing, dif_pos hlt]
  split
  · exact hnext 1
  · exact Nat.lt_succ_self _
  · exact hnext 0

/-! ## Groups and elements of lists -/

theorem rest_skipGroup (hrest : c.rest = .mark .openParen :: tokens) :
    c.skipGroup.rest = afterClosing 1 tokens := by
  have hopen : c.sees (·.isMark .openParen) = true := by
    rw [sees_eq, hrest]
    rfl
  rw [skipGroup, if_pos hopen, rest_skipClosing, hrest, afterClosing]

/-- A group is left behind the parenthesis that closes it. -/
theorem skipGroup_eq_of_balanced (hinner : Balanced inner)
    (hrest : c.rest = .mark .openParen :: (inner ++ .mark .closeParen :: more)) :
    c.skipGroup = { c with pos := c.pos + inner.length + 2 } := by
  have hmore : c.skipGroup.rest = more := by
    rw [rest_skipGroup hrest, afterClosing_balanced hinner, afterClosing, if_pos (Nat.le_refl 1)]
  have hpassed : c.rest = .mark .openParen :: (inner ++ [.mark .closeParen]) ++ c.skipGroup.rest := by
    rw [hmore, hrest]
    simp
  rw [(precedes_skipGroup (inBounds_of_rest hrest)).eq_of_rest hpassed]
  simp
  omega

/-- A group without a parenthesis that closes it is left at the end. -/
theorem skipGroup_eq_of_not_ended (hrest : c.rest = .mark .openParen :: tokens) (h : ¬ Ended tokens) :
    c.skipGroup = { c with pos := c.tokens.size } := by
  have hnil : c.skipGroup.rest = [] := by rw [rest_skipGroup hrest, afterClosing_of_not_ended h]
  have hpassed : c.rest = c.rest ++ c.skipGroup.rest := by rw [hnil, List.append_nil]
  rw [(precedes_skipGroup (inBounds_of_rest hrest)).eq_of_rest hpassed, ← left_eq, left,
    Nat.add_sub_cancel' (inBounds_of_rest hrest)]

/-- An element of a list is left at the comma or the parenthesis behind it. -/
theorem skipToDelimiter_eq_of_flat (hpassed : Flat passed)
    (htoken : token = .mark .comma ∨ token = .mark .closeParen)
    (hrest : c.rest = passed ++ token :: more) :
    c.skipToDelimiter 0 = { c with pos := c.pos + passed.length } := by
  have hbounds : c.InBounds := by
    cases passed with
    | nil => exact inBounds_of_rest hrest
    | cons => exact inBounds_of_rest hrest
  refine (precedes_skipToDelimiter 0 hbounds).eq_of_rest ?_
  rw [rest_skipToDelimiter, hrest, fromDelimiter_of_flat hpassed htoken]

/-- An element behind which there is no delimiter is left at the end. -/
theorem skipToDelimiter_eq_of_not_delimited (hbounds : c.InBounds) (h : ¬ Delimited c.rest) :
    c.skipToDelimiter 0 = { c with pos := c.tokens.size } := by
  have hpassed : c.rest = c.rest ++ (c.skipToDelimiter 0).rest := by
    rw [rest_skipToDelimiter, fromDelimiter_of_not_delimited h, List.append_nil]
  rw [(precedes_skipToDelimiter 0 hbounds).eq_of_rest hpassed, ← left_eq, left,
    Nat.add_sub_cancel' hbounds]

end Position

end Cursor

end SchemaPlan.Sql
