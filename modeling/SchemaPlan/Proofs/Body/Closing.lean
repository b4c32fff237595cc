import SchemaPlan.Proofs.Body.Splitting

/-!
# The parenthesis that closes a group

A group ends with the first parenthesis that closes it, and between the two all parentheses stand in
pairs. Where several groups are open they end one after another, the innermost first.

* `Ended`, `ClosesTo`: one group, or several, end among tokens.
* `closesTo_of_afterClosing`: what is found behind a group stands behind the parenthesis that closes it.
* `not_ended_of_balanced`: in tokens with their parentheses in pairs no other group ends.
-/

namespace SchemaPlan.Sql.Body

/-- The group that is open in front of tokens ends among them. -/
def Ended (tokens : List Token) : Prop :=
  ∃ inner more, tokens = inner ++ .mark .closeParen :: more ∧ Balanced inner

/-- The `depth` groups that are open in front of tokens end among them, one after another, and `P` holds
of the tokens behind. -/
def ClosesTo (P : List Token → Prop) : Nat → List Token → Prop
  | 0, tokens => P tokens
  | depth + 1, tokens =>
    ∃ inner more, tokens = inner ++ .mark .closeParen :: more ∧ Balanced inner ∧ ClosesTo P depth more

section ClosesTo

variable {P : List Token → Prop} {depth : Nat} {token : Token} {tokens inner rest passed later : List Token}

theorem ended_iff : Ended tokens ↔ ClosesTo (fun _ => True) 1 tokens := by
  constructor
  · rintro ⟨inner, more, htokens, hinner⟩
    exact ⟨inner, more, htokens, hinner, trivial⟩
  · rintro ⟨inner, more, htokens, hinner, -⟩
    exact ⟨inner, more, htokens, hinner⟩

theorem ClosesTo.cons (hopen : token ≠ .mark .openParen) (hclose : token ≠ .mark .closeParen)
    (h : ClosesTo P (depth + 1) rest) : ClosesTo P (depth + 1) (token :: rest) := by
  obtain ⟨inner, more, rfl, hinner, hmore⟩ := h
  exact ⟨token :: inner, more, rfl, .token hopen hclose hinner, hmore⟩

theorem ClosesTo.open (h : ClosesTo P (depth + 2) rest) :
    ClosesTo P (depth + 1) (.mark .openParen :: rest) := by
  obtain ⟨inner, _, rfl, hinner, outer, more, rfl, houter, hmore⟩ := h
  exact ⟨.mark .openParen :: (inner ++ .mark .closeParen :: outer), more, by simp,
    .group hinner houter, hmore⟩

theorem ClosesTo.close (h : ClosesTo P depth rest) : ClosesTo P (depth + 1) (.mark .closeParen :: rest) :=
  ⟨[], rest, rfl, .nil, h⟩

/-- Where something is found behind the groups that are open, they end. -/
theorem closesTo_of_afterClosing (hdepth : 0 < depth) (h : afterClosing depth tokens ≠ []) :
    ClosesTo (fun _ => True) depth tokens := by
  obtain ⟨depth, rfl⟩ := Nat.exists_eq_add_one_of_ne_zero (Nat.ne_of_gt hdepth)
  -- The number of open groups rises and falls with the parentheses, so it is not fixed in the
  -- induction.
  induction tokens generalizing depth with
  | nil => exact absurd rfl h
  | cons token rest ih =>
    by_cases hopen : token = .mark .openParen
    · rw [hopen, afterClosing] at h
      rw [hopen]
      exact (ih (depth + 1) (Nat.succ_pos _) h).open
    · by_cases hclose : token = .mark .closeParen
      · rw [hclose, afterClosing] at h
        rw [hclose]
        cases depth with
        | zero => exact ClosesTo.close trivial
        | succ depth =>
          rw [if_neg (by omega)] at h
          exact (ih depth (Nat.succ_pos _) h).close
      · rw [afterClosing] at h
        · exact (ih depth (Nat.succ_pos _) h).cons hopen hclose
        · exact hopen
        · exact hclose

theorem afterClosing_of_not_ended (h : ¬ Ended tokens) : afterClosing 1 tokens = [] :=
  Classical.byContradiction fun hne => h (ended_iff.mpr (closesTo_of_afterClosing Nat.one_pos hne))

theorem not_ended_of_balanced (h : Balanced (passed ++ later)) : ¬ Ended passed := by
  rintro ⟨inner, more, rfl, hinner⟩
  -- One more parenthesis behind the balanced tokens closes the group. A group that ended among them
  -- would be closed earlier, with tokens left over.
  have hall := afterClosing_balanced h 0 [.mark .closeParen]
  have hfirst := afterClosing_balanced hinner 0 (.mark .closeParen :: (more ++ later ++ [.mark .closeParen]))
  have hsame : inner ++ .mark .closeParen :: (more ++ later ++ [.mark .closeParen]) =
      (inner ++ .mark .closeParen :: more) ++ later ++ [.mark .closeParen] := by simp
  rw [hsame, hall] at hfirst
  simp [afterClosing] at hfirst

/-- Tokens with their parentheses in pairs close as many as they open. -/
theorem Balanced.count_eq (h : Balanced tokens) :
    tokens.count (.mark .openParen) = tokens.count (.mark .closeParen) := by
  induction h with
  | nil => rfl
  | token hopen hclose _ ih =>
    rw [List.count_cons_of_ne hopen, List.count_cons_of_ne hclose, ih]
  | group _ _ ihinner ihrest =>
    simp [ihinner, ihrest]
    omega

end ClosesTo

end SchemaPlan.Sql.Body
