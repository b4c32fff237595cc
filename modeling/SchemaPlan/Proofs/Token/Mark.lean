import SchemaPlan.Proofs.Token.Number

/-!
# Marks

Of the marks that start alike the longest is read. So a mark ends where the next character makes no
longer mark of it, no comment, no number and no name.
-/

namespace SchemaPlan.Sql

namespace Mark

/-- Whether a character directly behind a mark makes something longer of it. -/
def isExtendedBy (m : Mark) (c : Char) : Bool :=
  match m with
  | .minus => c == '>' || c == '-'
  | .slash => c == '*'
  | .arrow => c == '>'
  | .pipe => c == '/' || c == '|'
  | .concat => c == '/'
  | .equal => c == '>' || c == '='
  | .bang => c == '=' || c == '!' || c == '~'
  | .bangTilde => c == '*' || c == '~'
  | .bangDoubleTilde => c == '*'
  | .less => c == '=' || c == '>' || c == '<' || c == '@'
  | .lessEqual => c == '>'
  | .greater => c == '=' || c == '>'
  | .colon => c == ':' || c == '='
  | .ampersand => c == '&'
  | .caret => c == '@'
  | .tilde => c == '*' || c == '~'
  | .doubleTilde => c == '*'
  | .period => c.isDigit
  | .hash => c != ' '
  | .hashArrow => c == '>'
  | .at => !(c == ' ' || c == '\'' || c == '"' || c == '\x60')
  | .doubleAt => c != ' '
  | _ => false

/-- Whether a mark starts neither with a sign of names nor with a period. -/
def isPlain : Mark → Bool
  | .period | .hash | .hashMinus | .hashArrow | .hashLongArrow => false
  | .at | .atArrow | .atQuestion | .doubleAt => false
  | _ => true

end Mark

section Marks

variable {m : Mark} {chars after : List Char}

/-- A mark is read back where it ends. -/
theorem scanMark_text (hplain : m.isPlain = true) (hafter : Stops m.isExtendedBy after) :
    scanMark (m.text.toList ++ after) = some (m, after) := by
  cases after with
  | nil => cases m <;> first | rfl | cases hplain
  | cons c rest =>
    rw [stops_cons] at hafter
    cases m <;> simp [Mark.isExtendedBy] at hafter
    all_goals try first | rfl | cases hplain
    all_goals simp [Mark.text, scanMark, hafter]

/-- The mark that is read ends there, unless it opens a comment. -/
theorem scanMark_spec (h : scanMark chars = some (m, after)) :
    m.isPlain = true ∧
      (∀ c ∈ after.head?, m.isExtendedBy c = true → m = .minus ∧ c = '-' ∨ m = .slash ∧ c = '*') ∧
      (chars = m.text.toList ++ after ∨ m = .notEqual ∧ chars = '!' :: '=' :: after) := by
  unfold scanMark at h
  split at h
  all_goals cases h
  all_goals refine ⟨rfl, ?_, ?_⟩
  all_goals try first | exact .inl rfl | exact .inr ⟨rfl, rfl⟩
  all_goals intro c hc hextended
  all_goals try exact absurd hextended Bool.false_ne_true
  all_goals
    obtain ⟨rest, rfl⟩ := List.head?_eq_some_iff.mp hc
    simp_all [Mark.isExtendedBy]

/-- Characters that a mark starts with, other than a period and the signs of names. -/
def isMarkStart (c : Char) : Bool := "(),;-/+*%|=!<>:\\]&^\x7b\x7d~".toList.contains c

theorem not_isMarkStart {c : Char} {rest : List Char} (h : scanMark (c :: rest) = none) :
    isMarkStart c = false := by
  have hne : ∀ d, (∀ r, c :: rest = d :: r → False) → c ≠ d := by
    rintro d hnot rfl
    exact hnot rest rfl
  unfold scanMark at h
  split at h
  all_goals try cases h
  -- No first character of a mark stands there.
  rw [Bool.eq_false_iff]
  intro hstart
  have hmem : c ∈ "(),;-/+*%|=!<>:\\]&^\x7b\x7d~".toList := by simpa [isMarkStart] using hstart
  simp only [String.reduceToList, List.mem_cons, List.not_mem_nil, or_false] at hmem
  rcases hmem with h | h | h | h | h | h | h | h | h | h | h | h | h | h | h | h | h | h | h | h | h | h
  all_goals exact hne _ (by assumption) h

/-- Whether a mark is read is told from the first character. -/
theorem scanMark_eq_none_iff {c : Char} {rest : List Char} :
    scanMark (c :: rest) = none ↔ isMarkStart c = false := by
  refine ⟨not_isMarkStart, ?_⟩
  · intro h
    cases hscan : scanMark (c :: rest) with
    | none => rfl
    | some found =>
      obtain ⟨m, after⟩ := found
      obtain ⟨hplain, -, hspelled | ⟨-, hspelled⟩⟩ := scanMark_spec hscan
      · cases m <;> cases hplain <;> cases (List.cons.inj hspelled).1 <;> cases h
      · cases (List.cons.inj hspelled).1
        cases h

end Marks

end SchemaPlan.Sql
