import SchemaPlan.Proofs.Body.Splitting
import SchemaPlan.Proofs.Definition.Names
import SchemaPlan.Proofs.Token.Slices

/-!
# Reading past blanks

A step that looks at a token first skips the blanks before it. So what is read of a text is told from
the tokens ahead that are no blanks, and white space and comments may stand anywhere between them.

* `Cursor.ahead`: the tokens from the cursor on that are no blanks, and how steps move along them.
* `gives_*_bind`: what a sequence of steps gives is what is left of it gives after its first step.
* `isKeyword_of_bareWord?`: which keyword an unquoted word of ASCII letters is.
-/

namespace SchemaPlan.Sql

/-! ## Tokens that are no blanks -/

section Significant

variable {tokens : List Token} {depth : Nat}

theorem significant_dropWhile (tokens : List Token) :
    significant (tokens.dropWhile Token.isBlank) = significant tokens := by
  induction tokens with
  | nil => rfl
  | cons token rest ih =>
    cases hblank : token.isBlank with
    | true => rw [List.dropWhile_cons_of_pos hblank, ih, significant_cons_blank hblank]
    | false => rw [List.dropWhile_cons_of_neg (by rw [hblank]; exact nofun)]

/-- Behind blanks stands the first token that is none. -/
theorem dropWhile_isBlank (tokens : List Token) :
    tokens.dropWhile Token.isBlank = [] ∧ significant tokens = [] ∨
      ∃ token rest, tokens.dropWhile Token.isBlank = token :: rest ∧
        significant tokens = token :: significant rest := by
  cases hrest : tokens.dropWhile Token.isBlank with
  | nil => exact .inl ⟨rfl, by rw [← significant_dropWhile, hrest]; rfl⟩
  | cons token rest =>
    have hblank : token.isBlank = false := not_of_head?_dropWhile (by rw [hrest]; rfl)
    exact .inr ⟨token, rest, rfl, by rw [← significant_dropWhile, hrest, significant_cons hblank]⟩

theorem significant_afterClosing (depth : Nat) (tokens : List Token) :
    significant (Body.afterClosing depth tokens) = Body.afterClosing depth (significant tokens) := by
  fun_induction Body.afterClosing depth tokens with
  | case1 => rfl
  | case2 depth rest ih => exact ih
  | case3 depth rest hdepth =>
    rw [significant_cons rfl, Body.afterClosing, if_pos hdepth]
  | case4 depth rest hdepth ih =>
    rw [significant_cons rfl, Body.afterClosing, if_neg hdepth]
    exact ih
  | case5 depth token rest hopen hclose ih =>
    rw [ih]
    cases hblank : token.isBlank with
    | true => rw [significant_cons_blank hblank]
    | false =>
      rw [significant_cons hblank, Body.afterClosing]
      · exact hopen
      · exact hclose

/-- What follows a group in parentheses. -/
theorem afterClosing_group {inner : List Token} (h : Body.Balanced inner) (more : List Token) :
    Body.afterClosing 0 (.mark .openParen :: (inner ++ .mark .closeParen :: more)) = more := by
  rw [Body.afterClosing, Body.afterClosing_balanced h, Body.afterClosing, if_pos (Nat.le_refl 1)]

end Significant

/-! ## The tokens ahead -/

namespace Cursor

variable {c d : Cursor} {token : Token} {tokens : List Token}

/-- The tokens from the cursor on that are no blanks. -/
def ahead (c : Cursor) : List Token := significant c.rest

@[simp] theorem ahead_skipBlanks (c : Cursor) : c.skipBlanks.ahead = c.ahead := by
  rw [ahead, rest_skipBlanks, significant_dropWhile, ahead]

@[simp] theorem current?_skipBlanks (c : Cursor) : c.skipBlanks.current? = c.ahead.head? := by
  rw [current?_eq, rest_skipBlanks, ahead]
  rcases dropWhile_isBlank c.rest with ⟨hrest, hnone⟩ | ⟨token, rest, hrest, hsome⟩
  · rw [hrest, hnone]
  · rw [hrest, hsome, List.head?_cons, List.head?_cons]

@[simp] theorem sees_skipBlanks (c : Cursor) (p : Token → Bool) :
    c.skipBlanks.sees p = c.ahead.head?.any p := by
  rw [sees, current?_skipBlanks]

@[simp] theorem ahead_advance (c : Cursor) : c.skipBlanks.advance.ahead = c.ahead.tail := by
  rw [ahead, rest_advance, rest_skipBlanks, ahead]
  rcases dropWhile_isBlank c.rest with ⟨hrest, hnone⟩ | ⟨token, rest, hrest, hsome⟩
  · rw [hrest, hnone]
    rfl
  · rw [hrest, hsome, List.tail_cons, List.tail_cons]

theorem ahead_advance_of_cons (h : c.ahead = token :: tokens) :
    c.skipBlanks.advance.ahead = tokens := by
  rw [ahead_advance, h, List.tail_cons]

theorem sees_of_cons (h : c.ahead = token :: tokens) (p : Token → Bool) :
    c.skipBlanks.sees p = p token := by
  rw [sees_skipBlanks, h, List.head?_cons, Option.any_some]

theorem ahead_moveTo (h : d.tokens = c.tokens) : (d.moveTo c.pos).ahead = c.ahead := by
  rw [ahead, rest_moveTo h, ahead]

theorem ahead_length_le (c : Cursor) : c.ahead.length ≤ c.left := by
  rw [left_eq]
  exact List.length_filter_le _ _

theorem rest_skipClosing (depth : Nat) (c : Cursor) :
    (c.skipClosing depth).rest = Body.afterClosing depth c.rest := by
  fun_induction skipClosing depth c with
  | case1 depth c h next htoken ih => rw [ih, rest_of_lt h, htoken, Body.afterClosing]
  | case2 depth c h next htoken hdepth =>
    rw [rest_of_lt h, htoken, Body.afterClosing, if_pos hdepth]
  | case3 depth c h next htoken hdepth ih =>
    rw [ih, rest_of_lt h, htoken, Body.afterClosing, if_neg hdepth]
  | case4 depth c h next hopen hclose ih =>
    rw [ih, rest_of_lt h, Body.afterClosing]
    · exact hopen
    · exact hclose
  | case5 depth c h => rw [rest_of_not_lt h, Body.afterClosing]

/-- A group in parentheses is passed over as a whole. -/
theorem ahead_skipGroup {inner more : List Token} (hinner : Body.Balanced inner)
    (h : c.ahead = .mark .openParen :: (inner ++ .mark .closeParen :: more)) :
    c.skipBlanks.skipGroup.ahead = more := by
  have hopen : c.skipBlanks.sees (·.isMark .openParen) = true := by
    rw [sees_skipBlanks, h]
    rfl
  rw [skipGroup, if_pos hopen, ahead, rest_skipClosing, significant_afterClosing, ← ahead,
    ahead_skipBlanks, h, afterClosing_group hinner]

/-- Where no parenthesis opens nothing is passed over. -/
theorem skipGroup_eq_self (h : c.ahead.head?.any (·.isMark .openParen) = false) :
    c.skipBlanks.skipGroup = c.skipBlanks := by
  rw [skipGroup, sees_skipBlanks, h]
  rfl

end Cursor

/-- A cursor at the start of a text, given what a test says of it. -/
theorem exists_cursor_of_any (text : String) (test : Cursor → Bool)
    (h : (Cursor.ofText? text).any test = true) :
    ∃ c, Cursor.ofText? text = some c ∧ test c = true :=
  (Option.any_eq_true _ _).mp h

/-! ## Sequences of steps -/

namespace Reading

section Bind

variable {α : Type} {c d : Cursor} {value : α}

theorem gives_skipBlanks_bind {next : Unit → Reading α} :
    Gives (skipBlanks >>= next) c value d ↔ Gives (next ()) c.skipBlanks value d := Iff.rfl

theorem gives_advance_bind {next : Unit → Reading α} :
    Gives (advance >>= next) c value d ↔ Gives (next ()) c.advance value d := Iff.rfl

theorem gives_moveTo_bind {pos : Nat} {next : Unit → Reading α} :
    Gives (moveTo pos >>= next) c value d ↔ Gives (next ()) (c.moveTo pos) value d := Iff.rfl

theorem gives_get_bind {next : Cursor → Reading α} :
    Gives (get >>= next) c value d ↔ Gives (next c) c value d := Iff.rfl

theorem gives_position_bind {next : Nat → Reading α} :
    Gives (position >>= next) c value d ↔ Gives (next c.pos) c value d := Iff.rfl

theorem gives_sees_bind {p : Token → Bool} {next : Bool → Reading α} :
    Gives (sees p >>= next) c value d ↔ Gives (next (c.sees p)) c value d := Iff.rfl

theorem gives_accepts_bind {p : Token → Bool} {next : Bool → Reading α} :
    Gives (accepts p >>= next) c value d ↔
      if c.sees p = true then Gives (next true) c.advance value d else Gives (next false) c value d := by
  rw [gives_bind]
  simp only [gives_accepts]
  cases hsees : c.sees p with
  | true => simp
  | false => simp

theorem gives_expect_bind {p : Token → Bool} {next : Unit → Reading α} :
    Gives (expect p >>= next) c value d ↔ c.sees p = true ∧ Gives (next ()) c.advance value d := by
  rw [gives_bind]
  simp only [gives_expect]
  constructor
  · rintro ⟨_, _, ⟨hsees, rfl⟩, h⟩
    exact ⟨hsees, h⟩
  · rintro ⟨hsees, h⟩
    exact ⟨(), _, ⟨hsees, rfl⟩, h⟩

theorem gives_discard {β : Type} {step : Reading β} {found : β} {u : Unit} (h : Gives step c found d) :
    Gives (discard step) c u d :=
  gives_bind.mpr ⟨found, d, h, gives_pure.mpr ⟨rfl, rfl⟩⟩

theorem run?_eq_some {step : Reading α} {text : String} :
    run? step text = some value ↔
      ∃ c d, Cursor.ofText? text = some c ∧ Gives step c value d := by
  unfold run? Gives
  cases Cursor.ofText? text with
  | none => exact ⟨nofun, nofun⟩
  | some c =>
    change (OptionT.run step c).1 = some value ↔ _
    constructor
    · exact fun h => ⟨c, (OptionT.run step c).2, rfl, Prod.ext h rfl⟩
    · rintro ⟨c, d, ⟨⟩, h⟩
      rw [h]

theorem run?_eq_some_iff {step : Reading α} {text : String} (htext : Cursor.ofText? text = some c) :
    run? step text = some value ↔ ∃ d, Gives step c value d := by
  rw [run?_eq_some, htext]
  constructor
  · rintro ⟨c, d, ⟨⟩, h⟩
    exact ⟨d, h⟩
  · rintro ⟨d, h⟩
    exact ⟨c, d, rfl, h⟩

theorem run?_of_gives {step : Reading α} {text : String} (htext : Cursor.ofText? text = some c)
    (h : Gives step c value d) : run? step text = some value :=
  (run?_eq_some_iff htext).mpr ⟨d, h⟩

/-- A word that comes next is read as a name. -/
theorem gives_word {text : String} {quote : Quote} {rest : List Token}
    (h : c.ahead = .word text quote :: rest) :
    Gives identifier c.skipBlanks text c.skipBlanks.advance := by
  refine gives_identifier.mpr ⟨⟨quote, ?_⟩, rfl⟩
  rw [← Cursor.current?_eq, Cursor.current?_skipBlanks, h]
  rfl

end Bind

end Reading

/-! ## Keywords -/

/-- ASCII characters only. -/
def isAscii (text : String) : Bool := text.toList.all fun c => decide (c.toNat < 128)

section Keywords

variable {token : Token} {word keyword : String}

theorem asciiCapitals_of_lt {c : Char} (h : c.toNat < 128) : asciiCapitals c = [c.toUpper] := by
  unfold asciiCapitals
  split <;> first | omega | rfl

/-- A text whose ASCII capitals are a word of ASCII letters has no other capitals. -/
theorem capitals_of_asciiUpper {text : String} (h : Text.asciiUpper text = word)
    (hword : isAscii word = true) : capitals text = word := by
  have hchars : text.toList.map Char.toUpper = word.toList := by
    rw [← h, Text.asciiUpper, String.toList_ofList]
  have hsingle : ∀ c ∈ text.toList, asciiCapitals c = [c.toUpper] := by
    intro c hc
    have hupper : c.toUpper ∈ word.toList := hchars ▸ List.mem_map_of_mem hc
    have hlt := of_decide_eq_true (List.all_eq_true.mp hword _ hupper)
    rw [Text.toNat_toUpper] at hlt
    refine asciiCapitals_of_lt ?_
    split at hlt <;> omega
  rw [capitals, List.flatMap_congr hsingle, ← List.map_eq_flatMap, hchars, String.ofList_toList]

/-- An unquoted word in ASCII letters is the keyword that it spells, and no other. -/
theorem isKeyword_of_bareWord? (h : token.bareWord? = some word) (hword : isAscii word = true)
    (keyword : String) : token.isKeyword keyword = (word == keyword) := by
  obtain ⟨text, rfl, htext⟩ := Body.exists_word_of_bareWord? h
  rw [Token.isKeyword, spells, capitals_of_asciiUpper htext hword]

theorem isBareWord_eq (h : token.bareWord? = some word) (hkeyword : Text.asciiUpper keyword = keyword) :
    token.isBareWord keyword = (word == keyword) := by
  obtain ⟨text, rfl, rfl⟩ := Body.exists_word_of_bareWord? h
  rw [Bool.eq_iff_iff, beq_iff_eq, Token.isBareWord, Text.sameText_iff_asciiUpper, hkeyword]

theorem find?_isKeyword (h : token.bareWord? = some word) (hword : isAscii word = true)
    (keywords : List String) :
    keywords.find? token.isKeyword = if word ∈ keywords then some word else none := by
  have hsame : token.isKeyword = fun keyword => word == keyword :=
    funext (isKeyword_of_bareWord? h hword)
  rw [hsame]
  induction keywords with
  | nil => rfl
  | cons first rest ih =>
    rw [List.find?_cons, ih]
    by_cases hfirst : word = first
    · simp [hfirst]
    · have hne : (word == first) = false := beq_eq_false_iff_ne.mpr hfirst
      simp [hfirst, hne]

theorem isMark_of_bareWord? (h : token.bareWord? = some word) (m : Mark) :
    token.isMark m = false := by
  obtain ⟨text, rfl, -⟩ := Body.exists_word_of_bareWord? h
  rfl

theorem isWord_of_bareWord? (h : token.bareWord? = some word) : token.isWord = true := by
  obtain ⟨text, rfl, -⟩ := Body.exists_word_of_bareWord? h
  rfl

theorem isMark_of_isWord (h : token.isWord = true) (m : Mark) : token.isMark m = false := by
  cases token with
  | word => rfl
  | _ => cases h

namespace Reading

variable {α : Type} {c d : Cursor} {value : α} {tokens : List Token}

end Reading

end Keywords

end SchemaPlan.Sql
