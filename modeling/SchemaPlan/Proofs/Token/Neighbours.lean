import SchemaPlan.Proofs.Token.Rereading

/-!
# Neighbours of written tokens

A token of a text ends before what follows it there. Written again, most tokens start with the same
character as in the text; the others start with a blank, `N`, `E`, `<` or `0`. So what stops before a
token in its text mostly stops before it when it is written too.

* `Reads.writtenAs`: how the first character of a token is written.
* `Cut.stops_written`: where runs of characters stop.
* `Cut.startsPower_written`: where exponents start.
-/

namespace SchemaPlan.Sql

/-! ## First characters -/

/-- How a token is written that starts with a character in its text: the first character written. -/
inductive WrittenAs : Token → Char → Char → Prop where
  | same {token : Token} {c : Char} : WrittenAs token c c
  | blank {gap : Blank} {c d : Char} :
      Text.isSpace c = true ∨ c = '-' ∨ c = '/' → (c = ' ' → d = ' ') →
      d = ' ' ∨ d = '\n' ∨ d = '\t' → WrittenAs (.blank gap) c d
  | notEqual : WrittenAs (.mark .notEqual) '!' '<'
  | national {value : String} : WrittenAs (.literal .national value) 'n' 'N'
  | escaped {value : String} : WrittenAs (.literal .escaped value) 'e' 'E'
  | binary {value : String} {c : Char} :
      c = 'x' ∨ c = 'X' → WrittenAs (.literal .binary value) c '0'

/-- The first character of a token and the first that is written for it. -/
theorem Reads.writtenAs {afterWord : Bool} {token : Token} {c : Char} {spelling after : List Char}
    (h : Reads afterWord token (c :: spelling) after) :
    ∃ d body, token.chars = d :: body ∧ WrittenAs token c d := by
  -- The spelling is named so that the cases can state their own and compare heads.
  generalize hspelling : c :: spelling = chars at h
  cases h with
  | @blank gap c' _ _ hkind hspace =>
    obtain ⟨rfl, -⟩ := List.cons.inj hspelling
    obtain ⟨d, hchars, hd⟩ := chars_blank gap
    refine ⟨d, [], hchars, .blank hkind (fun hc => ?_) hd⟩
    rw [hspace hc] at hchars
    exact (List.cons.inj hchars).1.symm
  | bracketed _ =>
    obtain ⟨rfl, -⟩ := List.cons.inj hspelling
    exact ⟨_, _, chars_bracket _, .same⟩
  | quoted _ =>
    obtain ⟨rfl, -⟩ := List.cons.inj hspelling
    exact ⟨_, _, chars_double _, .same⟩
  | plain _ =>
    obtain ⟨rfl, -⟩ := List.cons.inj hspelling
    exact ⟨_, _, chars_plain _, .same⟩
  | national hc _ _ =>
    obtain ⟨rfl, -⟩ := List.cons.inj hspelling
    rcases hc with rfl | rfl
    · exact ⟨_, _, chars_national _, .same⟩
    · exact ⟨_, _, chars_national _, .national⟩
  | quotedBinary hc _ _ =>
    obtain ⟨rfl, -⟩ := List.cons.inj hspelling
    exact ⟨_, _, chars_binary _, .binary hc.symm⟩
  | escaped hc _ _ =>
    obtain ⟨rfl, -⟩ := List.cons.inj hspelling
    rcases hc with rfl | rfl
    · exact ⟨_, _, chars_escaped _, .same⟩
    · exact ⟨_, _, chars_escaped _, .escaped⟩
  | number hnumber _ =>
    cases hnumber with
    | period _ =>
      obtain ⟨rfl, -⟩ := List.cons.inj hspelling
      exact ⟨_, _, rfl, .same⟩
    | binary _ _ =>
      obtain ⟨rfl, -⟩ := List.cons.inj hspelling
      exact ⟨_, _, chars_binary _, .same⟩
    | short _ _ _ =>
      refine ⟨c, spelling, ?_, .same⟩
      rw [chars_number, String.toList_ofList, ← hspelling]
    | @long base power _ hbase _ =>
      -- The suffix is the last character of the spelling, so the base still gives the first.
      obtain ⟨d, more, hwhole⟩ := List.exists_cons_of_ne_nil
        fun hnil => hbase.ne_nil (List.append_eq_nil_iff.mp hnil).1
      rw [hwhole] at hspelling
      obtain ⟨rfl, -⟩ := List.cons.inj hspelling
      exact ⟨c, more, by rw [chars_number, String.toList_ofList, hwhole], .same⟩
  | mark _ _ hspelled =>
    rcases hspelled with rfl | ⟨rfl, rfl⟩
    · exact ⟨c, spelling, hspelling.symm, .same⟩
    · obtain ⟨rfl, -⟩ := List.cons.inj hspelling
      exact ⟨_, _, rfl, .notEqual⟩
  | word _ _ => exact ⟨c, spelling, by rw [chars_bare, String.toList_ofList, hspelling], .same⟩
  | dollar htext _ => exact ⟨c, spelling, htext.trans hspelling.symm, .same⟩
  | placeholder _ _ =>
    exact ⟨c, spelling, by rw [chars_placeholder, String.toList_ofList, hspelling], .same⟩
  | parameter _ _ _ =>
    exact ⟨c, spelling, by rw [chars_placeholder, String.toList_ofList, hspelling], .same⟩
  | other _ =>
    obtain ⟨rfl, -⟩ := List.cons.inj hspelling
    exact ⟨_, _, chars_other _, .same⟩

/-- What the first piece of a text is read from, and what is written for it. -/
theorem Cut.uncons {afterWord : Bool} {chars : List Char} {piece : SpelledToken} {pieces : List SpelledToken}
    (h : Cut afterWord chars (piece :: pieces)) :
    ∃ c rest after d body, chars = c :: rest ∧ scanToken afterWord c rest = .ok (piece.token, after) ∧
      piece.token.chars = d :: body ∧ WrittenAs piece.token c d ∧
      Cut piece.token.isWord after pieces := by
  cases h with
  | @cons _ c rest spelling after token _ hread hspelling hcut =>
    obtain ⟨spelled, hspelled, hreads⟩ := reads_of_scanToken hread
    obtain ⟨first, more, rfl⟩ := List.exists_cons_of_ne_nil hreads.spelling_ne_nil
    obtain ⟨rfl, -⟩ := List.cons.inj hspelled
    obtain ⟨d, body, hchars, hwritten⟩ := hreads.writtenAs
    exact ⟨_, _, _, d, body, rfl, hread, hchars, hwritten, hcut⟩

/-! ## Where runs stop -/

/-- A run of characters that stops before a token in its text stops before it when it is written. -/
structure Spares (p : Char → Bool) (token : Token) : Prop where
  blank : p ' ' = false ∧ p '\n' = false ∧ p '\t' = false
  letters : (p 'n' = false → p 'N' = false) ∧ (p 'e' = false → p 'E' = false)
  mark : token = .mark .notEqual → p '<' = false
  zero : ∀ value, token = .literal .binary value → p 'x' = false ∨ p 'X' = false → p '0' = false

theorem WrittenAs.stops {p : Char → Bool} {token : Token} {c d : Char} (h : WrittenAs token c d)
    (hp : Spares p token) (hc : p c = false) : p d = false := by
  cases h with
  | same => exact hc
  | blank _ _ hd =>
    rcases hd with rfl | rfl | rfl
    · exact hp.blank.1
    · exact hp.blank.2.1
    · exact hp.blank.2.2
  | notEqual => exact hp.mark rfl
  | national => exact hp.letters.1 hc
  | escaped => exact hp.letters.2 hc
  | binary hkind =>
    rcases hkind with rfl | rfl
    · exact hp.zero _ rfl (.inl hc)
    · exact hp.zero _ rfl (.inr hc)

section Written

variable {afterWord : Bool} {after : List Char} {more tail : List SpelledToken}

theorem Cut.stops_written {p : Char → Bool} (hcut : Cut afterWord after (more ++ tail))
    (hp : ∀ token ∈ (more.map (·.token)).head?, Spares p token) (hstops : Stops p after) :
    Stops p (written (more.map (·.token))) := by
  cases more with
  | nil => exact .nil
  | cons piece more =>
    obtain ⟨c, rest, _, d, body, rfl, -, hchars, hwritten, -⟩ := hcut.uncons
    rw [List.map_cons, written_cons, hchars, List.cons_append, stops_cons]
    exact hwritten.stops (hp _ rfl) (stops_cons.mp hstops)

theorem stops_beq {q : Char} {chars : List Char} : Stops (· == q) chars ↔ chars.head? ≠ some q := by
  cases chars with
  | nil => exact ⟨fun _ => nofun, fun _ => .nil⟩
  | cons c rest => rw [stops_cons, List.head?_cons, beq_eq_false_iff_ne, ne_eq, ne_eq, Option.some.injEq]

/-- Before no character but those that are written for others a token stands when it is written. -/
theorem Cut.head_written {q : Char} (hcut : Cut afterWord after (more ++ tail))
    (hq : q ∉ [' ', '\n', '\t', 'N', 'E', '<', '0']) (hafter : after.head? ≠ some q) :
    (written (more.map (·.token))).head? ≠ some q := by
  have hne (d : Char) (hd : d ∈ [' ', '\n', '\t', 'N', 'E', '<', '0']) : (d == q) = false := by
    rw [beq_eq_false_iff_ne]
    rintro rfl
    exact hq hd
  refine stops_beq.mp (hcut.stops_written (fun token _ => ?_) (stops_beq.mpr hafter))
  exact ⟨⟨hne _ (by decide), hne _ (by decide), hne _ (by decide)⟩,
    ⟨fun _ => hne _ (by decide), fun _ => hne _ (by decide)⟩, fun _ => hne _ (by decide),
    fun _ _ _ => hne _ (by decide)⟩

end Written

/-! ## Exponents -/

/-- A letter, a sign or none, and a digit: an exponent is read. -/
def StartsPower (chars : List Char) : Prop :=
  ∃ e rest, chars = e :: rest ∧ (e = 'e' ∨ e = 'E') ∧
    (¬ Stops Char.isDigit rest ∨
      ∃ s digits, rest = s :: digits ∧ (s = '+' ∨ s = '-') ∧ ¬ Stops Char.isDigit digits)

theorem span_isDigit_ne_nil {chars : List Char} (h : ¬ Stops Char.isDigit chars) :
    ¬ (chars.span Char.isDigit).1.isEmpty = true := by
  intro hempty
  obtain ⟨hchars, -, hstops⟩ := span_spec Char.isDigit chars
  rw [List.isEmpty_iff.mp hempty, List.nil_append] at hchars
  rw [hchars] at h
  exact h hstops

theorem scanExponent_ne_nil_iff {chars : List Char} :
    (scanExponent chars).1 ≠ [] ↔ StartsPower chars := by
  constructor
  · intro h
    rcases scanExponent_spec chars with hnone | ⟨power, after, ⟨he, hsign, hne, hdigits⟩, rfl, -, -⟩
    · rw [hnone] at h
      exact absurd rfl h
    · rename_i digits
      obtain ⟨d, more, rfl⟩ := List.exists_cons_of_ne_nil hne
      have hdigit : ¬ Stops Char.isDigit (d :: (more ++ after)) := by
        rw [stops_cons, hdigits d List.mem_cons_self]
        exact nofun
      refine ⟨_, _, rfl, he, ?_⟩
      rcases hsign with rfl | rfl | rfl
      · exact .inl hdigit
      · exact .inr ⟨'+', _, rfl, .inl rfl, hdigit⟩
      · exact .inr ⟨'-', _, rfl, .inr rfl, hdigit⟩
  · rintro ⟨e, rest, rfl, he, hdigit | ⟨s, digits, rfl, hs, hdigit⟩⟩
    · -- A digit is no sign.
      have hsign : Stops (fun s => s == '+' || s == '-') rest := by
        intro d hd
        rw [Bool.eq_false_iff]
        intro hs
        refine hdigit fun d' hd' => ?_
        obtain rfl := Option.some.inj (hd.symm.trans hd')
        rw [Bool.or_eq_true, beq_iff_eq, beq_iff_eq] at hs
        rcases hs with rfl | rfl <;> decide
      rw [scanExponent_unsigned he hsign, if_neg (span_isDigit_ne_nil hdigit)]
      exact List.cons_ne_nil _ _
    · rw [scanExponent_signed he hs, if_neg (span_isDigit_ne_nil hdigit)]
      exact List.cons_ne_nil _ _

section Exponents

variable {afterWord : Bool} {after : List Char} {c d : Char} {rest body : List Char} {token : Token}

/-- A token that is written with the letter of exponents in front is a word or an escaped literal. -/
theorem word_of_written_letter (hread : scanToken afterWord c rest = .ok (token, after))
    (hwritten : WrittenAs token c d) (hd : d = 'e' ∨ d = 'E') :
    (∃ value, token = .literal .escaped value) ∨
      ∃ parts, c = d ∧ rest = parts ++ after ∧ token = .word (String.ofList (d :: parts)) .bare ∧
        (∀ part ∈ parts, isWordPart part = true) ∧ Stops isWordPart after := by
  cases hwritten with
  | same =>
    -- The letter opens a literal before a quote, and a word before anything else.
    by_cases hquote : rest.head? = some '\''
    · obtain ⟨more, rfl⟩ := List.head?_eq_some_iff.mp hquote
      rw [scanToken_escapedPrefix hd.symm] at hread
      obtain ⟨text, -, rfl⟩ := closeLiteral_eq_ok.mp hread
      exact .inl ⟨_, rfl⟩
    · have hstart : isWordStart c = true := by
        rcases hd with rfl | rfl <;> decide
      rw [scanToken_of_noMark (opensNothing_of_isWordStart hstart fun _ => hquote)
        ⟨not_isDigit_of_isWordStart hstart, ne_of_isWordStart hstart (by decide)⟩
        (not_isMarkStart_of_isWordStart hstart), if_neg (by rcases hd with rfl | rfl <;> decide),
        if_neg (by rcases hd with rfl | rfl <;> decide),
        if_neg (ne_of_isWordStart hstart (by decide)), if_pos hstart] at hread
      obtain ⟨parts, more, rfl, hparts, hstops, hscan⟩ := scanWord_spec [c] rest
      rw [hscan] at hread
      obtain ⟨rfl, rfl⟩ := Prod.mk.inj (Except.ok.inj hread)
      exact .inr ⟨parts, rfl, rfl, rfl, hparts, hstops⟩
  | escaped => exact .inl ⟨_, rfl⟩
  | blank _ _ hblank => rcases hd with rfl | rfl <;> exact absurd hblank (by decide)
  | notEqual => exact absurd hd (by decide)
  | national => exact absurd hd (by decide)
  | binary _ => exact absurd hd (by decide)

/-- A token that is written with a sign in front is the sign or an arrow. -/
theorem sign_of_written_sign (hread : scanToken afterWord c rest = .ok (token, after))
    (hchars : token.chars = d :: body) (hwritten : WrittenAs token c d) (hd : d = '+' ∨ d = '-') :
    (c = d ∧ rest = after ∧ ∃ sign, token = .mark sign ∧ (sign = .plus ∨ sign = .minus)) ∨
      token = .mark .arrow ∨ token = .mark .longArrow := by
  -- Whatever is written otherwise than it is read does not begin with a sign.
  obtain rfl : c = d := by
    cases hwritten with
    | same => rfl
    | blank _ _ hblank => rcases hd with rfl | rfl <;> exact absurd hblank (by decide)
    | _ => exact absurd hd (by decide)
  rcases hd with rfl | rfl
  · have hopens : OpensNothing '+' rest :=
      opensNothing_of_not_mem (by decide) fun h => absurd h (by decide)
    have hscan : scanMark ('+' :: rest) = some (.plus, rest) := rfl
    rw [scanToken_mark hopens (by decide) hscan] at hread
    obtain ⟨rfl, rfl⟩ := Prod.mk.inj (Except.ok.inj hread)
    exact .inl ⟨rfl, rfl, _, rfl, .inl rfl⟩
  -- Two minus signs open a comment, which is written as a blank.
  by_cases hcomment : rest.head? = some '-'
  · obtain ⟨more, rfl⟩ := List.head?_eq_some_iff.mp hcomment
    obtain ⟨text, -, after', -, hscan⟩ := scanLineComment_spec more
    have hread : Except.ok (scanLineComment more) = Except.ok (token, after) := hread
    rw [hscan] at hread
    obtain ⟨rfl, -⟩ := Prod.mk.inj (Except.ok.inj hread)
    obtain ⟨d, hblank, hd⟩ := chars_blank (.lineComment text)
    obtain ⟨rfl, -⟩ := List.cons.inj (hchars.symm.trans hblank)
    exact absurd hd (by decide)
  · have hopens : OpensNothing '-' rest :=
      ⟨by decide, by decide, fun _ => hcomment, nofun, nofun, fun h => absurd h (by decide)⟩
    cases hscan : scanMark ('-' :: rest) with
    | none => exact absurd (scanMark_eq_none_iff.mp hscan) (by decide)
    | some found =>
      obtain ⟨m, more⟩ := found
      rw [scanToken_mark hopens (by decide) hscan] at hread
      obtain ⟨rfl, rfl⟩ := Prod.mk.inj (Except.ok.inj hread)
      obtain ⟨-, -, hspelled | ⟨-, hspelled⟩⟩ := scanMark_spec hscan
      · cases m <;> cases (List.cons.inj hspelled).1
        · exact .inl ⟨rfl, (List.cons.inj hspelled).2, _, rfl, .inr rfl⟩
        · exact .inr (.inl rfl)
        · exact .inr (.inr rfl)
      · cases (List.cons.inj hspelled).1

theorem spares_isDigit (hbinary : ∀ value, token ≠ .literal .binary value) :
    Spares Char.isDigit token :=
  ⟨by decide, by decide, fun _ => by decide, fun value h => absurd h (hbinary value)⟩

theorem spares_isWordPart : Spares isWordPart token :=
  ⟨by decide, by decide, fun _ => by decide, fun _ _ h => absurd h (by decide)⟩

theorem not_isDigit_of_not_isWordPart (h : isWordPart c = false) : c.isDigit = false := by
  simp only [isWordPart, Bool.or_eq_false_iff] at h
  exact h.1.1.1.1.2

/-- Tokens that are written with a sign and a digit in front start so in their text, or with a sign
and a binary literal. -/
theorem Cut.sign_written {more tail : List SpelledToken} (hcut : Cut afterWord after (more ++ tail))
    {s : Char} {digits : List Char} (hwritten : written (more.map (·.token)) = s :: digits)
    (hs : s = '+' ∨ s = '-') (hdigit : ¬ Stops Char.isDigit digits) :
    (∃ rest, after = s :: rest ∧ ¬ Stops Char.isDigit rest) ∨ ∃ sign value tokens,
      more.map (·.token) = .mark sign :: .literal .binary value :: tokens ∧
        (sign = .plus ∨ sign = .minus) := by
  cases more with
  | nil => cases hwritten
  | cons piece more =>
    rw [List.cons_append] at hcut
    obtain ⟨s', rest, after', d, body, rfl, hread, hchars, hwrittenAs, hafter⟩ := hcut.uncons
    rw [List.map_cons, written_cons, hchars, List.cons_append] at hwritten
    obtain ⟨rfl, rfl⟩ := List.cons.inj hwritten
    -- A digit behind an arrow is excluded: its second character is written there.
    rcases sign_of_written_sign hread hchars hwrittenAs hs with
      ⟨rfl, rfl, m, hmark, hm⟩ | harrow | harrow
    · rw [hmark] at hchars
      obtain rfl : body = [] := by
        rcases hm with rfl | rfl <;> exact (List.cons.inj hchars).2.symm
      rw [List.nil_append] at hdigit
      by_cases hrest : Stops Char.isDigit rest
      · -- Only a binary literal is written with a digit in front and starts otherwise.
        refine .inr ?_
        by_contra hnone
        refine hdigit (hafter.stops_written (fun token htoken => ?_) hrest)
        refine spares_isDigit fun value hvalue => hnone ?_
        obtain ⟨tokens, htokens⟩ := List.head?_eq_some_iff.mp htoken
        exact ⟨m, value, tokens, by rw [List.map_cons, htokens, hmark, hvalue], hm⟩
      · exact .inl ⟨rest, rfl, hrest⟩
    · rw [harrow] at hchars
      obtain ⟨-, rfl⟩ := List.cons.inj hchars
      exact absurd (stops_cons.mpr (by decide)) hdigit
    · rw [harrow] at hchars
      obtain ⟨-, rfl⟩ := List.cons.inj hchars
      exact absurd (stops_cons.mpr (by decide)) hdigit

/-- Tokens are written with an exponent in front that starts with one in their text, or with a letter,
a sign and a binary literal. -/
theorem Cut.startsPower_written {more tail : List SpelledToken} (hcut : Cut afterWord after (more ++ tail))
    (h : StartsPower (written (more.map (·.token)))) :
    StartsPower after ∨ ∃ letter sign value tokens,
      more.map (·.token) = .word letter .bare :: .mark sign :: .literal .binary value :: tokens ∧
        (letter = "e" ∨ letter = "E") ∧ (sign = .plus ∨ sign = .minus) := by
  obtain ⟨e, chars, hwritten, he, htail⟩ := h
  cases more with
  | nil => cases hwritten
  | cons letter more =>
    rw [List.cons_append] at hcut
    obtain ⟨c, rest, behind, d, body, rfl, hread, hchars, hwrittenAs, hbehind⟩ := hcut.uncons
    rw [List.map_cons, written_cons, hchars, List.cons_append] at hwritten
    obtain ⟨rfl, rfl⟩ := List.cons.inj hwritten
    rcases word_of_written_letter hread hwrittenAs he with
      ⟨value, hescaped⟩ | ⟨parts, rfl, rfl, hword, hparts, hstops⟩
    · -- Behind the letter of an escaped literal its quote stands.
      rw [hescaped, chars_escaped] at hchars
      obtain ⟨-, rfl⟩ := List.cons.inj hchars
      rcases htail with hdigit | ⟨s, digits, hsign, hs, -⟩
      · exact absurd (stops_cons.mpr (by decide)) hdigit
      · obtain ⟨rfl, -⟩ := List.cons.inj hsign
        exact absurd hs (by decide)
    rw [hword, chars_bare, String.toList_ofList] at hchars
    obtain ⟨-, rfl⟩ := List.cons.inj hchars
    -- A longer word holds the digit itself; of a single letter the next token has to bring it.
    cases parts with
    | cons part parts =>
      refine .inl ⟨c, _, rfl, he, .inl ?_⟩
      rcases htail with hdigit | ⟨s, digits, hsign, hs, -⟩
      · rwa [List.cons_append, stops_cons] at hdigit ⊢
      · obtain ⟨rfl, -⟩ := List.cons.inj hsign
        have hpart := hparts _ List.mem_cons_self
        rcases hs with rfl | rfl <;> exact absurd hpart (by decide)
    | nil =>
      rw [List.nil_append] at htail ⊢
      rcases htail with hdigit | ⟨s, digits, hsign, hs, hdigit⟩
      · refine absurd (fun d hd => not_isDigit_of_not_isWordPart ?_) hdigit
        exact hbehind.stops_written (fun _ _ => spares_isWordPart) hstops d hd
      rcases hbehind.sign_written hsign hs hdigit with
        ⟨rest, rfl, hrest⟩ | ⟨sign, value, tokens, htokens, hmark⟩
      · exact .inl ⟨c, _, rfl, he, .inr ⟨s, _, rfl, hs, hrest⟩⟩
      · refine .inr ⟨String.ofList [c], sign, value, tokens, ?_, ?_, hmark⟩
        · rw [List.map_cons, htokens, hword]
        · rcases he with rfl | rfl
          · exact .inl rfl
          · exact .inr rfl

end Exponents

end SchemaPlan.Sql
