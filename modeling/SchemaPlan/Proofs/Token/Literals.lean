import SchemaPlan.Proofs.Token.Pieces
import SchemaPlan.Proofs.Token.Recasing

/-!
# Literals that are read by their case

Numbers may end in `L`, a binary literal has an `x` behind a zero, and the letters of literals with
escapes and of tags stand for themselves. So a text and one that differs from it in case only are cut
into the same tokens up to case if these keep their case, and so does the character behind each.
-/

namespace SchemaPlan.Sql

open SchemaPlan.Text

variable {c : Char} {chars rest after : List Char} {afterWord : Bool}

/-! ## Numbers -/

theorem Stops.recased {p : Char → Bool} (hp : IgnoresCase p) {chars' : List Char}
    (h : Stops p chars) (hrecased : Recased chars chars') : Stops p chars' := by
  cases chars with
  | nil =>
    rw [recased_nil.mp hrecased]
    exact .nil
  | cons c rest =>
    obtain ⟨c', rest', rfl, hc, -⟩ := recased_cons.mp hrecased
    exact stops_cons.mpr ((hp.eq hc).trans (stops_cons.mp h))

/-- Whether an exponent stands at the head of a text does not depend on case. -/
theorem scanExponent_map_toLower (chars : List Char) :
    (scanExponent (chars.map Char.toLower)).1 = [] ↔ (scanExponent chars).1 = [] := by
  have hsign : IgnoresCase fun s => s == '+' || s == '-' := fun s => by
    simp only [beq_toLower (d := '+') rfl, beq_toLower (d := '-') rfl]
  cases chars with
  | nil => exact Iff.rfl
  | cons e rest =>
    have hletter := toLower_eq_e_iff e
    by_cases he : e = 'e' ∨ e = 'E'
    swap
    · have hnone {e : Char} (rest : List Char) (he : ¬ (e = 'e' ∨ e = 'E')) :
          (scanExponent (e :: rest)).1 = [] := by
        simp only [scanExponent]
        rw [if_neg (by simpa using he)]
      exact iff_of_true (hnone _ (mt hletter.mp he)) (hnone rest he)
    -- A sign is passed before the digits; behind it or at once the digits decide.
    by_cases hs : Stops (fun s => s == '+' || s == '-') rest
    · rw [List.map_cons, scanExponent_unsigned (hletter.mpr he) (hs.map_toLower hsign),
        scanExponent_unsigned he hs, span_map_toLower isDigit_toLower, List.isEmpty_map]
      split <;> simp
    · obtain ⟨s, more, rfl⟩ : ∃ s more, rest = s :: more :=
        List.exists_cons_of_ne_nil fun hnil => hs (hnil ▸ .nil)
      have hs : (s == '+' || s == '-') = true := by rwa [stops_cons, Bool.not_eq_false] at hs
      have hs' := (hsign s).trans hs
      rw [Bool.or_eq_true, beq_iff_eq, beq_iff_eq] at hs hs'
      rw [List.map_cons, List.map_cons, scanExponent_signed (hletter.mpr he) hs',
        scanExponent_signed he hs, span_map_toLower isDigit_toLower, List.isEmpty_map]
      split <;> simp

theorem ReadsNumber.recased {token : Token} {spelling after' : List Char}
    (h : ReadsNumber token spelling after) (hrecased : Recased after after')
    (hhead : after'.head? = after.head?) : ReadsNumber token spelling after' := by
  have hstops {p : Char → Bool} (hafter : Stops p after) : Stops p after' := by
    intro c hc
    rw [hhead] at hc
    exact hafter c hc
  cases h with
  | period hafter => exact .period (hstops hafter)
  | binary hdigits hafter => exact .binary hdigits (hstops hafter)
  | short hbase hpower hends =>
    refine .short hbase hpower ⟨hstops hends.digit, hhead ▸ hends.long, fun hnone => ?_,
      hhead ▸ hends.point, hhead ▸ hends.hex⟩
    rw [← scanExponent_map_toLower, ← hrecased, scanExponent_map_toLower]
    exact hends.exponent hnone
  | long hbase hpower => exact .long hbase hpower

/-- A number, a binary literal or a period is read where a digit or a period stands. -/
theorem readsNumber_of_scanToken {token : Token} (hstart : c.isDigit = true ∨ c = '.')
    (h : scanToken afterWord c rest = .ok (token, after)) :
    ∃ spelling, c :: rest = spelling ++ after ∧ ReadsNumber token spelling after ∧
      (token = .mark .period → c = '.' ∧ (after.head? = some '_' → afterWord = true)) := by
  have hread (hopens : OpensNothing c rest) : ∃ spelling, c :: rest = spelling ++ after ∧
      ReadsNumber token spelling after ∧
      (token = .mark .period → c = '.' ∧ (after.head? = some '_' → afterWord = true)) := by
    rw [scanToken_number hopens hstart] at h
    obtain ⟨spelling, hspelling, hreads, hperiod⟩ :=
      readsNumber_of_opensNothing hopens hstart (Except.ok.inj h)
    refine ⟨spelling, hspelling, hreads, fun hmark => ?_⟩
    exact ⟨(hperiod hmark).1, fun hhead => absurd hhead (hperiod hmark).2⟩
  rcases hstart with hdigit | rfl
  · exact hread (opensNothing_of_isDigit hdigit)
  -- A period before a name's first character `_` is the one that is read as a mark behind a word
  -- only.
  by_cases hname : rest.head? = some '_'
  · obtain ⟨more, rfl⟩ := List.head?_eq_some_iff.mp hname
    rw [scanToken_periodBeforeName] at h
    split at h
    · rename_i hword
      obtain ⟨rfl, rfl⟩ := Prod.mk.inj (Except.ok.inj h)
      exact ⟨['.'], rfl, .period (stops_cons.mpr (by decide)), fun _ => ⟨rfl, fun _ => hword⟩⟩
    · cases h
  · exact hread
      ⟨by decide, by decide, nofun, nofun, fun _ => hname, fun h => absurd h (by decide)⟩

/-! ## Steps that read letters by their case -/

/-- Tokens that are told from others by the case of letters in them or behind them: numbers, which
may end in `L` or have an `x` behind a zero, literals with escapes, and texts in tags. -/
def Token.readsCase : Token → Bool
  | .number _ _ | .literal .binary _ | .literal .escaped _ | .dollar _ _ => true
  | _ => false

/-- What is known of two texts that differ in case where a token is read in the first of them. -/
structure KeepsToken (token : Token) (spelling after spelling' after' : List Char) : Prop where
  recased : Recased spelling spelling'
  recasedAfter : Recased after after'
  kept : token.readsCase = true → spelling' = spelling ∧ after'.head? = after.head?

section Steps

variable {token : Token} {spelling spelling' after' : List Char}

theorem scanToken_keepsNumber (hreads : ReadsNumber token spelling after)
    (hperiod : token = .mark .period → after.head? = some '_' → afterWord = true)
    (h : KeepsToken token spelling after spelling' after') :
    ∃ c' rest', c' :: rest' = spelling' ++ after' ∧
      scanToken afterWord c' rest' = .ok (token, after') := by
  by_cases hcase : token.readsCase = true
  · obtain ⟨rfl, hhead⟩ := h.kept hcase
    have hreads' := hreads.recased h.recasedAfter hhead
    have hne : spelling' ≠ [] := (Reads.number hreads hperiod).spelling_ne_nil
    obtain ⟨c', more, rfl⟩ := List.exists_cons_of_ne_nil hne
    refine ⟨c', more ++ after', rfl, scanToken_readsNumber hreads' fun hmark => ?_⟩
    rw [hmark] at hcase
    cases hcase
  · cases hreads with
    -- Numbers are kept with their case; of what is read here only the mark of a period is not.
    | period hafter =>
      have hdot : spelling' = ['.'] := h.recased.eq_of_caseless (by decide)
      refine ⟨'.', after', by rw [hdot]; rfl, ?_⟩
      refine scanToken_period (hafter.recased isDigit_toLower h.recasedAfter) fun hhead => ?_
      exact hperiod rfl ((h.recasedAfter.head?_eq_some_iff (by decide)).mp hhead)
    | _ => exact absurd rfl hcase

theorem scanToken_keepsDollar (hscan : scanToken afterWord '$' rest = .ok (token, after))
    (hspelling : '$' :: rest = spelling ++ after)
    (h : KeepsToken token spelling after spelling' after') :
    ∃ c' rest' token', c' :: rest' = spelling' ++ after' ∧
      scanToken afterWord c' rest' = .ok (token', after') ∧ token'.outline = token.outline := by
  rw [scanToken_dollar] at hscan
  rcases scanDollar_spec hscan with ⟨tag, value, body, rfl, rfl, -, hread⟩ |
    ⟨name, rfl, rfl, hname, hstop, hnext⟩
  · -- A text between dollars is kept with the case of its letters.
    obtain ⟨rfl, -⟩ := h.kept rfl
    obtain rfl : '$' :: body = spelling' := List.append_cancel_right hspelling
    exact ⟨'$', body ++ after', _, rfl, (scanToken_dollar _).trans (hread after'), rfl⟩
  · -- A placeholder may be recased: letters in another case are parts of a tag as well.
    obtain rfl : '$' :: name = spelling := List.append_cancel_right hspelling
    obtain ⟨d, name', rfl, hd, hrecased⟩ := recased_cons.mp h.recased
    obtain rfl : d = '$' := eq_of_toLower_eq hd (by decide)
    have hname' := (hrecased.all_eq isTagPart_toLower).mpr hname
    have hnext' : after'.head? ≠ some '$' :=
      mt (h.recasedAfter.head?_eq_some_iff (by decide)).mp hnext
    refine ⟨'$', name' ++ after', .placeholder (String.ofList ('$' :: name')), rfl,
      (scanToken_dollar _).trans ?_, rfl⟩
    exact scanDollar_placeholder hname' (hstop.recased isTagPart_toLower h.recasedAfter) hnext'

theorem scanToken_keepsEscaped (hescaped : OpensEscaped c rest)
    (hscan : scanToken afterWord c rest = .ok (token, after))
    (hspelling : c :: rest = spelling ++ after)
    (h : KeepsToken token spelling after spelling' after') :
    ∃ c' rest', c' :: rest' = spelling' ++ after' ∧
      scanToken afterWord c' rest' = .ok (token, after') := by
  obtain ⟨body, rfl⟩ := List.head?_eq_some_iff.mp hescaped.2
  rw [scanToken_escapedPrefix hescaped.1.symm] at hscan
  obtain ⟨text, htext, rfl⟩ := closeLiteral_eq_ok.mp hscan
  obtain ⟨inner, rfl, hafter, hinner⟩ := spellsEscaped_of_scanEscaped htext
  obtain ⟨rfl, hhead⟩ := h.kept rfl
  have hsplit : c :: '\'' :: (inner ++ ['\'']) ++ after = spelling' ++ after := by
    simpa using hspelling
  obtain rfl : c :: '\'' :: (inner ++ ['\'']) = spelling' := List.append_cancel_right hsplit
  refine ⟨c, '\'' :: (inner ++ '\'' :: after'), by simp, ?_⟩
  rw [scanToken_escapedPrefix hescaped.1.symm]
  refine closeLiteral_eq_ok.mpr ⟨text, hinner.scanEscaped_append (hhead ▸ hafter) ?_, rfl⟩
  rw [List.length_append]
  omega

/-- Where a text keeps a token of another, the same token is read up to case. -/
theorem scanToken_keeps (hscan : scanToken afterWord c rest = .ok (token, after))
    (hspelling : c :: rest = spelling ++ after)
    (h : KeepsToken token spelling after spelling' after') :
    ∃ c' rest' token', c' :: rest' = spelling' ++ after' ∧
      scanToken afterWord c' rest' = .ok (token', after') ∧ token'.outline = token.outline := by
  by_cases hnumber : c.isDigit = true ∨ c = '.'
  · obtain ⟨spelling₁, hspelling₁, hreads, hperiod⟩ := readsNumber_of_scanToken hnumber hscan
    obtain rfl := List.append_cancel_right (hspelling.symm.trans hspelling₁)
    obtain ⟨c', rest', hchars, hscan'⟩ :=
      scanToken_keepsNumber hreads (fun hmark => (hperiod hmark).2) h
    exact ⟨c', rest', token, hchars, hscan', rfl⟩
  by_cases hdollar : c = '$'
  · subst hdollar
    exact scanToken_keepsDollar hscan hspelling h
  by_cases hescaped : OpensEscaped c rest
  · obtain ⟨c', rest', hchars, hscan'⟩ := scanToken_keepsEscaped hescaped hscan hspelling h
    exact ⟨c', rest', token, hchars, hscan', rfl⟩
  -- Elsewhere the same is read in either case.
  obtain ⟨c', rest', hchars, hc, hrest⟩ :=
    recased_cons.mp (hspelling ▸ h.recased.append h.recasedAfter)
  rw [not_or, Bool.not_eq_true] at hnumber
  have hread : outline? (scanToken afterWord c.toLower (rest.map Char.toLower)) =
      outline? (scanToken afterWord c rest) := outline?_scanToken hnumber hdollar hescaped
  have hread' : outline? (scanToken afterWord c'.toLower (rest'.map Char.toLower)) =
      outline? (scanToken afterWord c' rest') := by
    refine outline?_scanToken ⟨(isDigit_toLower.eq hc).trans hnumber.1, ?_⟩ ?_ ?_
    · rintro rfl
      exact hnumber.2 (eq_of_toLower_eq hc.symm (by decide))
    · rintro rfl
      exact hdollar (eq_of_toLower_eq hc.symm (by decide))
    · rintro ⟨hletter, hquote⟩
      refine hescaped ⟨?_, (hrest.head?_eq_some_iff (by decide)).mp hquote⟩
      rw [← toLower_eq_e_iff, hc, toLower_eq_e_iff]
      exact hletter
  rw [← hc, ← hrest, hread, hscan] at hread'
  cases hscan' : scanToken afterWord c' rest' with
  | error fault =>
    rw [hscan'] at hread'
    cases hread'
  | ok step =>
    obtain ⟨token', after₁⟩ := step
    rw [hscan'] at hread'
    obtain ⟨htoken, hafter₁⟩ := Prod.mk.inj (Option.some.inj hread')
    obtain ⟨spelling₁, hspelling₁, -⟩ := reads_of_scanToken hscan'
    have hrecased : Recased after₁ after' := hafter₁.symm.trans h.recasedAfter
    have hlength : after₁.length = after'.length := by simpa using congrArg List.length hrecased
    obtain rfl : after₁ = after' :=
      List.append_inj_right' (hspelling₁.symm.trans hchars.symm) hlength
    exact ⟨c', rest', token', hchars.symm, hscan', htoken.symm⟩

end Steps

/-! ## Whole texts -/

/-- Characters that differ in case only from the text that pieces make up, and that keep the case of
the pieces that are read by it and of the character behind each of these. -/
inductive KeepsLiterals : List SpelledToken → List Char → Prop where
  | nil : KeepsLiterals [] []
  | cons {piece : SpelledToken} {pieces : List SpelledToken} {spelling after : List Char} :
      KeepsToken piece.token piece.spelling (spelled pieces) spelling after →
      KeepsLiterals pieces after → KeepsLiterals (piece :: pieces) (spelling ++ after)

/-- A text that keeps the literals of another is cut into the same tokens up to case. -/
theorem Cut.keeps {pieces : List SpelledToken} {chars' : List Char} (h : Cut afterWord chars pieces)
    (hkept : KeepsLiterals pieces chars') : ∃ pieces', Cut afterWord chars' pieces' ∧
      pieces'.map (·.token.outline) = pieces.map (·.token.outline) := by
  induction h generalizing chars' with
  | nil =>
    obtain ⟨⟩ := hkept
    exact ⟨[], .nil, rfl⟩
  | @cons afterWord c rest spelling after token pieces hscan hspelling hcut ih =>
    cases hkept with
    | @cons _ _ spelling' after' htoken hkept =>
      rw [hcut.spelled_eq] at htoken
      obtain ⟨c', rest', token', hchars, hscan', houtline⟩ := scanToken_keeps hscan hspelling htoken
      -- The next token is read alike, since its reading asks only whether a word stands before it.
      have hword : token'.isWord = token.isWord := by
        rw [← token'.isWord_outline, houtline, token.isWord_outline]
      obtain ⟨pieces', hcut', hpieces⟩ := ih hkept
      refine ⟨⟨token', spelling'⟩ :: pieces', ?_, ?_⟩
      · rw [← hchars]
        exact .cons hscan' hchars (hword ▸ hcut')
      · rw [List.map_cons, List.map_cons, hpieces, houtline]

/-- What the tokens of a text are for the names in it; nothing if it has no tokens. -/
def outlines? (text : String) : Option (List Token) :=
  (scan text).toOption.map fun tokens => tokens.map fun placed => placed.token.outline

theorem outlines?_eq_some {text : String} {outlines : List Token} :
    outlines? text = some outlines ↔
      ∃ pieces, Cut false text.toList pieces ∧ pieces.map (·.token.outline) = outlines := by
  have hplace (pieces : List SpelledToken) :
      (place 1 pieces).map (·.token.outline) = pieces.map (·.token.outline) := by
    have htokens := congrArg (List.map Token.outline) (map_token_place 1 pieces)
    simpa only [List.map_map, Function.comp_def] using htokens
  unfold outlines?
  constructor
  · intro h
    obtain ⟨placed, hplaced, houtlines⟩ := Option.map_eq_some_iff.mp h
    cases hscan : scan text with
    | error failure =>
      rw [hscan] at hplaced
      cases hplaced
    | ok found =>
      rw [hscan] at hplaced
      obtain rfl := Option.some.inj hplaced
      obtain ⟨pieces, hcut, rfl⟩ := scan_eq_ok.mp hscan
      exact ⟨pieces, hcut, (hplace pieces).symm.trans houtlines⟩
  · rintro ⟨pieces, hcut, rfl⟩
    rw [scan_eq_ok.mpr ⟨pieces, hcut, rfl⟩, ← hplace]
    rfl

/-- Either of two texts keeps the literals of the other. -/
def SameLiterals (text text' : String) : Prop :=
  (∀ pieces, Cut false text.toList pieces → KeepsLiterals pieces text'.toList) ∧
    ∀ pieces, Cut false text'.toList pieces → KeepsLiterals pieces text.toList

/-- Texts with the same literals have the same tokens up to case, or both have none. -/
theorem outlines?_eq_of_sameLiterals {text text' : String} (h : SameLiterals text text') :
    outlines? text = outlines? text' := by
  have hsome {text text' : String} {outlines : List Token}
      (hkept : ∀ pieces, Cut false text.toList pieces → KeepsLiterals pieces text'.toList)
      (houtlines : outlines? text = some outlines) : outlines? text' = some outlines := by
    obtain ⟨pieces, hcut, rfl⟩ := outlines?_eq_some.mp houtlines
    obtain ⟨pieces', hcut', hsame⟩ := hcut.keeps (hkept pieces hcut)
    exact outlines?_eq_some.mpr ⟨pieces', hcut', hsame⟩
  exact Option.ext fun outlines => ⟨hsome h.1, hsome h.2⟩

end SchemaPlan.Sql
