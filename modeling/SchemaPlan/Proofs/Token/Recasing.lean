import SchemaPlan.Proofs.Text.Folding
import SchemaPlan.Proofs.Token.Rereading

/-!
# Tokens and ASCII case

Where neither a number, a literal with escapes nor a text between dollar signs starts, a reading step
does not depend on case: it yields the same token up to case, and leaves the same text up to case.
-/

namespace SchemaPlan.Sql

open SchemaPlan.Text

variable {c : Char} {chars rest after : List Char}

/-! ## Tokens up to case -/

/-- What a token is for the names in a text: a word up to case, a mark, or neither. -/
def Token.outline : Token → Token
  | .word text quote => .word (asciiLower text) quote
  | .mark m => .mark m
  | _ => .blank .space

theorem Token.isWord_outline (token : Token) : token.outline.isWord = token.isWord := by
  cases token <;> rfl

/-- What a reading step yields, up to case. -/
def outlineStep (step : Token × List Char) : Token × List Char :=
  (step.1.outline, step.2.map Char.toLower)

theorem isWordPart_toLower : IgnoresCase isWordPart := fun c => by
  simp only [isWordPart, isLetter_toLower c, isDigit_toLower c, beq_toLower (d := '@') rfl,
    beq_toLower (d := '$') rfl, beq_toLower (d := '#') rfl, beq_toLower (d := '_') rfl]

theorem isWordStart_toLower : IgnoresCase isWordStart := fun c => by
  simp only [isWordStart, isLetter_toLower c, beq_toLower (d := '@') rfl,
    beq_toLower (d := '#') rfl, beq_toLower (d := '_') rfl]

theorem isTagPart_toLower : IgnoresCase isTagPart := fun c => by
  simp only [isTagPart, isLetter_toLower c, isNumeral_toLower c, beq_toLower (d := '_') rfl]

theorem isMarkStart_toLower : IgnoresCase isMarkStart := apply_toLower (by decide)

theorem isExtendedBy_toLower (m : Mark) : IgnoresCase m.isExtendedBy :=
  apply_toLower (by cases m <;> decide)

theorem isPrefixLetter_toLower : IgnoresCase isPrefixLetter := apply_toLower (by decide)

theorem span_map_toLower {p : Char → Bool} (hp : IgnoresCase p) (chars : List Char) :
    (chars.map Char.toLower).span p =
      ((chars.span p).1.map Char.toLower, (chars.span p).2.map Char.toLower) := by
  have hcomp : p ∘ Char.toLower = p := funext hp
  simp only [List.span_eq_takeWhile_dropWhile, List.takeWhile_map, List.dropWhile_map, hcomp]

theorem Stops.map_toLower {p : Char → Bool} (hp : IgnoresCase p) (h : Stops p chars) :
    Stops p (chars.map Char.toLower) := by
  cases chars with
  | nil => exact .nil
  | cons c rest => exact stops_cons.mpr ((hp c).trans (stops_cons.mp h))

/-! ## Texts in quotes -/

theorem scanQuoted_map_toLower {close : Char} (hclose : close.isAlpha = false)
    (chars : List Char) : scanQuoted close (chars.map Char.toLower) =
      (scanQuoted close chars).map fun found =>
        (found.1.map Char.toLower, found.2.map Char.toLower) := by
  have hlower : close.toLower = close := toLower_of_not_isAlpha hclose
  induction chars using scanQuoted.induct close with
  | case1 => rfl
  | case2 rest ih => simp [scanQuoted, hlower, ih, Function.comp_def]
  | case3 d rest hd => simp [scanQuoted, hlower, hd, toLower_eq_iff hclose]
  | case4 => simp [scanQuoted, hlower]
  | case5 c rest hc ih =>
    have hc' : c.toLower ≠ close := mt (toLower_eq_iff hclose).mp hc
    rw [List.map_cons, scanQuoted_cons_of_ne hc', scanQuoted_cons_of_ne hc, ih]
    simp [Function.comp_def]

/-- The value of an escape depends on case, but where it ends does not. -/
theorem map_snd_scanBackslashed (chars : List Char) :
    (scanBackslashed (chars.map Char.toLower)).map (·.2) =
      (scanBackslashed chars).map fun found => found.2.map Char.toLower := by
  induction chars using scanBackslashed.induct with
  | case1 => rfl
  | case2 rest ih =>
    change (scanBackslashed ('\'' :: '\'' :: rest.map Char.toLower)).map _ = _
    rw [scanBackslashed, scanBackslashed, Option.map_map, Option.map_map]
    exact ih
  | case3 rest hrest =>
    -- The quote closes the literal in lower case as well: no quote comes of another character.
    have hrest' : ∀ more, rest.map Char.toLower = '\'' :: more → False := by
      intro more hmore
      have hhead : rest.head? = some '\'' :=
        (head?_map_toLower_eq_iff (by decide)).mp (congrArg List.head? hmore)
      obtain ⟨body, hbody⟩ := List.head?_eq_some_iff.mp hhead
      exact hrest body hbody
    change (scanBackslashed ('\'' :: rest.map Char.toLower)).map _ = _
    rw [scanBackslashed, scanBackslashed]
    · rfl
    · exact hrest
    · exact hrest'
  | case4 => rfl
  | case5 c rest ih =>
    change (scanBackslashed ('\\' :: c.toLower :: rest.map Char.toLower)).map _ = _
    rw [scanBackslashed, scanBackslashed, Option.map_map, Option.map_map]
    exact ih
  | case6 c rest hdouble hquote hlast hbackslash ih =>
    have hc : c ≠ '\\' := by
      rintro rfl
      cases rest with
      | nil => exact hlast rfl rfl
      | cons d more => exact hbackslash d more rfl rfl
    have hquote' : c.toLower ≠ '\'' := mt (toLower_eq_iff (by decide)).mp hquote
    have hc' : c.toLower ≠ '\\' := mt (toLower_eq_iff (by decide)).mp hc
    rw [List.map_cons, scanBackslashed, scanBackslashed, Option.map_map, Option.map_map]
    · exact ih
    all_goals first | assumption | simp_all

theorem map_snd_scanBlockComment (chars : List Char) :
    (scanBlockComment (chars.map Char.toLower)).map (·.2) =
      (scanBlockComment chars).map fun found => found.2.map Char.toLower := by
  induction chars using scanBlockComment.induct with
  | case1 => rfl
  | case2 rest => rfl
  | case3 c rest hnot ih =>
    rw [List.map_cons, scanBlockComment, scanBlockComment, Option.map_map, Option.map_map]
    · exact ih
    · exact hnot
    · intro more hc hrest
      have hhead : rest.head? = some '/' :=
        (head?_map_toLower_eq_iff (by decide)).mp (congrArg List.head? hrest)
      obtain ⟨body, hbody⟩ := List.head?_eq_some_iff.mp hhead
      exact hnot body ((toLower_eq_iff (by decide)).mp hc) hbody

theorem outlineStep_scanLineComment (body : List Char) :
    outlineStep (scanLineComment (body.map Char.toLower)) = outlineStep (scanLineComment body) := by
  have hline : IgnoresCase (· != '\n') := fun c => congrArg (!·) (beq_toLower rfl c)
  unfold scanLineComment
  rw [span_map_toLower hline]
  dsimp only
  cases (body.span (· != '\n')).2 <;> simp [outlineStep, Token.outline]

/-! ## Words and marks -/

theorem outlineStep_scanWord (start rest : List Char) :
    outlineStep (scanWord (start.map Char.toLower) (rest.map Char.toLower)) =
      outlineStep (scanWord start rest) := by
  unfold scanWord
  rw [span_map_toLower isWordPart_toLower]
  simp [outlineStep, Token.outline, asciiLower]

/-- Behind a sign of names a word is read, unless a longer mark or a blank stands there. -/
theorem scanHash_cons (hminus : c ≠ '-') (hgreater : c ≠ '>') :
    scanHash (c :: rest) =
      if c = ' ' then (.mark .hash, c :: rest) else scanWord ['#', c] rest := by
  simp [scanHash, hgreater]

theorem outlineStep_scanHash (rest : List Char) :
    outlineStep (scanHash (rest.map Char.toLower)) = outlineStep (scanHash rest) := by
  cases rest with
  | nil => rfl
  | cons c more =>
    by_cases hminus : c = '-'
    · subst hminus
      simp [scanHash, outlineStep]
    by_cases hgreater : c = '>'
    · subst hgreater
      cases more with
      | nil => rfl
      | cons d more =>
        by_cases hlong : d = '>'
        · subst hlong
          simp [scanHash, outlineStep]
        · have hlong' : d.toLower ≠ '>' := mt (toLower_eq_iff (by decide)).mp hlong
          simp [scanHash, outlineStep, hlong, hlong']
    have hspace : c.toLower = ' ' ↔ c = ' ' := toLower_eq_iff (by decide)
    rw [List.map_cons, scanHash_cons (mt (toLower_eq_iff (by decide)).mp hminus)
      (mt (toLower_eq_iff (by decide)).mp hgreater), scanHash_cons hminus hgreater]
    by_cases hc : c = ' '
    · rw [if_pos hc, if_pos (hspace.mpr hc)]
      simp [outlineStep]
    · rw [if_neg hc, if_neg (mt hspace.mp hc)]
      exact outlineStep_scanWord ['#', c] more

theorem scanAt_cons (hgreater : c ≠ '>') (hquestion : c ≠ '?') (hat : c ≠ '@') :
    scanAt (c :: rest) =
      if c = ' ' || c = '\'' || c = '"' || c = '\x60' then (.mark .at, c :: rest)
      else scanWord ['@', c] rest := by
  simp [scanAt, hat]

theorem outlineStep_scanAt (rest : List Char) :
    outlineStep (scanAt (rest.map Char.toLower)) = outlineStep (scanAt rest) := by
  cases rest with
  | nil => rfl
  | cons c more =>
    -- The characters that make a longer mark of the sign are no letters, and stay as they are.
    by_cases hgreater : c = '>'
    · subst hgreater
      simp [scanAt, outlineStep]
    by_cases hquestion : c = '?'
    · subst hquestion
      simp [scanAt, outlineStep]
    by_cases hat : c = '@'
    · subst hat
      cases more with
      | nil => rfl
      | cons d more =>
        have hspace : d.toLower = ' ' ↔ d = ' ' := toLower_eq_iff (by decide)
        have hdouble (d : Char) (more : List Char) : scanAt ('@' :: d :: more) =
            if d = ' ' then (.mark .doubleAt, d :: more) else scanWord ['@', '@', d] more := by
          simp [scanAt]
        change outlineStep (scanAt ('@' :: d.toLower :: more.map Char.toLower)) = _
        rw [hdouble, hdouble]
        by_cases hd : d = ' '
        · rw [if_pos hd, if_pos (hspace.mpr hd)]
          simp [outlineStep]
        · rw [if_neg hd, if_neg (mt hspace.mp hd)]
          exact outlineStep_scanWord ['@', '@', d] more
    rw [List.map_cons, scanAt_cons (mt (toLower_eq_iff (by decide)).mp hgreater)
      (mt (toLower_eq_iff (by decide)).mp hquestion) (mt (toLower_eq_iff (by decide)).mp hat),
      scanAt_cons hgreater hquestion hat]
    have hends : (c.toLower = ' ' || c.toLower = '\'' || c.toLower = '"' || c.toLower = '\x60') =
        (c = ' ' || c = '\'' || c = '"' || c = '\x60') := by
      simp only [toLower_eq_iff (d := ' ') rfl, toLower_eq_iff (d := '\'') rfl,
        toLower_eq_iff (d := '"') rfl, toLower_eq_iff (d := '\x60') rfl]
    rw [hends]
    split
    · simp [outlineStep]
    · exact outlineStep_scanWord ['@', c] more

/-- A mark that is read where no comment starts is read in either case. -/
theorem scanMark_map_toLower {m : Mark} (hopens : OpensNothing c rest)
    (h : scanMark (c :: rest) = some (m, after)) :
    scanMark (c.toLower :: rest.map Char.toLower) = some (m, after.map Char.toLower) := by
  have hstops := (hopens.stops_mark h).map_toLower (isExtendedBy_toLower m)
  obtain ⟨hplain, -, hspelling⟩ := scanMark_spec h
  have htext : m.text.toList.map Char.toLower = m.text.toList := by
    cases m <;> cases hplain <;> rfl
  rw [← List.map_cons]
  rcases hspelling with hspelling | ⟨rfl, hspelling⟩
  · rw [hspelling, List.map_append, htext]
    exact scanMark_text hplain hstops
  · rw [hspelling]
    rfl

theorem OpensNothing.map_toLower (h : OpensNothing c rest) :
    OpensNothing c.toLower (rest.map Char.toLower) := by
  have hne {d : Char} (hd : d.isAlpha = false) (hc : c ≠ d) : c.toLower ≠ d :=
    mt (toLower_eq_iff hd).mp hc
  have hhead {d e : Char} (hd : d.isAlpha = false) (he : e.isAlpha = false)
      (hrest : c = d → rest.head? ≠ some e) :
      c.toLower = d → (rest.map Char.toLower).head? ≠ some e := fun hc hrest' =>
    hrest ((toLower_eq_iff hd).mp hc) ((head?_map_toLower_eq_iff he).mp hrest')
  obtain ⟨⟨h1, h2, h3, h4⟩, ⟨h5, h6, h7⟩, hline, hblock, hperiod, hliteral⟩ := h
  exact {
    noBlank := ⟨hne rfl h1, hne rfl h2, hne rfl h3, hne rfl h4⟩
    noQuote := ⟨hne rfl h5, hne rfl h6, hne rfl h7⟩
    lineComment := hhead rfl rfl hline
    blockComment := hhead rfl rfl hblock
    period := hhead rfl rfl hperiod
    literal := fun hletter hrest => hliteral (isPrefixLetter_toLower c ▸ hletter)
      ((head?_map_toLower_eq_iff (by decide)).mp hrest) }

/-! ## Steps -/

/-- What a reading step yields, up to case; nothing if it fails. -/
def outline? (step : ScanStep) : Option (Token × List Char) := step.toOption.map outlineStep

theorem outline?_closeLiteral (kind : LiteralKind) {found found' : Option (List Char × List Char)}
    (h : found'.map (·.2) = found.map fun found => found.2.map Char.toLower) :
    outline? (closeLiteral kind found') = outline? (closeLiteral kind found) := by
  cases found with
  | none =>
    rw [Option.map_eq_none_iff.mp h]
  | some found =>
    obtain ⟨found', rfl, hafter⟩ := Option.map_eq_some_iff.mp h
    simp [outline?, closeLiteral, Except.toOption, outlineStep, Token.outline, hafter]

theorem outline?_closeWord (quote : Quote) (close : Char) (hclose : close.isAlpha = false)
    (body : List Char) :
    outline? (scanToken.closeWord quote (scanQuoted close (body.map Char.toLower))) =
      outline? (scanToken.closeWord quote (scanQuoted close body)) := by
  rw [scanQuoted_map_toLower hclose]
  cases scanQuoted close body with
  | none => rfl
  | some found =>
    simp [outline?, scanToken.closeWord, Except.toOption, outlineStep, Token.outline, asciiLower]

variable {afterWord : Bool}

/-- Where neither a number nor a text by the case of its letters starts, the same token is read in
either case. -/
theorem outline?_scanToken_of_opensNothing (hopens : OpensNothing c rest)
    (hnumber : c.isDigit = false ∧ c ≠ '.') (hdollar : c ≠ '$') :
    outline? (scanToken afterWord c.toLower (rest.map Char.toLower)) =
      outline? (scanToken afterWord c rest) := by
  have hopens' := hopens.map_toLower
  have hnumber' : c.toLower.isDigit = false ∧ c.toLower ≠ '.' :=
    ⟨(isDigit_toLower c).trans hnumber.1, mt (toLower_eq_iff rfl).mp hnumber.2⟩
  -- A mark is the same mark in lower case. Otherwise the tests of the scanner come out the same,
  -- one by one.
  cases hscan : scanMark (c :: rest) with
  | some found =>
    obtain ⟨m, after⟩ := found
    rw [scanToken_mark hopens hnumber hscan,
      scanToken_mark hopens' hnumber' (scanMark_map_toLower hopens hscan)]
    simp [outline?, Except.toOption, outlineStep]
  | none =>
    have hmark := not_isMarkStart hscan
    rw [scanToken_of_noMark hopens hnumber hmark,
      scanToken_of_noMark hopens' hnumber' ((isMarkStart_toLower c).trans hmark)]
    simp only [toLower_eq_iff (d := '#') rfl, toLower_eq_iff (d := '@') rfl,
      toLower_eq_iff (d := '?') rfl, toLower_eq_iff (d := '$') rfl, isWordStart_toLower c,
      isSpace_toLower c, if_neg hdollar]
    by_cases hhash : c = '#'
    · rw [if_pos hhash, if_pos hhash]
      exact congrArg some (outlineStep_scanHash rest)
    by_cases hat : c = '@'
    · rw [if_neg hhash, if_neg hhash, if_pos hat, if_pos hat]
      exact congrArg some (outlineStep_scanAt rest)
    by_cases hquestion : c = '?'
    · rw [if_neg hhash, if_neg hhash, if_neg hat, if_neg hat, if_pos hquestion, if_pos hquestion,
        span_map_toLower isNumeral_toLower]
      simp [outline?, Except.toOption, outlineStep, Token.outline]
    rw [if_neg hhash, if_neg hhash, if_neg hat, if_neg hat, if_neg hquestion, if_neg hquestion]
    split
    · exact congrArg some (outlineStep_scanWord [c] rest)
    · split <;> simp [outline?, Except.toOption, outlineStep, Token.outline]

theorem outline?_scanToken_return (rest : List Char) :
    outline? (scanToken afterWord '\r' (rest.map Char.toLower)) =
      outline? (scanToken afterWord '\r' rest) := by
  rw [scanToken_carriageReturn, scanToken_carriageReturn]
  simp only [head?_map_toLower_eq_iff (d := '\n') rfl]
  split <;> simp [outline?, Except.toOption, outlineStep]

theorem outline?_blockComment (body : List Char) :
    outline? (scanToken afterWord '/' ('*' :: body.map Char.toLower)) =
      outline? (scanToken afterWord '/' ('*' :: body)) := by
  have hread (body : List Char) : outline? (scanToken afterWord '/' ('*' :: body)) =
      (scanBlockComment body).map fun found => (.blank .space, found.2.map Char.toLower) := by
    rw [scanToken_blockComment]
    cases scanBlockComment body <;> rfl
  have hafter := congrArg (Option.map fun after : List Char =>
    (Token.blank .space, after.map Char.toLower)) (map_snd_scanBlockComment body)
  rw [Option.map_map, Option.map_map] at hafter
  rw [hread, hread]
  refine hafter.trans (congrArg (Option.map · (scanBlockComment body)) (funext fun found => ?_))
  simp

/-- Whether a letter is an `e` does not depend on its case. -/
theorem toLower_eq_e_iff (c : Char) : c.toLower = 'e' ∨ c.toLower = 'E' ↔ c = 'e' ∨ c = 'E' := by
  have hsame := apply_toLower (f := fun c : Char => c == 'e' || c == 'E') (by decide) c
  rw [Bool.eq_iff_iff] at hsame
  simpa only [Bool.or_eq_true, beq_iff_eq] using hsame

/-- A literal with escapes starts, whose letters are read by their case. -/
def OpensEscaped (c : Char) (rest : List Char) : Prop :=
  (c = 'e' ∨ c = 'E') ∧ rest.head? = some '\''

/-- Unless a number or a text starts that is read by the case of its letters, the same token is read
in either case. -/
theorem outline?_scanToken (hnumber : c.isDigit = false ∧ c ≠ '.') (hdollar : c ≠ '$')
    (hescaped : ¬ OpensEscaped c rest) :
    outline? (scanToken afterWord c.toLower (rest.map Char.toLower)) =
      outline? (scanToken afterWord c rest) := by
  by_cases hopens : OpensNothing c rest
  · exact outline?_scanToken_of_opensNothing hopens hnumber hdollar
  cases opening_of_not_opensNothing hopens with
  | space hc =>
    rcases hc with rfl | rfl | rfl <;>
      simp [scanToken, outline?, Except.toOption, outlineStep]
  | carriageReturn => exact outline?_scanToken_return rest
  | single =>
    refine outline?_closeLiteral .plain ?_
    rw [scanQuoted_map_toLower (by decide), Option.map_map]
    rfl
  | bracket => exact outline?_closeWord .bracket ']' (by decide) rest
  | double => exact outline?_closeWord .double '"' (by decide) rest
  | lineComment body => exact congrArg some (outlineStep_scanLineComment body)
  | blockComment body => exact outline?_blockComment body
  | period => exact absurd rfl hnumber.2
  | national body hc =>
    rcases hc with rfl | rfl <;> exact outline?_closeLiteral .national (map_snd_scanBackslashed body)
  | binary body hc =>
    rcases hc with rfl | rfl <;> exact outline?_closeLiteral .binary (map_snd_scanBackslashed body)
  | escaped _ hc => exact absurd ⟨hc.symm, rfl⟩ hescaped

end SchemaPlan.Sql
