import SchemaPlan.Proofs.Text.Case
import SchemaPlan.Proofs.Token.Writing

/-!
# Written tokens that are read back

Where a token ends, the characters it is written with are read as that token again.
-/

namespace SchemaPlan.Sql

/-! ## Steps -/

theorem ne_of_isWordStart {c d : Char} (hc : isWordStart c = true) (hd : isWordStart d = false) :
    c ≠ d := by
  rintro rfl
  rw [hc] at hd
  cases hd

theorem not_isDigit_of_isWordStart {c : Char} (h : isWordStart c = true) : c.isDigit = false := by
  rw [Bool.eq_false_iff]
  intro hdigit
  have hcode := Text.toNat_of_isDigit hdigit
  have hletter : Text.isLetter c = false := by
    rw [Text.isLetter_of_ascii c (by omega), Bool.eq_false_iff]
    intro halpha
    have hrange := (Text.isAlpha_iff c).mp halpha
    omega
  have hnot (d : Char) (hd : d.isDigit = false) : c ≠ d := by
    rintro rfl
    rw [hdigit] at hd
    cases hd
  simp only [isWordStart, hletter, Bool.false_or, Bool.or_eq_true, beq_iff_eq] at h
  rcases h with (h | h) | h <;> exact hnot _ (by decide) h

theorem not_isMarkStart_of_isWordStart {c : Char} (h : isWordStart c = true) :
    isMarkStart c = false := by
  have hmarks : ∀ d ∈ "(),;-/+*%|=!<>:\\]&^\x7b\x7d~".toList, isWordStart d = false := by
    have hall : "(),;-/+*%|=!<>:\\]&^\x7b\x7d~".toList.all (isWordStart · == false) = true := by decide
    exact fun d hd => beq_iff_eq.mp (List.all_eq_true.mp hall d hd)
  rw [Bool.eq_false_iff]
  intro hmark
  have hnot := hmarks c (by simpa [isMarkStart] using hmark)
  rw [h] at hnot
  cases hnot

section Steps

variable {afterWord : Bool} {c : Char} {rest after : List Char}

/-- Where neither a number nor a mark starts, a sign of names, a question mark, a dollar sign, a word
or a single character is read. -/
theorem scanToken_of_noMark (hopens : OpensNothing c rest)
    (hnumber : c.isDigit = false ∧ c ≠ '.') (hmark : isMarkStart c = false) :
    scanToken afterWord c rest =
      if c = '#' then .ok (scanHash rest)
      else if c = '@' then .ok (scanAt rest)
      else if c = '?' then
        .ok (.placeholder (String.ofList ('?' :: (rest.span Text.isNumeral).1)),
          (rest.span Text.isNumeral).2)
      else if isWordStart c then .ok (scanWord [c] rest)
      else if c = '$' then scanDollar rest
      else if Text.isSpace c then .ok (.blank .space, rest)
      else .ok (.other c, rest) := by
  rw [scanToken_eq_other hopens]
  unfold scanToken.other
  rw [if_neg (by simp [hnumber]), scanMark_eq_none_iff.mpr hmark]

theorem scanToken_number (hopens : OpensNothing c rest) (hnumber : c.isDigit = true ∨ c = '.') :
    scanToken afterWord c rest = .ok (scanNumber (c :: rest)) := by
  rw [scanToken_eq_other hopens]
  unfold scanToken.other
  rw [if_pos (by simpa using hnumber)]

theorem scanToken_mark {m : Mark} (hopens : OpensNothing c rest)
    (hnumber : c.isDigit = false ∧ c ≠ '.') (hmark : scanMark (c :: rest) = some (m, after)) :
    scanToken afterWord c rest = .ok (.mark m, after) := by
  rw [scanToken_eq_other hopens]
  unfold scanToken.other
  rw [if_neg (by simp [hnumber]), hmark]

/-- Characters at which more than a number, a mark or a word may start. -/
def openers : List Char := [' ', '\t', '\n', '\r', '\'', '[', '"', '-', '/', '.']

theorem opensNothing_of_not_mem (hopener : c ∉ openers)
    (hliteral : isPrefixLetter c = true → rest.head? ≠ some '\'') : OpensNothing c rest := by
  simp only [openers, List.mem_cons, List.not_mem_nil, or_false, not_or] at hopener
  obtain ⟨h1, h2, h3, h4, h5, h6, h7, h8, h9, h10⟩ := hopener
  exact ⟨⟨h1, h2, h3, h4⟩, ⟨h5, h6, h7⟩, fun h => absurd h h8, fun h => absurd h h9,
    fun h => absurd h h10, hliteral⟩

/-- A character of a kind that none of a list has is not in the list. -/
theorem not_mem_of_kind {p : Char → Bool} {chars : List Char} (hc : p c = true)
    (h : chars.all (p · == false) = true) : c ∉ chars := by
  intro hmem
  rw [beq_iff_eq.mp (List.all_eq_true.mp h c hmem)] at hc
  cases hc

/-- A digit opens a number only. -/
theorem opensNothing_of_isDigit (h : c.isDigit = true) : OpensNothing c rest := by
  refine opensNothing_of_not_mem (not_mem_of_kind h (by decide)) fun hprefix => ?_
  have hletters : c ∉ ['N', 'n', 'X', 'x', 'E', 'e'] := not_mem_of_kind h (by decide)
  exact absurd (by simpa [isPrefixLetter, or_assoc] using hprefix) hletters

/-- A word starts where no quote follows a prefix of a literal. -/
theorem opensNothing_of_isWordStart (h : isWordStart c = true)
    (hliteral : isPrefixLetter c = true → rest.head? ≠ some '\'') : OpensNothing c rest :=
  opensNothing_of_not_mem (not_mem_of_kind h (by decide)) hliteral

end Steps

/-! ## Numbers and marks -/

section Tokens

variable {afterWord : Bool} {c : Char} {rest after : List Char}

theorem scanNumber_period (hafter : Stops Char.isDigit after) :
    scanNumber ('.' :: after) = (.mark .period, after) := by
  have hwhole : ('.' :: after).span Char.isDigit = ([], '.' :: after) :=
    @span_append _ [] _ nofun (stops_cons.mpr (by decide))
  have hfraction : after.span Char.isDigit = ([], after) := @span_append _ [] _ nofun hafter
  unfold scanNumber
  rw [hwhole]
  change (if ((after.span Char.isDigit).1.isEmpty) = true then (Token.mark .period, after) else _) = _
  rw [hfraction]
  rfl

theorem scanNumber_binary {digits : List Char} (hdigits : ∀ d ∈ digits, isHexDigit d = true)
    (hafter : Stops isHexDigit after) :
    scanNumber ('0' :: 'x' :: (digits ++ after)) =
      (.literal .binary (String.ofList digits), after) := by
  have hwhole : ('0' :: 'x' :: (digits ++ after)).span Char.isDigit =
      (['0'], 'x' :: (digits ++ after)) :=
    @span_append _ ['0'] _ (List.forall_mem_singleton.mpr (by decide)) (stops_cons.mpr (by decide))
  have hspan : (digits ++ after).span (fun c => (digitValue? c).isSome) = (digits, after) :=
    span_append hdigits hafter
  unfold scanNumber
  rw [hwhole]
  exact congrArg (fun parts : List Char × List Char =>
    (Token.literal .binary (String.ofList parts.1), parts.2)) hspan

theorem scanToken_period (hafter : Stops Char.isDigit after)
    (hname : after.head? = some '_' → afterWord = true) :
    scanToken afterWord '.' after = .ok (.mark .period, after) := by
  by_cases hhead : after.head? = some '_'
  · obtain ⟨rest, rfl⟩ := List.head?_eq_some_iff.mp hhead
    obtain rfl := hname rfl
    rfl
  · have hopens : OpensNothing '.' after :=
      ⟨by decide, by decide, nofun, nofun, fun _ => hhead, fun h => absurd h (by decide)⟩
    rw [scanToken_number hopens (.inr rfl), scanNumber_period hafter]

theorem opensNothing_base {base power : List Char} (hbase : IsBase base)
    (h : c :: rest = base ++ power) (after : List Char) :
    OpensNothing c (rest ++ after) ∧ (c.isDigit = true ∨ c = '.') := by
  have hdigit (hc : c.isDigit = true) : OpensNothing c (rest ++ after) ∧ (c.isDigit = true ∨ c = '.') :=
    ⟨opensNothing_of_isDigit hc, .inl hc⟩
  cases hbase with
  | whole hne hdigits =>
    obtain ⟨d, more, rfl⟩ := List.exists_cons_of_ne_nil hne
    obtain ⟨rfl, -⟩ := List.cons.inj h
    exact hdigit (hdigits c List.mem_cons_self)
  | @fraction whole fraction hwhole hfraction hne =>
    cases whole with
    | cons d more =>
      obtain ⟨rfl, -⟩ := List.cons.inj h
      exact hdigit (hwhole c List.mem_cons_self)
    | nil =>
      -- A period without digits before it has a digit behind.
      obtain ⟨d, more, rfl⟩ := List.exists_cons_of_ne_nil hne
      obtain ⟨rfl, rfl⟩ := List.cons.inj h
      have hd := hfraction d List.mem_cons_self
      refine ⟨⟨by decide, by decide, nofun, nofun, fun _ hhead => ?_, fun h => absurd h (by decide)⟩,
        .inr rfl⟩
      obtain rfl := Option.some.inj hhead
      exact absurd hd (by decide)

/-- A number, a binary literal or a period is read from its spelling again. -/
theorem scanToken_readsNumber {token : Token} (h : ReadsNumber token (c :: rest) after)
    (hperiod : token = .mark .period → after.head? = some '_' → afterWord = true) :
    scanToken afterWord c (rest ++ after) = .ok (token, after) := by
  -- The spelling is made a variable, for the cases to say what it is.
  generalize hspelling : c :: rest = spelling at h
  cases h with
  | period hafter =>
    obtain ⟨rfl, rfl⟩ := List.cons.inj hspelling
    exact scanToken_period hafter (hperiod rfl)
  | binary hdigits hafter =>
    obtain ⟨rfl, rfl⟩ := List.cons.inj hspelling
    rw [scanToken_number (opensNothing_of_isDigit (by decide)) (.inl (by decide))]
    exact congrArg Except.ok (scanNumber_binary hdigits hafter)
  | short hbase hpower hends =>
    obtain ⟨hopens, hnumber⟩ := opensNothing_base hbase hspelling after
    rw [scanToken_number hopens hnumber, ← List.cons_append, hspelling, List.append_assoc]
    exact congrArg Except.ok (scanNumber_short hbase hpower hends)
  | long hbase hpower =>
    rw [List.append_assoc] at hspelling
    obtain ⟨hopens, hnumber⟩ := opensNothing_base hbase hspelling after
    rw [scanToken_number hopens hnumber, ← List.cons_append, hspelling, List.append_assoc,
      List.append_assoc]
    exact congrArg Except.ok (scanNumber_long hbase hpower after)

/-! ## Names -/

theorem scanToken_dollar (rest : List Char) : scanToken afterWord '$' rest = scanDollar rest :=
  scanToken_of_noMark (opensNothing_of_not_mem (by decide) fun h => absurd h (by decide)) (by decide) rfl

section Quoted

variable {text : List Char}

end Quoted

/-! ## Single characters -/

end Tokens

end SchemaPlan.Sql
