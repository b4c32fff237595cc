import SchemaPlan.Sql.Token.Scan
import Mathlib.Algebra.GroupWithZero.Nat
import Mathlib.Data.List.TakeDrop

/-!
# Quoted texts

What is read between quotes: where a quoted text ends, and how many characters its spelling takes.
A spelling has at least one character that is no white space for each of the text, and one more for
each that had to be escaped. In the form in which texts are written they are read back, as long as
no backslash stands in them where one means something.
-/

namespace SchemaPlan.Sql

attribute [grind =] scanBackslashed scanEscaped scanQuoted

/-! ## Visible characters -/

/-- Whether a character counts: white space does not. -/
def weight (c : Char) : Nat := if Text.isSpace c then 0 else 1

/-- The number of characters that are no white space. -/
def visible (chars : List Char) : Nat := (chars.map weight).sum

theorem weight_le_one (c : Char) : weight c ≤ 1 := by
  unfold weight
  split <;> omega

theorem not_isSpace_of_ascii {c : Char} (hlow : 32 < c.toNat) (hhigh : c.toNat < 128) :
    Text.isSpace c = false := by
  simp only [Text.isSpace, Bool.or_eq_false_iff, Bool.and_eq_false_iff, decide_eq_false_iff_not,
    beq_eq_false_iff_ne]
  omega

theorem weight_of_ascii {c : Char} (hlow : 32 < c.toNat) (hhigh : c.toNat < 128) :
    weight c = 1 :=
  if_neg (Bool.eq_false_iff.mp (not_isSpace_of_ascii hlow hhigh))

@[simp] theorem visible_nil : visible [] = 0 := rfl

@[simp] theorem visible_cons (c : Char) (rest : List Char) :
    visible (c :: rest) = weight c + visible rest :=
  rfl

@[simp] theorem visible_append (chars more : List Char) :
    visible (chars ++ more) = visible chars + visible more := by
  simp [visible]

/-- Where more is put in front of what was read, what follows it stays. -/
theorem exists_of_map_fst {found : Option (List Char × List Char)} {extend : List Char → List Char}
    {text after : List Char}
    (h : (found.map fun (inner, after) => (extend inner, after)) = some (text, after)) :
    ∃ inner, found = some (inner, after) ∧ text = extend inner := by
  obtain ⟨⟨inner, _⟩, hinner, heq⟩ := Option.map_eq_some_iff.mp h
  obtain ⟨rfl, rfl⟩ := Prod.mk.inj heq
  exact ⟨inner, hinner, rfl⟩

/-! ## Doubled quotes -/

/-- A text in which a closing character is doubled. -/
def doubled (close : Char) (text : List Char) : List Char :=
  text.flatMap fun c => if c = close then [close, close] else [c]

section Doubled

variable {close : Char} {text after : List Char}

theorem doubled_cons_self : doubled close (close :: text) = close :: close :: doubled close text := by
  simp [doubled]

theorem doubled_cons_of_ne {c : Char} (h : c ≠ close) :
    doubled close (c :: text) = c :: doubled close text := by
  simp [doubled, h]

theorem visible_doubled (hclose : weight close = 1) (text : List Char) :
    visible (doubled close text) = visible text + text.count close := by
  induction text with
  | nil => rfl
  | cons c rest ih =>
    by_cases hc : c = close
    · subst hc
      rw [doubled_cons_self, visible_cons, visible_cons, ih, visible_cons, List.count_cons_self]
      omega
    · rw [doubled_cons_of_ne hc, visible_cons, ih, visible_cons, List.count_cons_of_ne hc]
      omega

theorem doubled_append (text more : List Char) :
    doubled close (text ++ more) = doubled close text ++ doubled close more :=
  List.flatMap_append

theorem scanQuoted_cons_of_ne {c : Char} {rest : List Char} (h : c ≠ close) :
    scanQuoted close (c :: rest) =
      (scanQuoted close rest).map fun (text, after) => (c :: text, after) := by
  rw [scanQuoted.eq_def]
  exact if_neg h

theorem scanQuoted_spec {chars : List Char} (h : scanQuoted close chars = some (text, after)) :
    chars = doubled close text ++ close :: after ∧ after.head? ≠ some close := by
  induction chars using scanQuoted.induct close generalizing text with
  | case1 => cases h
  -- A doubled quote stands for one.
  | case2 rest ih =>
    rw [scanQuoted, if_pos rfl] at h
    simp only [if_true] at h
    obtain ⟨inner, hinner, rfl⟩ := exists_of_map_fst h
    obtain ⟨rfl, hafter⟩ := ih hinner
    exact ⟨by rw [doubled_cons_self]; rfl, hafter⟩
  -- A single quote closes the text.
  | case3 d rest hd =>
    rw [scanQuoted, if_pos rfl] at h
    simp only [hd, if_false] at h
    obtain ⟨rfl, rfl⟩ := Prod.mk.inj (Option.some.inj h)
    exact ⟨rfl, by simpa using hd⟩
  | case4 =>
    rw [scanQuoted, if_pos rfl] at h
    obtain ⟨rfl, rfl⟩ := Prod.mk.inj (Option.some.inj h)
    exact ⟨rfl, by simp⟩
  | case5 c rest hc ih =>
    rw [scanQuoted_cons_of_ne hc] at h
    obtain ⟨inner, hinner, rfl⟩ := exists_of_map_fst h
    obtain ⟨rfl, hafter⟩ := ih hinner
    exact ⟨by rw [doubled_cons_of_ne hc]; rfl, hafter⟩

end Doubled

/-! ## Backslashes in national and binary literals -/

section Backslashed

variable {text after : List Char}

/-- A backslash stands for itself only after another one. -/
theorem unescapeLetter_eq_backslash {c : Char} (h : unescapeLetter c = '\\') : c = '\\' := by
  unfold unescapeLetter at h
  split at h
  all_goals first | exact h | exact absurd h (by decide)

theorem unescapeLetter_eq_quote {c : Char} (h : unescapeLetter c = '\'') : c = '\'' := by
  unfold unescapeLetter at h
  split at h
  all_goals first | exact h | exact absurd h (by decide)

/-- A backslash and a character take as much as the text they stand for, with quotes doubled, and
more if they stand for a backslash. -/
theorem visible_unescapeLetter (c : Char) :
    visible (doubled '\'' [unescapeLetter c]) + [unescapeLetter c].count '\\' ≤
      visible ['\\', c] := by
  by_cases hquote : unescapeLetter c = '\''
  · rw [unescapeLetter_eq_quote hquote]
    decide
  by_cases hbackslash : unescapeLetter c = '\\'
  · rw [unescapeLetter_eq_backslash hbackslash]
    decide
  · rw [doubled_cons_of_ne hquote, List.count_singleton, if_neg (by simpa using hbackslash)]
    have hone := weight_le_one (unescapeLetter c)
    have hslash : weight '\\' = 1 := by decide
    have hnil : visible (doubled '\'' []) = 0 := rfl
    simp only [visible_cons, visible_nil]
    omega

/-- A literal with backslashes ends at a quote. Its spelling takes as much as the text it stands for
with quotes doubled, and more for every backslash of this text. -/
theorem scanBackslashed_spec {chars : List Char} (h : scanBackslashed chars = some (text, after)) :
    ∃ body, chars = body ++ '\'' :: after ∧ after.head? ≠ some '\'' ∧
      visible (doubled '\'' text) + text.count '\\' ≤ visible body := by
  -- By the scanner's own cases: two quotes, the closing one, a backslash, any other character.
  induction chars using scanBackslashed.induct generalizing text with
  | case1 => cases h
  | case2 rest ih =>
    rw [scanBackslashed] at h
    obtain ⟨inner, hinner, rfl⟩ := exists_of_map_fst h
    obtain ⟨body, rfl, hafter, hvisible⟩ := ih hinner
    refine ⟨'\'' :: '\'' :: body, rfl, hafter, ?_⟩
    rw [doubled_cons_self, List.count_cons_of_ne (by decide)]
    simp only [visible_cons]
    omega
  | case3 rest hrest =>
    rw [scanBackslashed] at h
    · obtain ⟨rfl, rfl⟩ := Prod.mk.inj (Option.some.inj h)
      refine ⟨[], rfl, ?_, by decide⟩
      intro hhead
      obtain ⟨more, rfl⟩ := List.head?_eq_some_iff.mp hhead
      exact hrest more rfl
    · exact hrest
  | case4 => cases h
  | case5 c rest ih =>
    rw [scanBackslashed] at h
    obtain ⟨inner, hinner, rfl⟩ := exists_of_map_fst h
    obtain ⟨body, rfl, hafter, hvisible⟩ := ih hinner
    refine ⟨'\\' :: c :: body, rfl, hafter, ?_⟩
    have hletter := visible_unescapeLetter c
    have hvisible := Nat.add_le_add hletter hvisible
    rw [← visible_append ['\\', c] body] at hvisible
    rw [← List.singleton_append, doubled_append, visible_append, List.count_append]
    refine Nat.le_trans (Nat.le_of_eq ?_) hvisible
    omega
  | case6 c rest hdouble hquote hlast hbackslash ih =>
    rw [scanBackslashed] at h
    · obtain ⟨inner, hinner, rfl⟩ := exists_of_map_fst h
      obtain ⟨body, rfl, hafter, hvisible⟩ := ih hinner
      have hc : c ≠ '\\' := by
        rintro rfl
        cases body with
        | nil => exact hbackslash _ _ rfl rfl
        | cons d more => exact hbackslash _ _ rfl rfl
      refine ⟨c :: body, rfl, hafter, ?_⟩
      rw [doubled_cons_of_ne hquote, List.count_cons_of_ne hc]
      simp only [visible_cons]
      omega
    all_goals assumption

end Backslashed

/-! ## Escapes in `E'..'` literals -/

section Escaped

variable {text after : List Char}

/-- How far a bounded run goes is told from the next character at most. -/
theorem takeWhile_take_append {p : Char → Bool} {n : Nat} {chars other : List Char}
    (hother : other.head? = (chars.drop ((chars.take n).takeWhile p).length).head?) :
    (((chars.take n).takeWhile p ++ other).take n).takeWhile p = (chars.take n).takeWhile p := by
  induction n generalizing chars with
  | zero => rfl
  | succ n ih =>
    cases chars with
    | nil =>
      rw [List.head?_eq_none_iff.mp hother]
      rfl
    | cons c rest =>
      rw [List.take_succ_cons] at hother ⊢
      cases hc : p c with
      | true =>
        rw [List.takeWhile_cons_of_pos hc] at hother ⊢
        rw [List.cons_append, List.take_succ_cons, List.takeWhile_cons_of_pos hc, ih hother]
      | false =>
        -- The run ends here, and `other` begins with the same character that ends it.
        rw [List.takeWhile_cons_of_neg (by simp [hc])] at hother ⊢
        obtain ⟨more, rfl⟩ := List.head?_eq_some_iff.mp hother
        rw [List.nil_append, List.take_succ_cons, List.takeWhile_cons_of_neg (by simp [hc])]

/-- The characters that an escape takes, without its backslash. At least one of them is no white space
if the escape stands for such a character, and of what follows them the next one matters at most. -/
structure SpellsEscape (c : Char) (used rest : List Char) : Prop where
  visible : weight c ≤ visible used
  reads : ∀ other, other.head? = rest.head? → scanEscape (used ++ other) = some (c, other)

section Escapes

variable {c first : Char} {more rest : List Char}

theorem spellsEscape_code (hfirst : weight first = 1) (n : Nat)
    (hread : ∀ other, other.head? = (more.drop n).head? →
      scanEscape (first :: (more.take n ++ other)) = some (c, other)) :
    ∃ used, first :: more = used ++ more.drop n ∧ SpellsEscape c used (more.drop n) := by
  refine ⟨first :: more.take n, by rw [List.cons_append, List.take_append_drop], ?_, hread⟩
  have hone := weight_le_one c
  rw [visible_cons, hfirst]
  omega

/-- A code of a fixed number of digits is read whatever follows it. -/
theorem spellsEscape_hexadecimal (hfirst : weight first = 1) {n : Nat}
    (hscan : ∀ chars, scanEscape (first :: chars) =
      if chars.length < n then none else (charOfHex? (chars.take n)).map (·, chars.drop n))
    (h : scanEscape (first :: more) = some (c, rest)) :
    ∃ used, first :: more = used ++ rest ∧ SpellsEscape c used rest := by
  rw [hscan] at h
  split at h
  · cases h
  · rename_i hlength
    obtain ⟨_, hvalue, heq⟩ := Option.map_eq_some_iff.mp h
    obtain ⟨rfl, rfl⟩ := Prod.mk.inj heq
    refine spellsEscape_code hfirst n fun other _ => ?_
    have htake := List.length_take_of_le (Nat.le_of_not_lt hlength)
    rw [hscan, if_neg (by simp [htake]), List.take_left' htake, List.drop_left' htake, hvalue]
    rfl

theorem take_length_takeWhile_take (more : List Char) (n : Nat) (p : Char → Bool) :
    more.take ((more.take n).takeWhile p).length = (more.take n).takeWhile p :=
  (List.prefix_iff_eq_take.mp ((List.takeWhile_prefix p).trans (List.take_prefix n more))).symm

/-- Behind an `x` up to two digits are read; without any it stands for itself. -/
theorem spellsEscape_x (h : scanEscape ('x' :: more) = some (c, rest)) :
    ∃ used, 'x' :: more = used ++ rest ∧ SpellsEscape c used rest := by
  rw [scanEscape] at h
  generalize hrun : (more.take 2).takeWhile (fun c => (digitValue? c).isSome) = run at h
  have hread (other : List Char) (hother : other.head? = (more.drop run.length).head?) :
      scanEscape ('x' :: (run ++ other)) = if run.isEmpty then some ('x', run ++ other)
        else (asciiOfDigits? 16 run).map (·, other) := by
    subst hrun
    rw [scanEscape, takeWhile_take_append hother, List.drop_left]
  split at h
  · rename_i hempty
    obtain rfl := List.isEmpty_iff.mp hempty
    obtain ⟨rfl, rfl⟩ := Prod.mk.inj (Option.some.inj h)
    exact ⟨['x'], rfl, by decide, hread⟩
  · rename_i hnonempty
    obtain ⟨_, hvalue, heq⟩ := Option.map_eq_some_iff.mp h
    obtain ⟨rfl, rfl⟩ := Prod.mk.inj heq
    refine spellsEscape_code (by decide) _ fun other hother => ?_
    have hrun : more.take run.length = run := by rw [← hrun, take_length_takeWhile_take]
    rw [hrun, hread other hother, if_neg hnonempty, hvalue]
    rfl

/-- Up to three digits are read as an octal code, and any other character stands for itself. -/
theorem spellsEscape_octal
    (hscan : ∀ chars, scanEscape (first :: chars) =
      if '0' ≤ first && first ≤ '7' then
        (asciiOfDigits? 8 (first :: (chars.take 2).takeWhile fun d => '0' ≤ d && d ≤ '7')).map
          (·, chars.drop ((chars.take 2).takeWhile fun d => '0' ≤ d && d ≤ '7').length)
      else some (first, chars))
    (h : scanEscape (first :: more) = some (c, rest)) :
    ∃ used, first :: more = used ++ rest ∧ SpellsEscape c used rest := by
  rw [hscan] at h
  split at h
  · rename_i hoctal
    obtain ⟨_, hvalue, heq⟩ := Option.map_eq_some_iff.mp h
    obtain ⟨rfl, rfl⟩ := Prod.mk.inj heq
    have hweight : weight first = 1 := by
      rw [Bool.and_eq_true, decide_eq_true_iff, decide_eq_true_iff] at hoctal
      have hlow : 48 ≤ first.toNat := UInt32.le_iff_toNat_le.mp hoctal.1
      have hhigh : first.toNat ≤ 55 := UInt32.le_iff_toNat_le.mp hoctal.2
      exact weight_of_ascii (by omega) (by omega)
    refine spellsEscape_code hweight _ fun other hother => ?_
    rw [hscan, if_pos hoctal, take_length_takeWhile_take, takeWhile_take_append hother,
      List.drop_left, hvalue]
    rfl
  · rename_i hoctal
    obtain ⟨rfl, rfl⟩ := Prod.mk.inj (Option.some.inj h)
    exact ⟨[first], rfl, by simp, fun other _ => (hscan other).trans (if_neg hoctal)⟩

/-- An escape that is read has its spelling at the head of the characters. -/
theorem scanEscape_spec {chars : List Char} (h : scanEscape chars = some (c, rest)) :
    ∃ used, chars = used ++ rest ∧ SpellsEscape c used rest := by
  have hread := h
  unfold scanEscape at h
  split at h
  · cases h
  -- One letter for a control character.
  iterate 5
    obtain ⟨rfl, rfl⟩ := Prod.mk.inj (Option.some.inj h)
    exact ⟨[_], rfl, by decide, fun _ _ => rfl⟩
  · exact spellsEscape_hexadecimal (by decide) (fun _ => rfl) hread
  · exact spellsEscape_hexadecimal (by decide) (fun _ => rfl) hread
  · exact spellsEscape_x hread
  · refine spellsEscape_octal (fun chars => ?_) hread
    rw [scanEscape]
    all_goals assumption

end Escapes

/-- Only the next character matters of what follows an escape. -/
theorem SpellsEscape.of_head?_eq {c : Char} {used rest other : List Char} (h : SpellsEscape c used rest)
    (hhead : rest.head? = other.head?) : SpellsEscape c used other where
  visible := h.visible
  reads more hmore := h.reads more (hmore.trans hhead.symm)

/-! ### Whole literals -/

/-- A text and the characters between the quotes of an escaped literal that spell it. A quote stands
behind the last of them, as the end of an escape may depend on the next character. -/
inductive SpellsEscaped : List Char → List Char → Prop where
  | nil : SpellsEscaped [] []
  | quote {text body : List Char} :
      SpellsEscaped text body → SpellsEscaped ('\'' :: text) ('\'' :: '\'' :: body)
  | escape {c : Char} {used text body : List Char} :
      c.toNat ≠ 0 → SpellsEscape c used (body ++ ['\'']) → SpellsEscaped text body →
      SpellsEscaped (c :: text) ('\\' :: (used ++ body))
  | plain {c : Char} {text body : List Char} :
      c ≠ '\'' → c ≠ '\\' → SpellsEscaped text body → SpellsEscaped (c :: text) (c :: body)

/-- A literal that is read ends at a quote, and what stands before it spells the text. -/
theorem spellsEscaped_of_scanEscaped {fuel : Nat} {chars : List Char}
    (h : scanEscaped fuel chars = some (text, after)) :
    ∃ body, chars = body ++ '\'' :: after ∧ after.head? ≠ some '\'' ∧ SpellsEscaped text body := by
  -- By the scanner's own cases: two quotes in `case3`, the closing one in `case4`, an escape in
  -- `case5`, any other character in `case6`.
  induction fuel, chars using scanEscaped.induct generalizing text with
  | case1 => cases h
  | case2 fuel hfuel =>
    rw [scanEscaped] at h
    · cases h
    · exact hfuel
  | case3 fuel rest ih =>
    rw [scanEscaped] at h
    obtain ⟨inner, hinner, rfl⟩ := exists_of_map_fst h
    obtain ⟨body, rfl, hafter, hbody⟩ := ih hinner
    exact ⟨_, rfl, hafter, .quote hbody⟩
  | case4 fuel rest hfuel hrest =>
    rw [scanEscaped] at h
    · obtain ⟨rfl, rfl⟩ := Prod.mk.inj (Option.some.inj h)
      refine ⟨[], rfl, ?_, .nil⟩
      intro hhead
      obtain ⟨more, rfl⟩ := List.head?_eq_some_iff.mp hhead
      obtain ⟨fuel, rfl⟩ := Nat.exists_eq_succ_of_ne_zero hfuel
      exact hrest fuel more rfl rfl
    all_goals assumption
  | case5 fuel rest ih =>
    rw [scanEscaped] at h
    obtain ⟨⟨c, more⟩, hescape, h⟩ := Option.bind_eq_some_iff.mp h
    dsimp only at h
    split at h
    · cases h
    · rename_i hc
      obtain ⟨inner, hinner, rfl⟩ := exists_of_map_fst h
      obtain ⟨used, rfl, hused⟩ := scanEscape_spec hescape
      obtain ⟨body, rfl, hafter, hbody⟩ := ih _ hinner
      have hhead : (body ++ '\'' :: after).head? = (body ++ ['\'']).head? := by cases body <;> rfl
      exact ⟨_, by simp, hafter, .escape hc (hused.of_head?_eq hhead) hbody⟩
  | case6 fuel c rest hdouble hc hbackslash ih =>
    rw [scanEscaped] at h
    · obtain ⟨inner, hinner, rfl⟩ := exists_of_map_fst h
      obtain ⟨body, rfl, hafter, hbody⟩ := ih hinner
      exact ⟨_, rfl, hafter, .plain hc hbackslash hbody⟩
    all_goals assumption

namespace SpellsEscaped

variable {body : List Char}

/-- The spelling takes as much as the text, and more for every quote and every backslash of it. -/
theorem visible (h : SpellsEscaped text body) :
    visible text + text.count '\'' + text.count '\\' ≤ visible body := by
  have hquote : weight '\'' = 1 := by decide
  induction h with
  | nil => decide
  | quote _ ih =>
    rw [List.count_cons_self, List.count_cons_of_ne (by decide)]
    simp only [visible_cons]
    omega
  | @escape c used text body _ hused _ ih =>
    have hslash : weight '\\' = 1 := by decide
    have hweight := hused.visible
    -- One character is not both a quote and a backslash.
    have hcount : [c].count '\'' + [c].count '\\' ≤ 1 := by
      by_cases hc : c = '\''
      · subst hc
        decide
      · rw [List.count_singleton, if_neg (by simpa using hc)]
        exact Nat.le_trans (Nat.le_of_eq (Nat.zero_add _)) List.count_le_length
    rw [← List.singleton_append, List.count_append, List.count_append]
    simp only [visible_cons, visible_append, visible_nil]
    omega
  | plain hc hbackslash _ ih =>
    rw [List.count_cons_of_ne hc, List.count_cons_of_ne hbackslash]
    simp only [visible_cons]
    omega

/-- A spelling is read up to the quote that closes it, whatever follows that. -/
theorem scanEscaped_append (h : SpellsEscaped text body) (hafter : after.head? ≠ some '\'')
    {fuel : Nat} (hfuel : body.length < fuel) :
    scanEscaped fuel (body ++ '\'' :: after) = some (text, after) := by
  induction h generalizing fuel with
  | nil =>
    rw [List.nil_append, scanEscaped]
    · exact Nat.ne_of_gt hfuel
    · rintro _ more - rfl
      exact hafter rfl
  | quote _ ih =>
    obtain ⟨fuel, rfl⟩ := Nat.exists_eq_succ_of_ne_zero (Nat.ne_of_gt (Nat.zero_lt_of_lt hfuel))
    rw [List.cons_append, List.cons_append, scanEscaped, ih (by simp at hfuel; omega)]
    rfl
  | @escape c used text body hc hused _ ih =>
    obtain ⟨fuel, rfl⟩ := Nat.exists_eq_succ_of_ne_zero (Nat.ne_of_gt (Nat.zero_lt_of_lt hfuel))
    have hescape := hused.reads (body ++ '\'' :: after) (by cases body <;> rfl)
    rw [List.cons_append, List.append_assoc, scanEscaped, hescape]
    dsimp only [Option.bind_eq_bind, Option.bind_some]
    rw [if_neg hc, ih (by simp at hfuel; omega)]
    rfl
  | plain hc hbackslash _ ih =>
    obtain ⟨fuel, rfl⟩ := Nat.exists_eq_succ_of_ne_zero (Nat.ne_of_gt (Nat.zero_lt_of_lt hfuel))
    rw [List.cons_append, scanEscaped, ih (by simpa using hfuel)]
    · rfl
    · exact fun _ heq => absurd heq hc
    · exact hc
    · exact hbackslash

end SpellsEscaped

end Escaped

end SchemaPlan.Sql
