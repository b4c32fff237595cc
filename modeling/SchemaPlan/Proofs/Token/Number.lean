import SchemaPlan.Sql.Token.Scan
import Mathlib.Data.List.TakeDrop
import Mathlib.Data.List.TakeWhile

/-!
# Numbers

What is read where a digit or a period stands: a number, which has digits with at most one period
among them and at most one exponent behind; a binary literal; or a period alone.
-/

namespace SchemaPlan.Sql

/-! ## Runs of characters -/

/-- What follows a run of characters does not go on with it. -/
def Stops (p : Char → Bool) (after : List Char) : Prop := ∀ c ∈ after.head?, p c = false

section Runs

variable {p : Char → Bool} {run after : List Char}

theorem Stops.nil : Stops p [] := fun _ h => nomatch h

theorem stops_cons {c : Char} : Stops p (c :: after) ↔ p c = false := by
  simp [Stops]

/-- A run is read up to where it stops. -/
theorem span_append (hrun : ∀ c ∈ run, p c = true) (hafter : Stops p after) :
    (run ++ after).span p = (run, after) := by
  rw [List.span_eq_takeWhile_dropWhile, List.takeWhile_append_of_pos hrun,
    List.dropWhile_append_of_pos hrun]
  cases after with
  | nil => simp
  | cons c rest =>
    rw [stops_cons] at hafter
    simp [hafter]

theorem span_spec (p : Char → Bool) (chars : List Char) :
    chars = (chars.span p).1 ++ (chars.span p).2 ∧ (∀ c ∈ (chars.span p).1, p c = true) ∧
      Stops p (chars.span p).2 := by
  rw [List.span_eq_takeWhile_dropWhile]
  refine ⟨List.takeWhile_append_dropWhile.symm, fun c hc => List.mem_takeWhile_imp hc, ?_⟩
  intro c hc
  have hnot := List.head?_dropWhile_not p chars
  rw [Option.mem_def.mp hc] at hnot
  simpa using hnot

end Runs

/-! ## Exponents -/

/-- Digits only. -/
def IsDigits (chars : List Char) : Prop := ∀ c ∈ chars, c.isDigit = true

/-- An exponent: a letter, a sign or none, and at least one digit. -/
inductive IsPower : List Char → Prop where
  | mk {e : Char} {sign digits : List Char} :
      e = 'e' ∨ e = 'E' → sign = [] ∨ sign = ['+'] ∨ sign = ['-'] → digits ≠ [] → IsDigits digits →
      IsPower (e :: (sign ++ digits))

theorem scanExponent_signed {e s : Char} {rest : List Char} (he : e = 'e' ∨ e = 'E')
    (hs : s = '+' ∨ s = '-') :
    scanExponent (e :: s :: rest) =
      if (rest.span Char.isDigit).1.isEmpty then ([], e :: s :: rest)
      else (e :: ([s] ++ (rest.span Char.isDigit).1), (rest.span Char.isDigit).2) := by
  have he' : (e == 'e' || e == 'E') = true := by simpa using he
  have hs' : (s == '+' || s == '-') = true := by simpa using hs
  simp only [scanExponent, he', hs', if_true]
  rfl

theorem scanExponent_unsigned {e : Char} {rest : List Char} (he : e = 'e' ∨ e = 'E')
    (hs : Stops (fun s => s == '+' || s == '-') rest) :
    scanExponent (e :: rest) =
      if (rest.span Char.isDigit).1.isEmpty then ([], e :: rest)
      else (e :: ([] ++ (rest.span Char.isDigit).1), (rest.span Char.isDigit).2) := by
  have he' : (e == 'e' || e == 'E') = true := by simpa using he
  cases rest with
  | nil => simp only [scanExponent, he', if_true]; rfl
  | cons s more =>
    rw [stops_cons] at hs
    simp only [scanExponent, he', hs, if_true, Bool.false_eq_true, if_false]
    rfl

theorem IsDigits.stops_sign {digits after : List Char} (h : IsDigits digits) (hne : digits ≠ []) :
    Stops (fun s => s == '+' || s == '-') (digits ++ after) := by
  obtain ⟨d, more, rfl⟩ := List.exists_cons_of_ne_nil hne
  have hdigit := h d List.mem_cons_self
  rw [List.cons_append, stops_cons, Bool.or_eq_false_iff, beq_eq_false_iff_ne, beq_eq_false_iff_ne]
  constructor <;> rintro rfl <;> exact absurd hdigit (by decide)

/-- An exponent at the head of a text is read up to its last digit. -/
theorem scanExponent_power {power after : List Char} (h : IsPower power)
    (hafter : Stops Char.isDigit after) : scanExponent (power ++ after) = (power, after) := by
  obtain ⟨he, hsign, hne, hdigits⟩ := h
  have hnonempty : ¬ List.isEmpty _ = true := mt List.isEmpty_iff.mp hne
  rcases hsign with rfl | rfl | rfl
  · rw [List.nil_append, List.cons_append, scanExponent_unsigned he (hdigits.stops_sign hne),
      span_append hdigits hafter, if_neg hnonempty]
    rfl
  all_goals
    simp only [List.cons_append, List.nil_append]
    rw [scanExponent_signed he (by decide), span_append hdigits hafter, if_neg hnonempty]
    rfl

/-- Either no exponent stands at the head of a text, or it is read. -/
theorem scanExponent_spec (chars : List Char) :
    scanExponent chars = ([], chars) ∨ ∃ power after, IsPower power ∧ chars = power ++ after ∧
      Stops Char.isDigit after ∧ scanExponent chars = (power, after) := by
  cases chars with
  | nil => exact .inl rfl
  | cons e rest =>
    by_cases he : e = 'e' ∨ e = 'E'
    swap
    · exact .inl (if_neg (by simpa using he))
    -- With a sign or without, digits have to follow; else the letter is left to the next token.
    by_cases hs : Stops (fun s => s == '+' || s == '-') rest
    · obtain ⟨hrest, hrun, hstop⟩ := span_spec Char.isDigit rest
      rw [scanExponent_unsigned he hs]
      split
      · exact .inl rfl
      · rename_i hne
        refine .inr ⟨_, _, .mk he (.inl rfl) (mt List.isEmpty_iff.mpr hne) hrun, ?_, hstop, rfl⟩
        rw [List.cons_append, List.nil_append, ← hrest]
    · obtain ⟨s, rest, rfl⟩ : ∃ s more, rest = s :: more := by
        refine List.exists_cons_of_ne_nil ?_
        rintro rfl
        exact hs .nil
      have hsign : s = '+' ∨ s = '-' := by
        rw [stops_cons, Bool.not_eq_false] at hs
        simpa using hs
      obtain ⟨hrest, hrun, hstop⟩ := span_spec Char.isDigit rest
      rw [scanExponent_signed he hsign]
      split
      · exact .inl rfl
      · rename_i hne
        refine .inr ⟨_, _, .mk he ?_ (mt List.isEmpty_iff.mpr hne) hrun, ?_, hstop, rfl⟩
        · rcases hsign with rfl | rfl
          · exact .inr (.inl rfl)
          · exact .inr (.inr rfl)
        · rw [List.cons_append, List.append_assoc, ← hrest]
          rfl

/-! ## Numbers -/

/-- Digits with at most one period among them. -/
inductive IsBase : List Char → Prop where
  | whole {digits : List Char} : digits ≠ [] → IsDigits digits → IsBase digits
  | fraction {whole fraction : List Char} :
      IsDigits whole → IsDigits fraction → whole ++ fraction ≠ [] →
      IsBase (whole ++ '.' :: fraction)

/-- A number ends: what follows neither goes on with it nor marks it as long. -/
structure NumberEnds (base power after : List Char) : Prop where
  digit : Stops Char.isDigit after
  long : after.head? ≠ some 'L'
  exponent : power = [] → (scanExponent after).1 = []
  point : power = [] → '.' ∉ base → after.head? ≠ some '.'
  hex : power = [] → base = ['0'] → after.head? ≠ some 'x'

/-- Digits of bases up to sixteen. -/
def isHexDigit (c : Char) : Bool := (digitValue? c).isSome

/-- What is read where a digit or a period stands, with its spelling and what follows. -/
inductive ReadsNumber : Token → List Char → List Char → Prop where
  | period {after : List Char} :
      Stops Char.isDigit after → ReadsNumber (.mark .period) ['.'] after
  | binary {digits after : List Char} :
      (∀ c ∈ digits, isHexDigit c = true) → Stops isHexDigit after →
      ReadsNumber (.literal .binary (String.ofList digits)) ('0' :: 'x' :: digits) after
  | short {base power after : List Char} :
      IsBase base → power = [] ∨ IsPower power → NumberEnds base power after →
      ReadsNumber (.number (String.ofList (base ++ power)) false) (base ++ power) after
  | long {base power after : List Char} :
      IsBase base → power = [] ∨ IsPower power →
      ReadsNumber (.number (String.ofList (base ++ power)) true) (base ++ power ++ ['L']) after

section Numbers

variable {base power after : List Char}

theorem IsPower.ne_nil (h : IsPower power) : power ≠ [] := by
  obtain ⟨⟩ := h
  exact List.cons_ne_nil _ _

theorem IsBase.ne_nil (h : IsBase base) : base ≠ [] := by
  cases h with
  | whole hne _ => exact hne
  | fraction _ _ _ => simp

theorem finish_short (hpower : power = [] ∨ IsPower power) (hends : NumberEnds base power after) :
    scanNumber.finish base (power ++ after) =
      (.number (String.ofList (base ++ power)) false, after) := by
  have hscan : scanExponent (power ++ after) = (power, after) := by
    rcases hpower with rfl | hpower
    · rcases scanExponent_spec after with h | ⟨power, rest, hpower, -, -, h⟩
      · exact h
      · have hnone := hends.exponent rfl
        rw [h] at hnone
        exact absurd hnone hpower.ne_nil
    · exact scanExponent_power hpower hends.digit
  unfold scanNumber.finish
  rw [hscan]
  dsimp only
  split
  · exact absurd rfl hends.long
  · rfl

/-- A long number is marked behind its exponent. -/
theorem finish_long (hpower : power = [] ∨ IsPower power) (after : List Char) :
    scanNumber.finish base (power ++ 'L' :: after) =
      (.number (String.ofList (base ++ power)) true, after) := by
  have hscan : scanExponent (power ++ 'L' :: after) = (power, 'L' :: after) := by
    rcases hpower with rfl | hpower
    · rfl
    · exact scanExponent_power hpower (stops_cons.mpr (by decide))
  unfold scanNumber.finish
  rw [hscan]
  rfl

/-- Digits with at most one period are read up to where they end. -/
theorem scanNumber_base {rest : List Char} (hbase : IsBase base) (hstops : Stops Char.isDigit rest)
    (hpoint : '.' ∉ base → rest.head? ≠ some '.') (hhex : base = ['0'] → rest.head? ≠ some 'x') :
    scanNumber (base ++ rest) = scanNumber.finish base rest := by
  obtain ⟨hne, hdigits⟩ | ⟨hwhole, hfraction, hne⟩ := hbase
  · unfold scanNumber
    rw [span_append hdigits hstops]
    dsimp only
    split
    · exact absurd rfl (hhex rfl)
    · exact absurd rfl (hpoint fun hmem => absurd (hdigits _ hmem) (by decide))
    · rfl
  · rename_i whole fraction
    have hempty : (whole.isEmpty && fraction.isEmpty) = false := by
      cases whole with
      | nil => simpa using hne
      | cons => rfl
    unfold scanNumber
    rw [List.append_assoc, List.cons_append, span_append hwhole (stops_cons.mpr (by decide))]
    dsimp only
    split
    · rename_i heq
      cases heq
    · rename_i heq
      obtain rfl := (List.cons.inj heq).2
      rw [span_append hfraction hstops]
      dsimp only
      rw [hempty]
      rfl
    · rename_i hnot _
      exact (hnot _ rfl).elim

/-- An exponent starts with a letter, which neither goes on with digits nor is a period. -/
theorem IsPower.starts (h : IsPower power) (after : List Char) :
    Stops Char.isDigit (power ++ after) ∧ (power ++ after).head? ≠ some '.' ∧
      (power ++ after).head? ≠ some 'x' := by
  obtain ⟨he, -, -, -⟩ := h
  rw [List.cons_append, stops_cons, List.head?_cons]
  rcases he with rfl | rfl <;> decide

/-- A number is read back where it ends. -/
theorem scanNumber_short (hbase : IsBase base) (hpower : power = [] ∨ IsPower power)
    (hends : NumberEnds base power after) :
    scanNumber (base ++ (power ++ after)) =
      (.number (String.ofList (base ++ power)) false, after) := by
  rw [← finish_short hpower hends]
  rcases hpower with rfl | hpower
  · exact scanNumber_base hbase hends.digit (hends.point rfl) (hends.hex rfl)
  · obtain ⟨hstops, hpoint, hhex⟩ := hpower.starts after
    exact scanNumber_base hbase hstops (fun _ => hpoint) fun _ => hhex

theorem scanNumber_long (hbase : IsBase base) (hpower : power = [] ∨ IsPower power)
    (after : List Char) :
    scanNumber (base ++ (power ++ 'L' :: after)) =
      (.number (String.ofList (base ++ power)) true, after) := by
  rw [← finish_long hpower after]
  rcases hpower with rfl | hpower
  · exact scanNumber_base hbase (stops_cons.mpr (by decide)) (fun _ => nofun) fun _ => nofun
  · obtain ⟨hstops, hpoint, hhex⟩ := hpower.starts ('L' :: after)
    exact scanNumber_base hbase hstops (fun _ => hpoint) fun _ => hhex

/-- After digits an exponent and the mark of a long number are read, if they stand there. -/
theorem finish_spec {rest : List Char} (hbase : IsBase base) (hstops : Stops Char.isDigit rest)
    (hpoint : '.' ∉ base → rest.head? ≠ some '.') (hhex : base = ['0'] → rest.head? ≠ some 'x') :
    ∃ spelling, base ++ rest = spelling ++ (scanNumber.finish base rest).2 ∧
      ReadsNumber (scanNumber.finish base rest).1 spelling (scanNumber.finish base rest).2 := by
  -- What is read of the rest is an exponent or nothing; then the mark is looked for.
  have hmark {power after : List Char} (hscan : scanExponent rest = (power, after))
      (hrest : rest = power ++ after) (hpower : power = [] ∨ IsPower power)
      (hends : after.head? ≠ some 'L' → NumberEnds base power after) :
      ∃ spelling, base ++ rest = spelling ++ (scanNumber.finish base rest).2 ∧
        ReadsNumber (scanNumber.finish base rest).1 spelling (scanNumber.finish base rest).2 := by
    unfold scanNumber.finish
    rw [hscan]
    dsimp only
    split
    · exact ⟨base ++ power ++ ['L'], by simp [hrest], .long hbase hpower⟩
    · rename_i hlong
      refine ⟨base ++ power, by simp [hrest], .short hbase hpower (hends fun hhead => ?_)⟩
      obtain ⟨more, hmore⟩ := List.head?_eq_some_iff.mp hhead
      exact hlong more hmore
  rcases scanExponent_spec rest with hscan | ⟨power, after, hpower, hrest, hafter, hscan⟩
  · exact hmark hscan rfl (.inl rfl) fun hlong =>
      ⟨hstops, hlong, fun _ => by rw [hscan], fun _ => hpoint, fun _ => hhex⟩
  · exact hmark hscan hrest (.inr hpower) fun hlong =>
      ⟨hafter, hlong, fun h => absurd h hpower.ne_nil, fun h => absurd h hpower.ne_nil,
        fun h => absurd h hpower.ne_nil⟩

/-- Where a digit or a period stands, a number, a binary literal or the period alone is read. -/
theorem scanNumber_spec {c : Char} {rest : List Char} (hstart : c.isDigit = true ∨ c = '.') :
    ∃ spelling, c :: rest = spelling ++ (scanNumber (c :: rest)).2 ∧
      ReadsNumber (scanNumber (c :: rest)).1 spelling (scanNumber (c :: rest)).2 := by
  obtain ⟨hwhole, hdigits, hstops⟩ := span_spec Char.isDigit (c :: rest)
  unfold scanNumber
  dsimp only
  generalize hspan : (c :: rest).span Char.isDigit = parts at *
  obtain ⟨digits, more⟩ := parts
  dsimp only at hwhole hdigits hstops ⊢
  -- The branches of the scanner: a binary literal, a period among the digits, digits alone.
  split
  · rename_i more
    obtain ⟨hmore, hall, hstop⟩ := span_spec isHexDigit more
    refine ⟨'0' :: 'x' :: (more.span isHexDigit).1, ?_, .binary hall hstop⟩
    rw [hwhole]
    exact congrArg ('0' :: 'x' :: ·) hmore
  · rename_i more
    obtain ⟨hmore, hall, hstop⟩ := span_spec Char.isDigit more
    split
    · rename_i hempty
      rw [Bool.and_eq_true, List.isEmpty_iff, List.isEmpty_iff] at hempty
      obtain ⟨rfl, hnone⟩ := hempty
      rw [hnone] at hmore
      exact ⟨['.'], hwhole, .period (by rwa [hmore])⟩
    · rename_i hempty
      rw [Bool.and_eq_true, List.isEmpty_iff, List.isEmpty_iff] at hempty
      have hbase : IsBase (digits ++ '.' :: (more.span Char.isDigit).1) :=
        .fraction hdigits hall fun h => hempty (List.append_eq_nil_iff.mp h)
      obtain ⟨spelling, hspelling, hreads⟩ := finish_spec hbase hstop
        (fun h => absurd (by simp) h) (fun h => by
          cases digits with
          | nil => cases h
          | cons d more => cases (List.append_eq_nil_iff.mp (List.cons.inj h).2).2)
      refine ⟨spelling, ?_, hreads⟩
      rw [← hspelling, hwhole, List.append_assoc, List.cons_append, ← hmore]
  · rename_i hpoint hhex
    -- The text starts with a digit or a period, and a period is the branch before.
    have hne : digits ≠ [] := by
      rintro rfl
      rcases hstart with hdigit | rfl
      · rw [List.nil_append] at hwhole
        obtain rfl := hwhole
        rw [stops_cons, hdigit] at hstops
        cases hstops
      · exact hpoint rest hwhole.symm
    have hperiod : more.head? ≠ some '.' := fun hhead =>
      have ⟨after, hafter⟩ := List.head?_eq_some_iff.mp hhead
      hpoint after hafter
    have hx : digits = ['0'] → more.head? ≠ some 'x' := fun hzero hhead =>
      have ⟨after, hafter⟩ := List.head?_eq_some_iff.mp hhead
      hhex after hzero hafter
    obtain ⟨spelling, hspelling, hreads⟩ :=
      finish_spec (.whole hne hdigits) hstops (fun _ => hperiod) hx
    exact ⟨spelling, by rw [hwhole, hspelling], hreads⟩

end Numbers

end SchemaPlan.Sql
