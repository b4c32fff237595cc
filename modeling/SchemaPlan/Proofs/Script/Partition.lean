import Mathlib.Data.List.Chain
import SchemaPlan.Proofs.Script.Batches
import SchemaPlan.Proofs.Token.Slices

/-!
# How batches partition a script

A script is a row of stretches: runs of lines that are no separators, and the separators between
them. There is only one way to see a script so, and its batches are the runs, each with the exact text
of its lines and the number of the first of them.

* `hasLines_iff`: which lines a text has.
* `isSeparator_iff`: which lines are separators.
* `split_partitions`: the batches of a script are the runs between its separators.
-/

namespace SchemaPlan

/-! ## Lines -/

/-- The lines of a text. Each has a line feed at its end and nowhere else; the last may have none. -/
inductive HasLines : List Char → List (List Char) → Prop where
  | nil : HasLines [] []
  | last {body : List Char} : body ≠ [] → '\n' ∉ body → HasLines body [body]
  | cons {body chars : List Char} {lines : List (List Char)} :
      '\n' ∉ body → HasLines chars lines → HasLines (body ++ '\n' :: chars) ((body ++ ['\n']) :: lines)

theorem linesOf_of_last {body : List Char} (hne : body ≠ []) (h : '\n' ∉ body) :
    linesOf body = [body] := by
  induction body with
  | nil => exact absurd rfl hne
  | cons c rest ih =>
    simp only [List.mem_cons, not_or] at h
    rw [linesOf, if_neg (Ne.symm h.1)]
    cases rest with
    | nil => rfl
    | cons d more => rw [ih (List.cons_ne_nil d more) h.2]

theorem linesOf_append {body : List Char} (h : '\n' ∉ body) (chars : List Char) :
    linesOf (body ++ '\n' :: chars) = (body ++ ['\n']) :: linesOf chars := by
  induction body with
  | nil => rw [List.nil_append, linesOf, if_pos rfl, List.nil_append]
  | cons c rest ih =>
    simp only [List.mem_cons, not_or] at h
    rw [List.cons_append, linesOf, if_neg (Ne.symm h.1), ih h.2]
    rfl

theorem hasLines_linesOf (chars : List Char) : HasLines chars (linesOf chars) := by
  induction chars with
  | nil => exact .nil
  | cons c rest ih =>
    by_cases hc : c = '\n'
    · -- The line feed is a line of its own.
      subst hc
      simpa [linesOf] using @HasLines.cons [] rest _ (by simp) ih
    · -- Any other character goes to the first line of what follows it.
      rw [linesOf, if_neg hc]
      generalize linesOf rest = lines at ih
      cases ih with
      | nil => exact .last (by simp) (by simpa using Ne.symm hc)
      | last hne hbody => exact .last (by simp) (by simp [Ne.symm hc, hbody])
      | @cons body chars lines hbody hlines =>
        have hbody' : '\n' ∉ c :: body := by simp [Ne.symm hc, hbody]
        exact .cons hbody' hlines

/-- A text has the lines that it is cut into, and no others. -/
theorem hasLines_iff {chars : List Char} {lines : List (List Char)} :
    HasLines chars lines ↔ lines = linesOf chars := by
  constructor
  · intro h
    induction h with
    | nil => rfl
    | last hne hbody => exact (linesOf_of_last hne hbody).symm
    | cons hbody _ ih => rw [linesOf_append hbody, ih]
  · intro h
    subst h
    exact hasLines_linesOf chars

/-! ## Separators -/

/-- White space only. -/
def IsGap (chars : List Char) : Prop := ∀ c ∈ chars, Text.isSpace c = true

/-- What may stand behind the word of a separator, with the gap between them: nothing, a semicolon, a
comment, or a count that a gap parts from the word. -/
inductive SeparatorTail : List Char → List Char → Prop where
  | none {gap : List Char} : SeparatorTail gap []
  | semicolon {gap : List Char} : SeparatorTail gap [';']
  | comment {gap text : List Char} : SeparatorTail gap ('-' :: '-' :: text)
  | count {gap digits : List Char} :
      gap ≠ [] → (∀ c ∈ digits, c.isDigit = true) → SeparatorTail gap digits

/-- A line with the word `GO` and what may stand behind it. -/
inductive SeparatorLine : List Char → Prop where
  | intro {lead gap tail trail : List Char} {g o : Char} :
      IsGap lead → g ∈ ['g', 'G'] → o ∈ ['o', 'O'] → IsGap gap → SeparatorTail gap tail →
      IsGap trail → SeparatorLine (lead ++ g :: o :: (gap ++ tail ++ trail))

theorem isSpace_eq_false_of_isDigit {c : Char} (h : c.isDigit = true) : Text.isSpace c = false := by
  have hcode := Text.toNat_of_isDigit h
  exact Sql.not_isSpace_of_ascii (by omega) (by omega)

/-- A character that stays keeps all that stands before it. -/
theorem rdropWhile_append_cons {p : Char → Bool} {c : Char} (hc : p c = false)
    (before after : List Char) :
    (before ++ c :: after).rdropWhile p = before ++ c :: after.rdropWhile p := by
  unfold List.rdropWhile
  rw [List.reverse_append, List.reverse_cons, List.append_assoc, List.dropWhile_append]
  split
  · rename_i hnone
    rw [List.isEmpty_iff.mp hnone]
    simp [hc]
  · simp

/-- A line is trimmed to its word and what stands behind it. -/
theorem trimBoth_separator {lead gap tail trail : List Char} {g o : Char} (hlead : IsGap lead)
    (hg : Text.isSpace g = false) (ho : Text.isSpace o = false) (htrail : IsGap trail) :
    Text.trimBoth Text.isSpace (lead ++ g :: o :: (gap ++ tail ++ trail)) =
      g :: o :: (gap ++ tail).rdropWhile Text.isSpace := by
  show ((lead ++ g :: o :: (gap ++ tail ++ trail)).dropWhile Text.isSpace).rdropWhile _ = _
  rw [List.dropWhile_append_of_pos hlead, List.dropWhile_cons_of_neg (by simp [hg]),
    ← List.cons_append, ← List.cons_append, Sql.rdropWhile_append_of_pos htrail]
  exact rdropWhile_append_cons ho [g] (gap ++ tail)

theorem dropWhile_gap {gap tail : List Char} (hgap : IsGap gap)
    (htail : ∀ c ∈ tail.head?, Text.isSpace c = false) :
    (gap ++ tail).dropWhile Text.isSpace = tail := by
  rw [List.dropWhile_append_of_pos hgap]
  cases tail with
  | nil => rfl
  | cons c rest => exact List.dropWhile_cons_of_neg (by simp [htail c rfl])

theorem endsSeparator_of_tail {gap tail : List Char} (hgap : IsGap gap)
    (h : SeparatorTail gap tail) : endsSeparator ((gap ++ tail).rdropWhile Text.isSpace) = true := by
  have hnone : endsSeparator ((gap ++ []).rdropWhile Text.isSpace) = true := by
    rw [← List.nil_append gap, List.append_nil, Sql.rdropWhile_append_of_pos hgap]
    rfl
  cases h with
  | none => exact hnone
  | semicolon =>
    have hstays : (gap ++ [';']).rdropWhile Text.isSpace = gap ++ [';'] :=
      rdropWhile_append_cons (by decide) gap []
    have hsemicolon : ∀ c ∈ [';'].head?, Text.isSpace c = false := by
      rintro _ ⟨⟩
      decide
    simp [endsSeparator, hstays, dropWhile_gap hgap hsemicolon]
  | @comment text =>
    have hstays : (gap ++ '-' :: '-' :: text).rdropWhile Text.isSpace =
        gap ++ '-' :: '-' :: text.rdropWhile Text.isSpace := by
      rw [rdropWhile_append_cons (by decide)]
      congr 2
      exact rdropWhile_append_cons (by decide) [] text
    have hdash : ∀ c ∈ ('-' :: '-' :: text.rdropWhile Text.isSpace).head?,
        Text.isSpace c = false := by
      rintro _ ⟨⟩
      decide
    simp [endsSeparator, hstays, dropWhile_gap hgap hdash]
  | count hne hdigits =>
    cases hlast : tail.getLast? with
    | none =>
      rw [List.getLast?_eq_none_iff.mp hlast]
      exact hnone
    | some d =>
      -- A digit at the end is no white space, so nothing is taken off.
      have hclear : ∀ c ∈ tail, Text.isSpace c = false := fun c hc =>
        isSpace_eq_false_of_isDigit (hdigits c hc)
      have hstays : (gap ++ tail).rdropWhile Text.isSpace = gap ++ tail := by
        apply Sql.rdropWhile_of_getLast?
        intro c hc
        rw [List.getLast?_append, hlast] at hc
        obtain rfl : d = c := by simpa using hc
        exact hclear d (List.mem_of_getLast? hlast)
      have hdrop := dropWhile_gap hgap fun c hc => hclear c (List.mem_of_mem_head? hc)
      have hall : tail.all Char.isDigit = true := List.all_eq_true.mpr hdigits
      obtain ⟨b, more, rfl⟩ := List.exists_cons_of_ne_nil hne
      have hb : Text.isSpace b = true := hgap b List.mem_cons_self
      rw [hstays, endsSeparator, hdrop]
      simp [hb, hall]

theorem exists_tail_of_endsSeparator {after : List Char} (h : endsSeparator after = true) :
    ∃ gap tail, after = gap ++ tail ∧ IsGap gap ∧ SeparatorTail gap tail := by
  refine ⟨after.takeWhile Text.isSpace, after.dropWhile Text.isSpace,
    List.takeWhile_append_dropWhile.symm, fun c hc => List.mem_takeWhile_imp hc, ?_⟩
  simp only [endsSeparator, Bool.or_eq_true, Bool.and_eq_true, beq_iff_eq] at h
  rcases h with ((hnone | hsemicolon) | hcomment) | ⟨hblank, hcount⟩
  · rw [hnone]
    exact .none
  · rw [hsemicolon]
    exact .semicolon
  · obtain ⟨text, htext⟩ := List.isPrefixOf_iff_prefix.mp hcomment
    rw [← htext]
    exact .comment
  · refine .count ?_ (List.all_eq_true.mp hcount)
    -- The count stands behind at least one blank.
    cases after with
    | nil => cases hblank
    | cons c rest =>
      have hc : Text.isSpace c = true := hblank
      simp [List.takeWhile_cons_of_pos hc]

theorem toLower_beq_iff {c small large : Char}
    (hsmall : 97 ≤ small.toNat ∧ small.toNat ≤ 122) (hlarge : small.toNat = large.toNat + 32) :
    (c.toLower == small) = true ↔ c ∈ [small, large] := by
  rw [beq_iff_eq, List.mem_pair, ← Char.toNat_inj, ← Char.toNat_inj, ← Char.toNat_inj,
    Text.toNat_toLower]
  split <;> omega

/-- A line is taken for a separator exactly if it is one. -/
theorem isSeparator_iff {line : List Char} : isSeparator line = true ↔ SeparatorLine line := by
  have hg {c : Char} : (c.toLower == 'g') = true ↔ c ∈ ['g', 'G'] :=
    toLower_beq_iff (by decide) (by decide)
  have ho {c : Char} : (c.toLower == 'o') = true ↔ c ∈ ['o', 'O'] :=
    toLower_beq_iff (by decide) (by decide)
  constructor
  · intro h
    obtain ⟨lead, trail, hline, hlead, htrail⟩ := exists_ends_of_trim (String.ofList line)
    rw [String.toList_ofList, Text.trim, Text.trimWhere, String.toList_ofList,
      String.toList_ofList] at hline
    unfold isSeparator at h
    split at h
    · rename_i first second after htrimmed
      simp only [Bool.and_eq_true] at h
      obtain ⟨gap, tail, rfl, hgap, htail⟩ := exists_tail_of_endsSeparator h.2
      have hshape : line = lead ++ first :: second :: (gap ++ tail ++ trail) := by
        rw [hline, htrimmed]
        simp
      rw [hshape]
      exact .intro hlead (hg.mp h.1.1) (ho.mp h.1.2) hgap htail htrail
    · cases h
  · intro h
    obtain @⟨lead, gap, tail, trail, g, o, hlead, hg', ho', hgap, htail, htrail⟩ := h
    have hvisible : Text.isSpace g = false ∧ Text.isSpace o = false := by
      revert hg' ho'
      simp only [List.mem_pair]
      rintro (rfl | rfl) (rfl | rfl) <;> decide
    unfold isSeparator
    rw [trimBoth_separator hlead hvisible.1 hvisible.2 htrail]
    simp only [Bool.and_eq_true]
    exact ⟨⟨hg.mpr hg', ho.mpr ho'⟩, endsSeparator_of_tail hgap htail⟩

/-! ## Stretches -/

/-- A stretch of a script: lines in a row, or a separator. -/
inductive Stretch where
  | run (lines : List (List Char))
  | separator (line : List Char)

namespace Stretch

/-- The lines of a stretch. -/
def lines : Stretch → List (List Char)
  | run lines => lines
  | separator line => [line]

/-- The text of a stretch, with its line ends. -/
def text (stretch : Stretch) : String := String.ofList stretch.lines.flatten

/-- Whether a stretch is a separator. -/
def isSeparator : Stretch → Bool
  | run _ => false
  | separator _ => true

end Stretch

/-- Stretches in which runs and separators take turns: a run has lines, none of which is a separator,
and of two neighbours one is a separator. -/
structure TakeTurns (stretches : List Stretch) : Prop where
  runs : ∀ lines, .run lines ∈ stretches → lines ≠ [] ∧ ∀ line ∈ lines, ¬ SeparatorLine line
  separators : ∀ line, .separator line ∈ stretches → SeparatorLine line
  maximal : stretches.IsChain fun one next => one.isSeparator = true ∨ next.isSeparator = true

/-- A script seen as stretches that put together are its lines. -/
structure Partitions (script : String) (stretches : List Stretch) : Prop where
  lines : HasLines script.toList (stretches.flatMap Stretch.lines)
  turns : TakeTurns stretches

/-- The runs among stretches as batches. A batch has the number of its first line, and `before` lines
stand before the stretches. -/
def batchesAmong (before : Nat) : List Stretch → List Batch
  | [] => []
  | stretch :: rest =>
    match stretch with
    | .run lines => ⟨stretch.text, before + 1⟩ :: batchesAmong (before + lines.length) rest
    | .separator _ => batchesAmong (before + 1) rest

/-- Lines in front of stretches, as a run of their own or with the run that stands first. -/
def prependRun (lines : List (List Char)) : List Stretch → List Stretch
  | .run more :: rest => .run (lines ++ more) :: rest
  | stretches => if lines.isEmpty then stretches else .run lines :: stretches

/-- The stretches that lines form. -/
def stretchesOf : List (List Char) → List Stretch
  | [] => []
  | line :: rest =>
    if isSeparator line then .separator line :: stretchesOf rest
    else prependRun [line] (stretchesOf rest)

section Stretches

variable {lines more : List (List Char)} {stretches : List Stretch} {before : Nat}

theorem prependRun_nil (stretches : List Stretch) : prependRun [] stretches = stretches := by
  cases stretches with
  | nil => rfl
  | cons stretch rest => cases stretch <;> rfl

theorem prependRun_append (lines more : List (List Char)) (stretches : List Stretch) :
    prependRun lines (prependRun more stretches) = prependRun (lines ++ more) stretches := by
  cases more with
  | nil => rw [prependRun_nil, List.append_nil]
  | cons line more =>
    cases stretches with
    | nil => simp [prependRun]
    | cons stretch rest => cases stretch <;> simp [prependRun]

theorem flatMap_lines_prependRun (lines : List (List Char)) (stretches : List Stretch) :
    (prependRun lines stretches).flatMap Stretch.lines = lines ++ stretches.flatMap Stretch.lines := by
  cases lines with
  | nil => rw [prependRun_nil, List.nil_append]
  | cons line lines =>
    cases stretches with
    | nil => simp [prependRun, Stretch.lines]
    | cons stretch rest => cases stretch <;> simp [prependRun, Stretch.lines]

/-- Lines in front are a run of their own where no run stands first. -/
theorem prependRun_of_separator (hne : lines ≠ [])
    (h : ∀ stretch ∈ stretches.head?, stretch.isSeparator = true) :
    prependRun lines stretches = .run lines :: stretches := by
  have hnone : lines.isEmpty = false := by simpa using hne
  cases stretches with
  | nil => simp [prependRun, hne]
  | cons stretch rest =>
    cases stretch with
    | run more => exact absurd (h _ rfl) Bool.false_ne_true
    | separator line => simp [prependRun, hne]

/-- The batches that are found line by line are those among the stretches. -/
theorem batchesOfLines_eq (before : Nat) (read lines : List (List Char)) :
    batchesOfLines (before + 1) (before + read.length + 1) read lines =
      batchesAmong before (prependRun read.reverse (stretchesOf lines)) := by
  -- What has been read since the last separator is a batch of its own in front of another one.
  have hread (before : Nat) (read : List (List Char)) (rest : List Stretch)
      (hrest : ∀ stretch ∈ rest.head?, stretch.isSeparator = true) :
      batchesAmong before (prependRun read.reverse rest) =
        batchOf (before + 1) read ++ batchesAmong (before + read.length) rest := by
    cases read with
    | nil => rw [List.reverse_nil, prependRun_nil]; rfl
    | cons line read =>
      rw [prependRun_of_separator (by simp) hrest]
      simp [batchesAmong, batchOf, Stretch.text, Stretch.lines]
  induction lines generalizing before read with
  | nil =>
    rw [stretchesOf, hread before read [] (by simp), batchesOfLines]
    simp [batchesAmong]
  | cons next rest ih =>
    rw [batchesOfLines, stretchesOf]
    cases hnext : isSeparator next with
    | true =>
      have htail := ih (before + read.length + 1) []
      rw [List.reverse_nil, prependRun_nil] at htail
      rw [if_pos rfl, if_pos rfl, hread before read _ (by simp [Stretch.isSeparator])]
      exact congrArg _ htail
    | false =>
      rw [if_neg nofun, if_neg nofun, prependRun_append, ← List.reverse_cons]
      exact ih before (next :: read)

theorem flatMap_lines_stretchesOf (lines : List (List Char)) :
    (stretchesOf lines).flatMap Stretch.lines = lines := by
  induction lines with
  | nil => rfl
  | cons line rest ih =>
    unfold stretchesOf
    split
    · rw [List.flatMap_cons, ih]; rfl
    · rw [flatMap_lines_prependRun, ih]; rfl

theorem TakeTurns.tail {stretch : Stretch} (h : TakeTurns (stretch :: stretches)) :
    TakeTurns stretches where
  runs lines hlines := h.runs lines (List.mem_cons_of_mem _ hlines)
  separators line hline := h.separators line (List.mem_cons_of_mem _ hline)
  maximal := h.maximal.tail

theorem TakeTurns.cons_separator {line : List Char} (h : TakeTurns stretches)
    (hline : SeparatorLine line) : TakeTurns (.separator line :: stretches) where
  runs lines hlines := by
    rcases List.mem_cons.mp hlines with heq | hrest
    · cases heq
    · exact h.runs lines hrest
  separators other hother := by
    rcases List.mem_cons.mp hother with heq | hrest
    · rwa [Stretch.separator.inj heq]
    · exact h.separators other hrest
  maximal := List.isChain_cons.mpr ⟨fun _ _ => .inl rfl, h.maximal⟩

/-- A run stands in front of a separator, or at the end. -/
theorem TakeTurns.cons_run (h : TakeTurns stretches) (hne : lines ≠ [])
    (hlines : ∀ line ∈ lines, ¬ SeparatorLine line)
    (hnext : ∀ next ∈ stretches.head?, next.isSeparator = true) :
    TakeTurns (.run lines :: stretches) where
  runs more hmore := by
    rcases List.mem_cons.mp hmore with heq | hrest
    · rw [Stretch.run.inj heq]
      exact ⟨hne, hlines⟩
    · exact h.runs more hrest
  separators line hline := by
    rcases List.mem_cons.mp hline with heq | hrest
    · cases heq
    · exact h.separators line hrest
  maximal := List.isChain_cons.mpr ⟨fun next hmem => .inr (hnext next hmem), h.maximal⟩

/-- No run follows a run. -/
theorem TakeTurns.next_of_run (h : TakeTurns (.run lines :: stretches)) :
    ∀ next ∈ stretches.head?, next.isSeparator = true := by
  intro next hnext
  exact ((List.isChain_cons.mp h.maximal).1 next hnext).resolve_left Bool.false_ne_true

/-- A line in front belongs to the run behind it, if there is one. -/
theorem TakeTurns.prependRun {line : List Char} (h : TakeTurns stretches)
    (hline : ¬ SeparatorLine line) : TakeTurns (prependRun [line] stretches) := by
  have hone : ∀ other ∈ [line], ¬ SeparatorLine other := List.forall_mem_singleton.mpr hline
  cases stretches with
  | nil => exact h.cons_run (List.cons_ne_nil _ _) hone nofun
  | cons stretch rest =>
    cases stretch with
    | run more =>
      have hmore := (h.runs more List.mem_cons_self).2
      exact h.tail.cons_run (List.cons_ne_nil _ _) (List.forall_mem_cons.mpr ⟨hline, hmore⟩)
        h.next_of_run
    | separator other =>
      apply h.cons_run (List.cons_ne_nil _ _) hone
      rintro _ ⟨⟩
      rfl

theorem takeTurns_stretchesOf (lines : List (List Char)) : TakeTurns (stretchesOf lines) := by
  induction lines with
  | nil => exact ⟨by simp [stretchesOf], by simp [stretchesOf], .nil⟩
  | cons line rest ih =>
    unfold stretchesOf
    split
    · rename_i hline
      exact ih.cons_separator (isSeparator_iff.mp hline)
    · rename_i hline
      exact ih.prependRun (mt isSeparator_iff.mpr hline)

/-- Lines in front that are no separators are read as a run. -/
theorem stretchesOf_append (h : ∀ line ∈ lines, ¬ SeparatorLine line) (more : List (List Char)) :
    stretchesOf (lines ++ more) = prependRun lines (stretchesOf more) := by
  induction lines with
  | nil => rw [prependRun_nil, List.nil_append]
  | cons line rest ih =>
    rw [List.forall_mem_cons] at h
    rw [List.cons_append, stretchesOf, if_neg (mt isSeparator_iff.mp h.1), ih h.2,
      prependRun_append, List.singleton_append]

/-- Stretches that take turns are told from their lines. -/
theorem TakeTurns.stretchesOf_eq (h : TakeTurns stretches) :
    stretchesOf (stretches.flatMap Stretch.lines) = stretches := by
  induction stretches with
  | nil => rfl
  | cons stretch rest ih =>
    rw [List.flatMap_cons]
    cases stretch with
    | separator line =>
      have hline := isSeparator_iff.mpr (h.separators line List.mem_cons_self)
      show stretchesOf (line :: rest.flatMap Stretch.lines) = _
      rw [stretchesOf, if_pos hline, ih h.tail]
    | run lines =>
      obtain ⟨hne, hlines⟩ := h.runs lines List.mem_cons_self
      show stretchesOf (lines ++ rest.flatMap Stretch.lines) = _
      rw [stretchesOf_append hlines, ih h.tail]
      exact prependRun_of_separator hne h.next_of_run

theorem partitions_iff {script : String} :
    Partitions script stretches ↔ stretches = stretchesOf (linesOf script.toList) := by
  constructor
  · rintro ⟨hlines, hturns⟩
    rw [← hasLines_iff.mp hlines, hturns.stretchesOf_eq]
  · rintro rfl
    refine ⟨?_, takeTurns_stretchesOf _⟩
    rw [flatMap_lines_stretchesOf]
    exact hasLines_linesOf _

end Stretches

/-! ## Places in the script -/

theorem toList_join_text (stretches : List Stretch) :
    (String.join (stretches.map Stretch.text)).toList =
      (stretches.flatMap Stretch.lines).flatten := by
  rw [String.toList_join, List.flatMap_map, ← List.flatMap_id, List.flatMap_assoc]
  exact List.flatMap_congr fun stretch _ => by simp [Stretch.text]

/-- A text is cut out of a longer one between two of its places. -/
theorem exists_places (before text after : String) :
    ∃ first last : (before ++ text ++ after).Pos,
      first.Splits before (text ++ after) ∧ last.Splits (before ++ text) after ∧
        (before ++ text ++ after).extract first last = text := by
  have hfirst : before.rawEndPos.IsValid (before ++ text ++ after) :=
    String.Pos.Raw.isValid_iff_exists_append.mpr
      ⟨before, text ++ after, by rw [String.append_assoc], rfl⟩
  have hlast : (before ++ text).rawEndPos.IsValid (before ++ text ++ after) :=
    String.Pos.Raw.isValid_iff_exists_append.mpr ⟨before ++ text, after, rfl, rfl⟩
  refine ⟨⟨_, hfirst⟩, ⟨_, hlast⟩, ⟨by rw [String.append_assoc], rfl⟩, ⟨rfl, rfl⟩, ?_⟩
  have hbytes : (before.toByteArray ++ (text.toByteArray ++ after.toByteArray)).extract
      (before.toByteArray.size + 0) (before.toByteArray.size + text.toByteArray.size) =
        text.toByteArray := by
    rw [ByteArray.extract_append_size_add, ByteArray.extract_append_eq_left rfl]
  rw [← String.toByteArray_inj, String.toByteArray_extract]
  simpa [ByteArray.append_assoc] using hbytes

/-- The batches of a script are the runs of lines between its separators. The script can be seen as
such runs and separators in one way only, and each batch is cut out between two places of it, with
its line ends and with the number of its first line. -/
theorem split_partitions (script : String) :
    ∃ stretches, Partitions script stretches ∧
      (∀ others, Partitions script others → others = stretches) ∧
      Batch.split script = batchesAmong 0 stretches ∧
      String.join (stretches.map Stretch.text) = script ∧
      ∀ before stretch after, stretches = before ++ stretch :: after →
        ∃ first last : script.Pos,
          first.Splits (String.join (before.map Stretch.text))
            (stretch.text ++ String.join (after.map Stretch.text)) ∧
          last.Splits (String.join (before.map Stretch.text) ++ stretch.text)
            (String.join (after.map Stretch.text)) ∧
          script.extract first last = stretch.text := by
  have hjoin : String.join ((stretchesOf (linesOf script.toList)).map Stretch.text) = script := by
    rw [← String.toList_inj, toList_join_text, flatMap_lines_stretchesOf, flatten_linesOf]
  refine ⟨stretchesOf (linesOf script.toList), partitions_iff.mpr rfl,
    fun _ => partitions_iff.mp, ?_, hjoin, ?_⟩
  · have hbatches := batchesOfLines_eq 0 [] (linesOf script.toList)
    rwa [List.reverse_nil, prependRun_nil] at hbatches
  · intro before stretch after hstretches
    rw [hstretches, List.map_append, List.map_cons, String.join_append, String.join_cons,
      ← String.append_assoc] at hjoin
    subst hjoin
    exact exists_places _ _ _

end SchemaPlan
