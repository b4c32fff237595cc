import Mathlib.Data.List.TakeWhile
import SchemaPlan.Proofs.Text.Outline
import SchemaPlan.Resolve.Scope

/-!
# Names that are read from their text

The columns that an alias lists and the qualifier of a star are not taken from the names themselves
but from their text: the first word of it, or what stands behind its last period, without blanks,
brackets and double quotes at the ends. What is read is the value of the name exactly if the value
has no white space (no period, for a star), has no bracket or double quote at an end, and gets no
double quotes doubled when it is written. A name in single quotes is never read back, as these are
not taken off.

* `aliasColumnName_eq_iff`: columns of an alias.
* `starName_eq_iff`: qualifiers of stars.
-/

namespace SchemaPlan

/-! ## Trimming and cutting -/

namespace Text

section Trim

variable {p : Char → Bool} {chars : List Char}

/-- No character at an end satisfies `p`. -/
structure EndsClear (p : Char → Bool) (chars : List Char) : Prop where
  front : ∀ c ∈ chars.head?, p c = false
  back : ∀ c ∈ chars.getLast?, p c = false

theorem dropWhile_eq_self (h : ∀ c ∈ chars.head?, p c = false) : chars.dropWhile p = chars := by
  cases chars with
  | nil => rfl
  | cons c rest => rw [List.dropWhile_cons, if_neg (by rw [h c rfl]; exact Bool.false_ne_true)]

theorem trimBoth_of_endsClear (h : EndsClear p chars) : trimBoth p chars = chars := by
  unfold trimBoth
  rw [dropWhile_eq_self h.front, dropWhile_eq_self, List.reverse_reverse]
  rw [List.head?_reverse]
  exact h.back

theorem head?_dropWhile_eq_false {c : Char} (h : c ∈ (chars.dropWhile p).head?) : p c = false := by
  have hnot := List.head?_dropWhile_not p chars
  rw [Option.mem_def.mp h] at hnot
  simpa using hnot

theorem endsClear_trimBoth : EndsClear p (trimBoth p chars) := by
  refine ⟨fun c hc => ?_, fun c hc => ?_⟩
  · -- What is dropped at the back leaves the front as it is.
    obtain ⟨dropped, hdropped⟩ := List.dropWhile_suffix p (l := (chars.dropWhile p).reverse)
    have hfront : chars.dropWhile p = trimBoth p chars ++ dropped.reverse := by
      rw [trimBoth, ← List.reverse_append, hdropped, List.reverse_reverse]
    have hhead : c ∈ (chars.dropWhile p).head? := by
      rw [hfront, List.head?_append, Option.mem_def.mp hc]
      rfl
    exact head?_dropWhile_eq_false hhead
  · rw [trimBoth, List.getLast?_reverse] at hc
    exact head?_dropWhile_eq_false hc

theorem trimBoth_eq_self_iff : trimBoth p chars = chars ↔ EndsClear p chars :=
  ⟨fun h => h ▸ endsClear_trimBoth, trimBoth_of_endsClear⟩

theorem trimBoth_sublist (p : Char → Bool) (chars : List Char) :
    (trimBoth p chars).Sublist chars := by
  have hback := List.dropWhile_sublist p (l := (chars.dropWhile p).reverse)
  have hfront := List.dropWhile_sublist p (l := chars)
  rw [trimBoth, ← List.reverse_reverse chars, List.reverse_sublist, List.reverse_reverse]
  exact hback.trans hfront.reverse

/-- Characters that are taken off both ends do not matter. -/
theorem trimBoth_between {a b : Char} (ha : p a = true) (hb : p b = true) :
    trimBoth p (a :: chars ++ [b]) = trimBoth p chars := by
  have hfront : (a :: chars ++ [b]).dropWhile p = (chars ++ [b]).dropWhile p := by
    rw [List.cons_append, List.dropWhile_cons, if_pos ha]
  unfold trimBoth
  rw [hfront, List.dropWhile_append]
  split
  · rename_i hempty
    rw [List.isEmpty_iff] at hempty
    rw [hempty, List.dropWhile_cons, if_pos hb]
    rfl
  · rw [List.reverse_append, List.reverse_singleton, List.singleton_append, List.dropWhile_cons,
      if_pos hb]

end Trim

section Cuts

variable {cut : Char → Bool} {chars : List Char}

theorem splitList_ne_nil (cut : Char → Bool) (chars : List Char) : splitList cut chars ≠ [] := by
  cases chars with
  | nil => exact List.cons_ne_nil _ _
  | cons c rest =>
    unfold splitList
    split
    · exact List.cons_ne_nil _ _
    · split <;> exact List.cons_ne_nil _ _

theorem splitList_of_no_cut (h : ∀ c ∈ chars, cut c = false) : splitList cut chars = [chars] := by
  induction chars with
  | nil => rfl
  | cons c rest ih =>
    obtain ⟨hc, hrest⟩ := List.forall_mem_cons.mp h
    rw [splitList, ih hrest, hc]
    rfl

/-- Two texts with a cut between them are cut apart from each other. -/
theorem splitList_append_cons {c : Char} (hc : cut c = true) (before after : List Char) :
    splitList cut (before ++ c :: after) = splitList cut before ++ splitList cut after := by
  induction before with
  | nil =>
    have hcut : splitList cut (c :: after) = [] :: splitList cut after := by
      rw [splitList, if_pos hc]
    exact hcut
  | cons d rest ih =>
    rw [List.cons_append, splitList, splitList, ih]
    split
    · rfl
    · obtain ⟨part, parts, hparts⟩ := List.exists_cons_of_ne_nil (splitList_ne_nil cut rest)
      rw [hparts]
      rfl

/-- No part has a character at which the text is cut. -/
theorem no_cut_of_mem_splitList {part : List Char} (h : part ∈ splitList cut chars) :
    ∀ c ∈ part, cut c = false := by
  induction chars generalizing part with
  | nil =>
    obtain rfl := List.mem_singleton.mp h
    exact List.forall_mem_nil _
  | cons d rest ih =>
    unfold splitList at h
    split at h
    · rcases List.mem_cons.mp h with rfl | h
      · exact List.forall_mem_nil _
      · exact ih h
    · rename_i hd
      have hd := Bool.eq_false_iff.mpr hd
      split at h
      · rename_i first parts hparts
        rw [hparts] at ih
        -- The character is put in front of the first part, and is none that cuts.
        rcases List.mem_cons.mp h with rfl | h
        · exact List.forall_mem_cons.mpr ⟨hd, ih List.mem_cons_self⟩
        · exact ih (List.mem_cons_of_mem _ h)
      · obtain rfl := List.mem_singleton.mp h
        exact List.forall_mem_cons.mpr ⟨hd, List.forall_mem_nil _⟩

/-- A character at which the text is not cut stands in one of the parts. -/
theorem exists_part_of_mem {c : Char} (hc : cut c = false) (h : c ∈ chars) :
    ∃ part ∈ splitList cut chars, c ∈ part := by
  induction chars with
  | nil => cases h
  | cons d rest ih =>
    obtain ⟨first, parts, hparts⟩ := List.exists_cons_of_ne_nil (splitList_ne_nil cut rest)
    rw [hparts] at ih
    rw [splitList, hparts]
    rcases List.mem_cons.mp h with rfl | h
    · rw [if_neg (by rw [hc]; exact Bool.false_ne_true)]
      exact ⟨_, List.mem_cons_self, List.mem_cons_self⟩
    · obtain ⟨part, hpart, hmem⟩ := ih h
      split
      · exact ⟨part, List.mem_cons_of_mem _ hpart, hmem⟩
      · rcases List.mem_cons.mp hpart with rfl | hpart
        · exact ⟨_, List.mem_cons_self, List.mem_cons_of_mem _ hmem⟩
        · exact ⟨part, List.mem_cons_of_mem _ hpart, hmem⟩

end Cuts

/-- The first of the words of a text, or the text if it has none. -/
def firstWord (text : String) : String := (words text).headD text

theorem firstWord_of_no_space {text : String} (hne : text ≠ "")
    (h : ∀ c ∈ text.toList, isSpace c = false) : firstWord text = text := by
  rw [firstWord, words, splitWhere, splitList_of_no_cut h, List.map_singleton, String.ofList_toList,
    List.filter_singleton, decide_eq_true hne]
  rfl

/-- What follows a word behind a blank does not matter for it. -/
theorem firstWord_append {text : String} (hne : text ≠ "")
    (h : ∀ c ∈ text.toList, isSpace c = false) (more : String) :
    firstWord (text ++ " " ++ more) = text := by
  have hchars : (text ++ " " ++ more).toList = text.toList ++ ' ' :: more.toList := by
    rw [String.toList_append, String.toList_append, List.append_assoc]
    rfl
  rw [firstWord, words, splitWhere, hchars, splitList_append_cons (by decide), splitList_of_no_cut h,
    List.singleton_append, List.map_cons, String.ofList_toList,
    List.filter_cons_of_pos (by simpa using hne)]
  rfl

/-- A word has no white space, and a text without words has nothing else. -/
theorem firstWord_spaces (text : String) :
    (∀ c ∈ (firstWord text).toList, isSpace c = false) ∨
      firstWord text = text ∧ ∀ c ∈ text.toList, isSpace c = true := by
  unfold firstWord
  cases hwords : words text with
  | cons word more =>
    have hmem : word ∈ words text := by
      rw [hwords]
      exact List.mem_cons_self
    obtain ⟨part, hpart, rfl⟩ := List.mem_map.mp (List.mem_of_mem_filter hmem)
    refine Or.inl fun c hc => no_cut_of_mem_splitList hpart c ?_
    rwa [List.headD_cons, String.toList_ofList] at hc
  | nil =>
    refine Or.inr ⟨rfl, fun c hc => ?_⟩
    -- A character that is no space is part of some word, but there is none.
    by_contra hspace
    obtain ⟨part, hpart, hmem⟩ := exists_part_of_mem (Bool.eq_false_iff.mpr hspace) hc
    have hword : String.ofList part ∈ words text := by
      refine List.mem_filter.mpr ⟨List.mem_map_of_mem hpart, decide_eq_true fun hempty => ?_⟩
      rw [← String.toList_inj, String.toList_ofList] at hempty
      rw [hempty] at hmem
      cases hmem
    rw [hwords] at hword
    cases hword

end Text

/-! ## Last segments -/

section LastSegment

open SchemaPlan.Text

theorem toList_lastSegment (name : String) :
    (lastSegment name).toList = ((splitList (· == '.') name.toList).getLast?).getD [] := by
  unfold lastSegment splitWhere
  rw [List.getLast?_map]
  cases hlast : (splitList (· == '.') name.toList).getLast? with
  | none => exact absurd (List.getLast?_eq_none_iff.mp hlast) (splitList_ne_nil _ _)
  | some part => rw [Option.map_some, Option.getD_some, Option.getD_some, String.toList_ofList]

theorem dot_notMem_lastSegment (name : String) : '.' ∉ (lastSegment name).toList := by
  rw [toList_lastSegment]
  cases hlast : (splitList (· == '.') name.toList).getLast? with
  | none => exact List.not_mem_nil
  | some part =>
    intro hmem
    have hcut := no_cut_of_mem_splitList (List.mem_of_getLast? hlast) '.' hmem
    exact absurd hcut (by decide)

theorem forall_not_dot_iff (chars : List Char) :
    (∀ c ∈ chars, (c == '.') = false) ↔ '.' ∉ chars := by
  simp only [beq_eq_false_iff_ne]
  exact ⟨fun h hmem => h '.' hmem rfl, fun h c hc hdot => h (hdot ▸ hc)⟩

theorem lastSegment_eq_self {name : String} (h : '.' ∉ name.toList) : lastSegment name = name := by
  rw [← String.toList_inj, toList_lastSegment,
    splitList_of_no_cut ((forall_not_dot_iff name.toList).mpr h)]
  rfl

theorem lastSegment_append (before after : String) :
    lastSegment (before ++ "." ++ after) = lastSegment after := by
  have hchars : (before ++ "." ++ after).toList = before.toList ++ '.' :: after.toList := by
    rw [String.toList_append, String.toList_append, List.append_assoc]
    rfl
  rw [← String.toList_inj, toList_lastSegment, toList_lastSegment, hchars,
    splitList_append_cons (by decide), List.getLast?_append_of_ne_nil _ (splitList_ne_nil _ _)]

/-- The last segment of a dotted name is that of its last part. -/
theorem lastSegment_joinWith {texts : List String} {last : String}
    (h : texts.getLast? = some last) : lastSegment (joinWith "." texts) = lastSegment last := by
  induction texts with
  | nil => cases h
  | cons text rest ih =>
    cases rest with
    | nil =>
      obtain rfl := Option.some.inj h
      rfl
    | cons next more =>
      rw [List.getLast?_cons_cons] at h
      rw [joinWith, lastSegment_append, ih h]
      exact List.cons_ne_nil _ _

end LastSegment

/-! ## Written names -/

namespace Query

open SchemaPlan.Text SchemaPlan.Sql

section Escape

variable {quote : Char} {before : Char} {chars : List Char}

/-- Writing a name between quotes only repeats characters that stand in it. -/
structure Repeats (chars written : List Char) : Prop where
  front : written.head? = chars.head?
  back : written.getLast? = chars.getLast?
  mem : ∀ c, c ∈ written ↔ c ∈ chars
  length : chars.length ≤ written.length

theorem Repeats.refl (chars : List Char) : Repeats chars chars :=
  ⟨rfl, rfl, fun _ => Iff.rfl, Nat.le_refl _⟩

theorem Repeats.cons {written : List Char} {d : Char} (c : Char)
    (h : Repeats (d :: chars) written) : Repeats (c :: d :: chars) (c :: written) := by
  obtain ⟨e, more, rfl⟩ := List.exists_cons_of_ne_nil
    (List.ne_nil_of_length_pos (Nat.lt_of_lt_of_le (Nat.succ_pos _) h.length))
  refine ⟨rfl, ?_, fun e' => ?_, Nat.succ_le_succ h.length⟩
  · rw [List.getLast?_cons_cons, List.getLast?_cons_cons, h.back]
  · rw [List.mem_cons, List.mem_cons (l := d :: chars), h.mem]

theorem Repeats.double {written : List Char} {c : Char} (h : Repeats (c :: chars) (c :: written)) :
    Repeats (c :: chars) (c :: c :: written) := by
  refine ⟨rfl, ?_, fun e => ?_, Nat.le_succ_of_le h.length⟩
  · rw [List.getLast?_cons_cons, h.back]
  · rw [List.mem_cons, h.mem, List.mem_cons, ← or_assoc, or_self]

theorem repeats_escapeQuotes (quote before : Char) (chars : List Char) :
    Repeats chars (escapeQuotes quote before chars) := by
  induction before, chars using escapeQuotes.induct quote with
  | case1 => exact .refl _
  | case2 before c hc =>
    rw [escapeQuotes, if_pos hc]
    exact (Repeats.refl [c]).double
  | case3 before c hc =>
    rw [escapeQuotes, if_neg hc]
    exact .refl _
  | case4 d rest ih =>
    rw [escapeQuotes, if_pos rfl, if_pos rfl]
    exact ih.cons quote
  | case5 before rest hbefore ih =>
    -- The second of two quotes is written with the first one.
    rw [escapeQuotes, if_pos rfl, if_neg hbefore, if_pos rfl]
    cases rest with
    | nil => exact .refl _
    | cons d more => exact (ih.cons quote).cons quote
  | case6 before d rest hbefore hd ih =>
    rw [escapeQuotes, if_pos rfl, if_neg hbefore, if_neg hd]
    exact (ih.cons quote).double
  | case7 before c d rest hc ih =>
    rw [escapeQuotes, if_neg hc]
    exact ih.cons c

theorem Repeats.endsClear_iff {p : Char → Bool} {written : List Char} (h : Repeats chars written) :
    EndsClear p written ↔ EndsClear p chars := by
  constructor
  · rintro ⟨hfront, hback⟩
    exact ⟨h.front ▸ hfront, h.back ▸ hback⟩
  · rintro ⟨hfront, hback⟩
    exact ⟨h.front ▸ hfront, h.back ▸ hback⟩

end Escape

/-- A name as it can be written: unquoted and not empty, or between brackets, double quotes or
single quotes. -/
def Ident.IsSpelled (name : Ident) : Prop :=
  match name.quote with
  | none => name.value ≠ ""
  | some quote => quote = '[' ∨ quote = '"' ∨ quote = '\''

/-- What is left of the text of a name without the blanks, brackets and double quotes at its ends is
the value of the name. -/
def Ident.KeepsValue (name : Ident) : Prop :=
  EndsClear isQuote name.value.toList ∧
    match name.quote with
    | none => EndsClear isSpace name.value.toList
    | some '[' => True
    -- No double quote is doubled when the name is written.
    | some '"' => escapeQuotes '"' (Char.ofNat 0) name.value.toList = name.value.toList
    | some _ => False

theorem toList_unquote (text : String) :
    (unquote text).toList = trimBoth isQuote (trimBoth isSpace text.toList) := by
  simp only [unquote, trim, trimWhere, String.toList_ofList]
  rfl

theorem toList_quoted (quote : Char) (text : String) :
    (quoted quote text).toList =
      quote :: escapeQuotes quote (Char.ofNat 0) text.toList ++ [quote] := by
  simp [quoted]

/-- The characters of a written name: those of its value, some of them repeated, between quotes. -/
theorem toList_text {name : Ident} (h : name.IsSpelled) :
    (name.quote = none ∧ name.text.toList = name.value.toList ∧ name.value ≠ "") ∨
    (name.quote = some '[' ∧ name.text.toList = '[' :: name.value.toList ++ [']']) ∨
    ∃ quote, (quote = '"' ∨ quote = '\'') ∧ name.quote = some quote ∧ name.text.toList =
      quote :: escapeQuotes quote (Char.ofNat 0) name.value.toList ++ [quote] := by
  obtain ⟨value, quote⟩ := name
  cases quote with
  | none => exact Or.inl ⟨rfl, rfl, h⟩
  | some quote =>
    rcases h with rfl | rfl | rfl
    · refine Or.inr (Or.inl ⟨rfl, ?_⟩)
      simp [Ident.text]
    · exact Or.inr (Or.inr ⟨_, Or.inl rfl, rfl, toList_quoted _ _⟩)
    · exact Or.inr (Or.inr ⟨_, Or.inr rfl, rfl, toList_quoted _ _⟩)

/-- A class of characters without quotes is found in a name exactly if it is found in its text. -/
theorem forall_mem_text_iff {name : Ident} (h : name.IsSpelled) {p : Char → Bool}
    (hp : p '[' = false ∧ p ']' = false ∧ p '"' = false ∧ p '\'' = false) :
    (∀ c ∈ name.text.toList, p c = false) ↔ ∀ c ∈ name.value.toList, p c = false := by
  obtain ⟨hopen, hclose, hdouble, hsingle⟩ := hp
  rcases toList_text h with ⟨-, htext, -⟩ | ⟨-, htext⟩ | ⟨quote, hquote, -, htext⟩
  · rw [htext]
  · rw [htext]
    simp [or_imp, forall_and, hopen, hclose]
  · have hchars := (repeats_escapeQuotes quote (Char.ofNat 0) name.value.toList).mem
    rw [htext]
    rcases hquote with rfl | rfl
    · simp [or_imp, forall_and, hchars, hdouble]
    · simp [or_imp, forall_and, hchars, hsingle]

theorem text_ne_empty {name : Ident} (h : name.IsSpelled) : name.text ≠ "" := by
  intro hempty
  rw [← String.toList_inj] at hempty
  rcases toList_text h with ⟨-, htext, hne⟩ | ⟨-, htext⟩ | ⟨quote, -, -, htext⟩
  · rw [htext, String.toList_inj] at hempty
    exact hne hempty
  · rw [htext] at hempty
    cases hempty
  · rw [htext] at hempty
    cases hempty

/-- Quotes around a text keep the blanks within. -/
theorem trimBoth_isSpace_between {a b : Char} (ha : isSpace a = false) (hb : isSpace b = false)
    (chars : List Char) : trimBoth isSpace (a :: chars ++ [b]) = a :: chars ++ [b] := by
  refine trimBoth_of_endsClear ⟨fun c hc => ?_, fun c hc => ?_⟩
  · obtain rfl := Option.some.inj hc
    exact ha
  · rw [List.getLast?_append, List.getLast?_singleton, Option.some_or] at hc
    obtain rfl := Option.some.inj hc
    exact hb

theorem unquote_text_eq_iff {name : Ident} (h : name.IsSpelled) :
    unquote name.text = name.value ↔ name.KeepsValue := by
  rw [← String.toList_inj, toList_unquote]
  obtain ⟨value, quote⟩ := name
  unfold Ident.KeepsValue
  dsimp only
  generalize hchars : value.toList = chars
  rcases toList_text h with ⟨rfl, htext, -⟩ | ⟨rfl, htext⟩ | ⟨quote, hquote, rfl, htext⟩
  · rw [htext, hchars]
    constructor
    · intro hkeeps
      -- Neither step shortens the text, so neither takes anything off.
      have hlength := (trimBoth_sublist isQuote (trimBoth isSpace chars)).length_le
      rw [hkeeps] at hlength
      have hspace := (trimBoth_sublist isSpace chars).eq_of_length_le hlength
      rw [hspace] at hkeeps
      exact ⟨trimBoth_eq_self_iff.mp hkeeps, trimBoth_eq_self_iff.mp hspace⟩
    · rintro ⟨hquotes, hspaces⟩
      rw [trimBoth_of_endsClear hspaces, trimBoth_of_endsClear hquotes]
  · rw [htext, hchars, trimBoth_isSpace_between (by decide) (by decide),
      trimBoth_between (by decide) (by decide), trimBoth_eq_self_iff]
    exact (and_iff_left trivial).symm
  · rw [htext, hchars]
    have hrepeats := repeats_escapeQuotes quote (Char.ofNat 0) chars
    rcases hquote with rfl | rfl
    · rw [trimBoth_isSpace_between (by decide) (by decide),
        trimBoth_between (by decide) (by decide)]
      constructor
      · intro hkeeps
        have hends : EndsClear isQuote chars := by
          rw [← hkeeps]
          exact endsClear_trimBoth
        rw [trimBoth_of_endsClear (hrepeats.endsClear_iff.mpr hends)] at hkeeps
        exact ⟨hends, hkeeps⟩
      · rintro ⟨hends, hsame⟩
        have hsame : escapeQuotes '"' (Char.ofNat 0) chars = chars := hsame
        rw [hsame, trimBoth_of_endsClear hends]
    · -- Single quotes are not taken off, so the text is too long.
      rw [trimBoth_isSpace_between (by decide) (by decide), trimBoth_of_endsClear]
      · refine iff_of_false (fun hkeeps => ?_) fun hkeeps => hkeeps.2
        have hlength := congrArg List.length hkeeps
        have hle := hrepeats.length
        rw [List.length_append, List.length_cons] at hlength
        omega
      · refine ⟨fun c hc => ?_, fun c hc => ?_⟩
        · obtain rfl := Option.some.inj hc
          decide
        · rw [List.getLast?_append, List.getLast?_singleton, Option.some_or] at hc
          obtain rfl := Option.some.inj hc
          decide

/-! ## Columns of an alias and qualifiers of stars -/

theorem mem_of_mem_unquote {text : String} {c : Char} (h : c ∈ (unquote text).toList) :
    c ∈ (text.toList) := by
  rw [toList_unquote] at h
  exact (trimBoth_sublist _ _).mem ((trimBoth_sublist _ _).mem h)

theorem aliasColumnName_eq (column : AliasColumn) :
    aliasColumnName column = unquote (firstWord column.text) := rfl

/-- The first word of a column is the text of its name, if this has no white space. -/
theorem firstWord_text {column : AliasColumn} (h : column.name.IsSpelled)
    (hspace : ∀ c ∈ column.name.value.toList, isSpace c = false) :
    firstWord column.text = column.name.text := by
  have htext := (forall_mem_text_iff h (p := isSpace) (by decide)).mpr hspace
  unfold AliasColumn.text
  split
  · exact firstWord_append (text_ne_empty h) htext _
  · exact firstWord_of_no_space (text_ne_empty h) htext

/-- The name that is read for a column of an alias is its value exactly if this has no white space
and is kept by its quotes. -/
theorem aliasColumnName_eq_iff {column : AliasColumn} (h : column.name.IsSpelled) :
    aliasColumnName column = column.name.value ↔
      (∀ c ∈ column.name.value.toList, isSpace c = false) ∧ column.name.KeepsValue := by
  rw [aliasColumnName_eq]
  constructor
  · intro hname
    have hspace : ∀ c ∈ column.name.value.toList, isSpace c = false := by
      rw [← hname]
      intro c hc
      rcases firstWord_spaces column.text with hword | ⟨hword, hblank⟩
      · exact hword c (mem_of_mem_unquote hc)
      · -- Nothing is left of a text that is blank.
        rw [hword, toList_unquote] at hc
        have hempty : trimBoth isSpace column.text.toList = [] := by
          rw [trimBoth, List.dropWhile_eq_nil_iff.mpr hblank]
          rfl
        rw [hempty] at hc
        cases hc
    rw [firstWord_text h hspace] at hname
    exact ⟨hspace, (unquote_text_eq_iff h).mp hname⟩
  · rintro ⟨hspace, hkeeps⟩
    rw [firstWord_text h hspace]
    exact (unquote_text_eq_iff h).mpr hkeeps

/-- The qualifier that is read for a star. -/
def starName (qualifier : List Ident) : String := unquote (lastSegment (nameText qualifier))

/-- The qualifier that is read for a star is the value of the last part exactly if this has no
period and is kept by its quotes. -/
theorem starName_eq_iff {qualifier : List Ident} {last : Ident}
    (hlast : qualifier.getLast? = some last) (h : last.IsSpelled) :
    starName qualifier = last.value ↔ '.' ∉ last.value.toList ∧ last.KeepsValue := by
  have hsegment : starName qualifier = unquote (lastSegment last.text) := by
    rw [starName, nameText, lastSegment_joinWith (by rw [List.getLast?_map, hlast]; rfl)]
  have hdots : (∀ c ∈ last.text.toList, (c == '.') = false) ↔
      ∀ c ∈ last.value.toList, (c == '.') = false :=
    forall_mem_text_iff h (p := (· == '.')) (by decide)
  rw [forall_not_dot_iff, forall_not_dot_iff] at hdots
  rw [hsegment]
  constructor
  · intro hname
    have hdot : '.' ∉ last.value.toList := by
      rw [← hname]
      exact fun hmem => dot_notMem_lastSegment _ (mem_of_mem_unquote hmem)
    rw [lastSegment_eq_self (hdots.mpr hdot)] at hname
    exact ⟨hdot, (unquote_text_eq_iff h).mp hname⟩
  · rintro ⟨hdot, hkeeps⟩
    rw [lastSegment_eq_self (hdots.mpr hdot)]
    exact (unquote_text_eq_iff h).mpr hkeeps

end Query

end SchemaPlan
