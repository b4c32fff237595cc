import SchemaPlan.Proofs.Text.Case
import SchemaPlan.Sql.Name
import Mathlib.Data.List.Forall2

/-!
# Outlines of names

The keys of names are made by cutting at dots, taking blanks and quotes off the ends of the parts,
and going over to the full lower case. None of this touches an ASCII letter but by its case. So what
else a key forgets is in the outline of a name: the places of its dots, blanks and quotes and of its
characters beyond ASCII, with these characters themselves. Of two names with one outline, the keys
are equal exactly if the names are equal without regard to ASCII case.
-/

namespace SchemaPlan

/-! ## Outlines -/

namespace Text

/-- Quotes of identifiers. -/
def isQuote (c : Char) : Bool := c == '[' || c == ']' || c == '"'

/-- Characters that a key may drop, move or change although they are no ASCII letters. -/
def isFixed (c : Char) : Bool :=
  decide (128 ≤ c.toNat) || isSpace c || isQuote c || c == '.'

/-- What the outline of a text has in the place of a character. -/
def mark (c : Char) : Option Char := if isFixed c then some c else none

/-- The outline of a text. -/
def outline (text : String) : List (Option Char) := text.toList.map mark

/-- Texts of one outline: their characters correspond, and have one mark each. -/
abbrev SameOutline : List Char → List Char → Prop :=
  List.Forall₂ fun c d => mark c = mark d

theorem sameOutline_of_outline_eq {a b : String} (h : outline a = outline b) :
    SameOutline a.toList b.toList := by
  have hmap := List.forall₂_eq_eq_eq.symm ▸ h
  rwa [outline, outline, List.forall₂_map_left_iff, List.forall₂_map_right_iff] at hmap

theorem isFixed_of_isSpace (c : Char) (h : isSpace c = true) : isFixed c = true := by
  simp [isFixed, h]

theorem isFixed_of_isQuote (c : Char) (h : isQuote c = true) : isFixed c = true := by
  simp [isFixed, h]

theorem isFixed_of_isDot (c : Char) (h : (c == '.') = true) : isFixed c = true := by
  simp [isFixed, eq_of_beq h]

theorem not_isAlpha_of_isFixed {c : Char} (h : isFixed c = true) : c.isAlpha = false := by
  rw [Bool.eq_false_iff, Ne, isAlpha_iff]
  intro hletter
  simp only [isFixed, isSpace, isQuote, Bool.or_eq_true, Bool.and_eq_true, decide_eq_true_eq,
    beq_iff_eq] at h
  rcases h with ((hbeyond | hspace) | (rfl | rfl) | rfl) | rfl
  · omega
  · omega
  all_goals exact absurd hletter (by decide)

theorem toLower_of_isFixed {c : Char} (h : isFixed c = true) : c.toLower = c := by
  have hletter := not_isAlpha_of_isFixed h
  rw [Bool.eq_false_iff, Ne, isAlpha_iff] at hletter
  rcases toLower_eq_or c with hlower | hcapital
  · exact hlower
  · omega

theorem eq_of_toLower_eq_of_isFixed {c d : Char} (h : c.toLower = d.toLower)
    (hc : isFixed c = true) : c = d := by
  rw [toLower_of_isFixed hc] at h
  rcases toLower_eq_or d with hd | ⟨hlow, hhigh, hd⟩
  · rw [h, hd]
  · -- Otherwise the character would be a small letter.
    have hletter := not_isAlpha_of_isFixed hc
    rw [Bool.eq_false_iff, Ne, isAlpha_iff, h] at hletter
    omega

theorem mark_eq_of_toLower_eq {c d : Char} (h : c.toLower = d.toLower) : mark c = mark d := by
  by_cases hc : isFixed c = true
  · rw [eq_of_toLower_eq_of_isFixed h hc]
  · have hd : ¬ isFixed d = true := fun hd =>
      hc (eq_of_toLower_eq_of_isFixed h.symm hd ▸ hd)
    rw [mark, mark, if_neg hc, if_neg hd]

theorem eq_of_mark_eq_of_isFixed {c d : Char} (h : mark c = mark d) (hc : isFixed c = true) :
    c = d := by
  unfold mark at h
  rw [if_pos hc] at h
  split at h
  · exact Option.some.inj h
  · cases h

/-- A class of fixed characters is told from the outline. -/
theorem eq_of_mark_eq {p : Char → Bool} (hp : ∀ c, p c = true → isFixed c = true) {c d : Char}
    (h : mark c = mark d) : p c = p d := by
  cases hc : p c with
  | true => rw [← eq_of_mark_eq_of_isFixed h (hp c hc), hc]
  | false =>
    cases hd : p d with
    | true => rw [eq_of_mark_eq_of_isFixed h.symm (hp d hd), hc] at hd; cases hd
    | false => rfl

theorem forall₂_toLower_iff {chars chars' : List Char} :
    List.Forall₂ (fun c d => c.toLower = d.toLower) chars chars' ↔
      chars.map Char.toLower = chars'.map Char.toLower := by
  rw [← List.forall₂_eq_eq_eq, List.forall₂_map_left_iff, List.forall₂_map_right_iff]

/-! ## Lower case under an outline -/

/-- The lower case of a character within a text, which depends on its neighbours for sigma only. -/
def lowered (before : List Char) (c : Char) (rest : List Char) : List Char :=
  if c.toNat = 0x3A3 then
    [Char.ofNat (if nextIsCased before && !nextIsCased rest then 0x3C2 else 0x3C3)]
  else lowerChar c

theorem length_lowered (before before' : List Char) (c : Char) (rest rest' : List Char) :
    (lowered before c rest).length = (lowered before' c rest').length := by
  unfold lowered
  split <;> rfl

theorem lowered_of_not_isFixed (before : List Char) {c : Char} (rest : List Char)
    (h : ¬ isFixed c = true) : lowered before c rest = [c.toLower] := by
  have hascii : c.toNat < 128 := by
    by_contra hbeyond
    exact h (by simp [isFixed, Nat.le_of_not_lt hbeyond])
  unfold lowered lowerChar
  rw [if_neg (by omega), if_pos hascii]

/-- Texts of one outline and one full lower case differ in the case of ASCII letters only. -/
theorem map_toLower_eq_of_lowerAfter_eq {before before' chars chars' : List Char}
    (hmark : SameOutline chars chars')
    (hlower : lowerAfter before chars = lowerAfter before' chars') :
    chars.map Char.toLower = chars'.map Char.toLower := by
  induction hmark generalizing before before' with
  | nil => rfl
  | @cons c d rest rest' hcd _ ih =>
    change lowered before c rest ++ lowerAfter (c :: before) rest =
      lowered before' d rest' ++ lowerAfter (d :: before') rest' at hlower
    rw [List.map_cons, List.map_cons]
    by_cases hc : isFixed c = true
    · obtain rfl := eq_of_mark_eq_of_isFixed hcd hc
      have hrest := (List.append_inj hlower (length_lowered _ _ _ _ _)).2
      rw [ih hrest]
    · have hd : ¬ isFixed d = true := fun hd =>
        hc (eq_of_mark_eq_of_isFixed hcd.symm hd ▸ hd)
      rw [lowered_of_not_isFixed _ _ hc, lowered_of_not_isFixed _ _ hd] at hlower
      obtain ⟨hhead, hrest⟩ := List.cons.inj hlower
      rw [hhead, ih hrest]

/-! ## Trimming under an outline -/

section Trim

variable {R : Char → Char → Prop} {p : Char → Bool} {chars chars' : List Char}

theorem forall₂_dropWhile (hp : ∀ c d, R c d → p c = p d) (h : List.Forall₂ R chars chars') :
    List.Forall₂ R (chars.dropWhile p) (chars'.dropWhile p) := by
  induction h with
  | nil => exact .nil
  | cons hcd hrest ih =>
    rw [List.dropWhile_cons, List.dropWhile_cons, hp _ _ hcd]
    split
    · exact ih
    · exact .cons hcd hrest

/-- Related texts stay related when the same characters are dropped from their ends. -/
theorem forall₂_trimBoth (hp : ∀ c d, R c d → p c = p d) (h : List.Forall₂ R chars chars') :
    List.Forall₂ R (trimBoth p chars) (trimBoth p chars') :=
  List.rel_reverse (forall₂_dropWhile hp (List.rel_reverse (forall₂_dropWhile hp h)))

theorem map_toLower_eq_of_dropWhile (hp : ∀ c, p c = true → isFixed c = true)
    (hmark : SameOutline chars chars')
    (h : (chars.dropWhile p).map Char.toLower = (chars'.dropWhile p).map Char.toLower) :
    chars.map Char.toLower = chars'.map Char.toLower := by
  induction hmark with
  | nil => rfl
  | cons hcd hrest ih =>
    rw [List.dropWhile_cons, List.dropWhile_cons, ← eq_of_mark_eq hp hcd] at h
    split at h
    · rename_i hc
      rw [List.map_cons, List.map_cons, eq_of_mark_eq_of_isFixed hcd (hp _ hc), ih h]
    · exact h

/-- Texts of one outline that agree up to ASCII case without their ends agree as a whole. -/
theorem map_toLower_eq_of_trimBoth (hp : ∀ c, p c = true → isFixed c = true)
    (hmark : SameOutline chars chars')
    (h : (trimBoth p chars).map Char.toLower = (trimBoth p chars').map Char.toLower) :
    chars.map Char.toLower = chars'.map Char.toLower := by
  have hfront : SameOutline (chars.dropWhile p) (chars'.dropWhile p) :=
    forall₂_dropWhile (fun _ _ => eq_of_mark_eq hp) hmark
  have hback := map_toLower_eq_of_dropWhile hp (List.rel_reverse hfront)
  rw [List.map_reverse, List.map_reverse, List.reverse_inj] at hback
  refine map_toLower_eq_of_dropWhile hp hmark (hback ?_)
  unfold trimBoth at h
  rwa [List.map_reverse, List.map_reverse, List.reverse_inj] at h

end Trim

/-! ## Parts under an outline -/

section Parts

variable {R : Char → Char → Prop} {chars chars' : List Char} {parts parts' : List (List Char)}

theorem forall₂_splitList {p : Char → Bool} (hp : ∀ c d, R c d → p c = p d)
    (h : List.Forall₂ R chars chars') :
    List.Forall₂ (List.Forall₂ R) (splitList p chars) (splitList p chars') := by
  induction h with
  | nil => exact .cons .nil .nil
  | cons hcd hrest ih =>
    unfold splitList
    rw [hp _ _ hcd]
    split
    · exact .cons .nil ih
    · revert ih
      generalize splitList p _ = rest, splitList p _ = rest'
      rintro (_ | ⟨hpart, hparts⟩)
      · exact .cons (.cons hcd .nil) .nil
      · exact .cons (.cons hcd hpart) hparts

/-- The parts with dots between them are the text again. -/
theorem intercalate_splitList (chars : List Char) :
    ['.'].intercalate (splitList (· == '.') chars) = chars := by
  induction chars with
  | nil => rfl
  | cons c rest ih =>
    unfold splitList
    cases hparts : splitList (· == '.') rest with
    | nil =>
      rw [hparts] at ih
      obtain rfl : rest = [] := ih.symm
      cases hparts
    | cons part parts =>
      rw [hparts] at ih
      split
      · rename_i hdot
        rw [List.intercalate_cons_cons, ih, eq_of_beq hdot]
        rfl
      · cases parts with
        | nil => simpa using ih
        | cons next more =>
          rw [List.intercalate_cons_cons] at ih ⊢
          exact congrArg (c :: ·) ih

theorem forall₂_intercalate (hdot : R '.' '.') (h : List.Forall₂ (List.Forall₂ R) parts parts') :
    List.Forall₂ R (['.'].intercalate parts) (['.'].intercalate parts') := by
  induction h with
  | nil => exact .nil
  | cons hpart hparts ih =>
    cases hparts with
    | nil => simpa using hpart
    | cons hnext hmore =>
      rw [List.intercalate_cons_cons, List.intercalate_cons_cons]
      exact List.rel_append (List.rel_append hpart (.cons hdot .nil)) ih

/-- Texts agree up to ASCII case part by part if their parts have one outline each. -/
theorem forall₂_of_intercalate_eq (hmark : List.Forall₂ SameOutline parts parts')
    (h : (['.'].intercalate parts).map Char.toLower = (['.'].intercalate parts').map Char.toLower) :
    List.Forall₂ (fun part part' => part.map Char.toLower = part'.map Char.toLower)
      parts parts' := by
  induction hmark with
  | nil => exact .nil
  | cons hpart hparts ih =>
    cases hparts with
    | nil => exact .cons (by simpa using h) .nil
    | cons hnext hmore =>
      simp only [List.intercalate_cons_cons, List.append_assoc, List.map_append] at h
      obtain ⟨hfirst, hrest⟩ := List.append_inj h (by simpa using hpart.length_eq)
      exact .cons hfirst (ih (List.cons.inj hrest).2)

end Parts

/-! ## Keys of dotted names -/

section Key

open SchemaPlan.Sql

/-- A part of a name without blanks and quotes at its ends. -/
def unquoted (part : List Char) : List Char :=
  trimBoth isQuote (trimBoth isSpace part)

/-- What the key of a dotted name is the full lower case of. -/
def keyChars (name : List Char) : List Char :=
  ['.'].intercalate ((splitList (· == '.') name).map unquoted)

theorem toList_joinWith_dot (texts : List String) :
    (joinWith "." texts).toList = ['.'].intercalate (texts.map String.toList) := by
  induction texts with
  | nil => rfl
  | cons text rest ih =>
    cases rest with
    | nil => exact (List.intercalate_singleton).symm
    | cons next more =>
      rw [joinWith, String.toList_append, String.toList_append, ih]
      · exact List.intercalate_cons_cons.symm
      · exact List.cons_ne_nil _ _

theorem identifierKey_eq (name : String) :
    identifierKey name = lower (String.ofList (keyChars name.toList)) := by
  have hparts : ((splitWhere (· == '.') name).map unquote).map String.toList =
      (splitList (· == '.') name.toList).map unquoted := by
    unfold splitWhere
    rw [List.map_map, List.map_map]
    refine List.map_congr_left fun part _ => ?_
    simp only [Function.comp_apply, unquote, trim, trimWhere, String.toList_ofList]
    rfl
  unfold identifierKey
  rw [keyChars, ← hparts, ← toList_joinWith_dot, String.ofList_toList]

variable {R : Char → Char → Prop} {name name' : List Char}

/-- The keys of related names are related, if related characters have one mark. -/
theorem forall₂_keyChars (hmark : ∀ c d, R c d → mark c = mark d) (hdot : R '.' '.')
    (h : List.Forall₂ R name name') : List.Forall₂ R (keyChars name) (keyChars name') := by
  have hfixed {p : Char → Bool} (hp : ∀ c, p c = true → isFixed c = true) (c d : Char)
      (hcd : R c d) : p c = p d := eq_of_mark_eq hp (hmark c d hcd)
  refine forall₂_intercalate hdot (List.rel_map (fun part part' hpart => ?_)
    (forall₂_splitList (hfixed isFixed_of_isDot) h))
  exact forall₂_trimBoth (hfixed isFixed_of_isQuote)
    (forall₂_trimBoth (hfixed isFixed_of_isSpace) hpart)

theorem map_toLower_eq_of_unquoted {part part' : List Char} (hmark : SameOutline part part')
    (h : (unquoted part).map Char.toLower = (unquoted part').map Char.toLower) :
    part.map Char.toLower = part'.map Char.toLower := by
  refine map_toLower_eq_of_trimBoth isFixed_of_isSpace hmark ?_
  exact map_toLower_eq_of_trimBoth isFixed_of_isQuote
    (forall₂_trimBoth (fun _ _ => eq_of_mark_eq isFixed_of_isSpace) hmark) h

/-- Of two names of one outline, the keys agree up to ASCII case only if the names do. -/
theorem map_toLower_eq_of_keyChars (hmark : SameOutline name name')
    (h : (keyChars name).map Char.toLower = (keyChars name').map Char.toLower) :
    name.map Char.toLower = name'.map Char.toLower := by
  have hparts : List.Forall₂ SameOutline (splitList (· == '.') name) (splitList (· == '.') name') :=
    forall₂_splitList (fun _ _ => eq_of_mark_eq isFixed_of_isDot) hmark
  have hunquoted : ∀ part part', SameOutline part part' →
      SameOutline (unquoted part) (unquoted part') := fun part part' hpart =>
    forall₂_trimBoth (fun _ _ => eq_of_mark_eq isFixed_of_isQuote)
      (forall₂_trimBoth (fun _ _ => eq_of_mark_eq isFixed_of_isSpace) hpart)
  have hsame := forall₂_of_intercalate_eq (List.rel_map hunquoted hparts) h
  rw [List.forall₂_map_left_iff, List.forall₂_map_right_iff] at hsame
  rw [← intercalate_splitList name, ← intercalate_splitList name', ← forall₂_toLower_iff]
  refine forall₂_intercalate rfl (hsame.mp (fun part part' hpart hmark => ?_) hparts)
  exact forall₂_toLower_iff.mpr (map_toLower_eq_of_unquoted hmark hpart)

end Key

end Text

end SchemaPlan
