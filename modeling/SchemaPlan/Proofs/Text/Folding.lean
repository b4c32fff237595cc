import SchemaPlan.Proofs.Text.Case
import SchemaPlan.Sql.Name
import SchemaPlan.Text.Alphabetic
import SchemaPlan.Text.Numeric
import Mathlib.Data.List.TakeDrop

/-!
# Text operations and ASCII case

What is cut from a text, and where, is told by blanks, dots, quotes and signs, which have no case.
So these operations go together with ASCII lower case: it makes no difference which of the two is
applied first.
-/

namespace SchemaPlan

namespace Text

/-! ## Characters -/

/-- What ASCII lower case does not change at a capital, it does not change at all. -/
theorem apply_toLower {α : Type} {f : Char → α}
    (h : ∀ n < 26, f (Char.ofNat (65 + n)).toLower = f (Char.ofNat (65 + n))) (c : Char) :
    f c.toLower = f c := by
  rcases toLower_eq_or c with hsmall | ⟨hlow, hhigh, -⟩
  · rw [hsmall]
  · have hc : Char.ofNat (65 + (c.toNat - 65)) = c := by
      rw [Nat.add_sub_cancel' hlow, Char.ofNat_toNat]
    have hcapital := h (c.toNat - 65) (by omega)
    rwa [hc] at hcapital

/-- Classes of characters that ASCII case does not bear on. -/
def IgnoresCase (p : Char → Bool) : Prop := ∀ c : Char, p c.toLower = p c

theorem isSpace_toLower : IgnoresCase isSpace := apply_toLower (by decide)

theorem isLetter_toLower : IgnoresCase isLetter := apply_toLower (by decide)

theorem isNumeral_toLower : IgnoresCase isNumeral := apply_toLower (by decide)

theorem isDigit_toLower : IgnoresCase Char.isDigit := apply_toLower (by decide)

/-- A character without case is told from all others in either case. -/
theorem beq_toLower {d : Char} (hd : d.isAlpha = false) (c : Char) : (c.toLower == d) = (c == d) := by
  rcases toLower_eq_or c with h | ⟨hlow, hhigh, hlower⟩
  · rw [h]
  · rw [Bool.eq_false_iff, Ne, isAlpha_iff] at hd
    have hne : c ≠ d := by
      rintro rfl
      omega
    have hne' : c.toLower ≠ d := by
      rintro rfl
      omega
    rw [beq_false_of_ne hne', beq_false_of_ne hne]

theorem toLower_of_not_isAlpha {c : Char} (h : c.isAlpha = false) : c.toLower = c :=
  beq_iff_eq.mp ((beq_toLower h c).trans (beq_self_eq_true c))

@[simp] theorem toLower_toLower (c : Char) : c.toLower.toLower = c.toLower :=
  apply_toLower (by decide) c

@[simp] theorem toLower_comp_toLower : Char.toLower ∘ Char.toLower = Char.toLower :=
  funext toLower_toLower

theorem toLower_eq_iff {c d : Char} (hd : d.isAlpha = false) : c.toLower = d ↔ c = d := by
  rw [← beq_iff_eq, beq_toLower hd, beq_iff_eq]

theorem head?_map_toLower_eq_iff {chars : List Char} {d : Char} (hd : d.isAlpha = false) :
    (chars.map Char.toLower).head? = some d ↔ chars.head? = some d := by
  cases chars with
  | nil => exact Iff.rfl
  | cons c rest =>
    rw [List.map_cons, List.head?_cons, List.head?_cons, Option.some_inj, Option.some_inj,
      toLower_eq_iff hd]

@[simp] theorem asciiLower_asciiLower (text : String) :
    asciiLower (asciiLower text) = asciiLower text := by
  simp [asciiLower]

/-! ## Cutting and trimming -/

section Cuts

variable {p : Char → Bool}

theorem trimBoth_map_toLower (hp : IgnoresCase p) (chars : List Char) :
    trimBoth p (chars.map Char.toLower) = (trimBoth p chars).map Char.toLower := by
  have hcomp : p ∘ Char.toLower = p := funext hp
  simp only [trimBoth, List.dropWhile_map, ← List.map_reverse, hcomp]

theorem asciiLower_trimWhere (hp : IgnoresCase p) (text : String) :
    asciiLower (trimWhere p text) = trimWhere p (asciiLower text) := by
  simp only [asciiLower, trimWhere, String.toList_ofList, trimBoth_map_toLower hp]

theorem splitList_map_toLower (hp : IgnoresCase p) (chars : List Char) :
    splitList p (chars.map Char.toLower) = (splitList p chars).map (List.map Char.toLower) := by
  induction chars with
  | nil => rfl
  | cons c rest ih =>
    rw [List.map_cons, splitList, splitList, hp, ih]
    split
    · rfl
    · cases splitList p rest <;> rfl

theorem map_asciiLower_splitWhere (hp : IgnoresCase p) (text : String) :
    (splitWhere p text).map asciiLower = splitWhere p (asciiLower text) := by
  simp [splitWhere, asciiLower, splitList_map_toLower hp]

end Cuts

/-! ## Texts without letters -/

/-- Characters none of which has case. -/
def Caseless (chars : List Char) : Prop := ∀ c ∈ chars, c.isAlpha = false

instance (chars : List Char) : Decidable (Caseless chars) :=
  List.decidableBAll (fun c : Char => c.isAlpha = false) chars

theorem map_toLower_eq_iff {chars caseless : List Char} (h : Caseless caseless) :
    chars.map Char.toLower = caseless ↔ chars = caseless := by
  induction chars generalizing caseless with
  | nil => exact Iff.rfl
  | cons c rest ih =>
    cases caseless with
    | nil => exact iff_of_false (List.cons_ne_nil _ _) (List.cons_ne_nil _ _)
    | cons d more =>
      rw [List.map_cons, List.cons.injEq, List.cons.injEq, toLower_eq_iff (h d List.mem_cons_self),
        ih fun e he => h e (List.mem_cons_of_mem _ he)]

theorem asciiLower_eq_iff {text caseless : String} (h : Caseless caseless.toList) :
    asciiLower text = caseless ↔ text = caseless := by
  rw [← String.toList_inj, asciiLower, String.toList_ofList, map_toLower_eq_iff h,
    String.toList_inj]

theorem isPrefixOf_map_toLower {start : List Char} (h : Caseless start) (chars : List Char) :
    start.isPrefixOf (chars.map Char.toLower) = start.isPrefixOf chars := by
  induction start generalizing chars with
  | nil => simp
  | cons d more ih =>
    cases chars with
    | nil => rfl
    | cons c rest =>
      have hhead : (d == c.toLower) = (d == c) := by
        rw [BEq.comm, beq_toLower (h d List.mem_cons_self), BEq.comm]
      rw [List.map_cons, List.isPrefixOf_cons_cons, List.isPrefixOf_cons_cons, hhead,
        ih fun e he => h e (List.mem_cons_of_mem _ he)]

theorem startsWith_asciiLower {start : String} (h : Caseless start.toList) (text : String) :
    startsWith start (asciiLower text) = startsWith start text := by
  rw [startsWith, asciiLower, String.toList_ofList, isPrefixOf_map_toLower h]
  rfl

theorem after?_asciiLower {start : String} (h : Caseless start.toList) (text : String) :
    after? start (asciiLower text) = (after? start text).map asciiLower := by
  unfold after?
  rw [asciiLower, String.toList_ofList, isPrefixOf_map_toLower h]
  split
  · simp [asciiLower]
  · rfl

/-! ## Words and joins -/

theorem map_asciiLower_words (text : String) :
    (words text).map asciiLower = words (asciiLower text) := by
  have hcaseless : Caseless "".toList := by decide
  have hempty : (fun text : String => decide (text ≠ "")) ∘ asciiLower =
      fun text => decide (text ≠ "") :=
    funext fun text => decide_eq_decide.mpr (not_congr (asciiLower_eq_iff hcaseless))
  unfold words
  rw [← map_asciiLower_splitWhere isSpace_toLower, List.filter_map, hempty]

theorem asciiLower_joinWith (separator : String) (texts : List String) :
    asciiLower (joinWith separator texts) = joinWith (asciiLower separator) (texts.map asciiLower) := by
  induction texts with
  | nil => rfl
  | cons text rest ih =>
    cases rest with
    | nil => rfl
    | cons next more =>
      simp only [joinWith, List.map_cons, asciiLower_append] at ih ⊢
      rw [ih]

/-! ## Texts that differ in case -/

/-- Texts that differ in the case of ASCII letters only. -/
def Recased (chars chars' : List Char) : Prop := chars.map Char.toLower = chars'.map Char.toLower

theorem IgnoresCase.eq {p : Char → Bool} {c d : Char} (hp : IgnoresCase p)
    (h : c.toLower = d.toLower) : p d = p c := by
  rw [← hp d, ← h, hp]

/-- A character without case is the same in both texts. -/
theorem eq_of_toLower_eq {c d : Char} (h : c.toLower = d.toLower) (hc : c.isAlpha = false) :
    d = c := by
  rw [toLower_of_not_isAlpha hc] at h
  exact (toLower_eq_iff hc).mp h.symm

section Recased

variable {chars chars' before before' : List Char} {c d : Char} {p : Char → Bool}

theorem Recased.cons (hc : c.toLower = d.toLower) (h : Recased chars chars') :
    Recased (c :: chars) (d :: chars') := by
  unfold Recased at *
  rw [List.map_cons, List.map_cons, hc, h]

theorem Recased.append (hbefore : Recased before before') (h : Recased chars chars') :
    Recased (before ++ chars) (before' ++ chars') := by
  unfold Recased at *
  rw [List.map_append, List.map_append, hbefore, h]

theorem recased_nil : Recased [] chars' ↔ chars' = [] :=
  eq_comm.trans List.map_eq_nil_iff

theorem recased_cons : Recased (c :: chars) chars' ↔
    ∃ d more, chars' = d :: more ∧ c.toLower = d.toLower ∧ Recased chars more := by
  constructor
  · intro h
    obtain ⟨d, more, rfl, hd, hmore⟩ := List.map_eq_cons_iff.mp h.symm
    exact ⟨d, more, rfl, hd.symm, hmore.symm⟩
  · rintro ⟨d, more, rfl, hd, hmore⟩
    exact hmore.cons hd

theorem Recased.eq_of_caseless (h : Recased chars chars') (hcase : Caseless chars) :
    chars' = chars := by
  have hlower : chars.map Char.toLower = chars := (map_toLower_eq_iff hcase).mpr rfl
  exact (map_toLower_eq_iff hcase).mp (h.symm.trans hlower)

theorem Recased.head?_eq_some_iff (h : Recased chars chars') (hd : d.isAlpha = false) :
    chars'.head? = some d ↔ chars.head? = some d := by
  rw [← head?_map_toLower_eq_iff hd, ← h, head?_map_toLower_eq_iff hd]

theorem Recased.all_eq (h : Recased chars chars') (hp : IgnoresCase p) :
    (∀ c ∈ chars', p c = true) ↔ ∀ c ∈ chars, p c = true := by
  have hmap (chars : List Char) : (∀ c ∈ chars, p c = true) ↔
      ∀ c ∈ chars.map Char.toLower, p c = true := by
    simp only [List.forall_mem_map, hp _]
  rw [hmap chars, hmap chars', h]

end Recased

end Text

namespace Sql

open SchemaPlan.Text

/-! ## Names -/

theorem asciiLower_unquote (text : String) : asciiLower (unquote text) = unquote (asciiLower text) := by
  have hquote : IgnoresCase fun c => c == '[' || c == ']' || c == '"' := fun c => by
    simp only [beq_toLower (d := '[') rfl, beq_toLower (d := ']') rfl, beq_toLower (d := '"') rfl]
  unfold unquote
  rw [asciiLower_trimWhere hquote, Text.trim, asciiLower_trimWhere isSpace_toLower]
  rfl

theorem asciiLower_withoutSign (name : String) :
    asciiLower (withoutSign name) = withoutSign (asciiLower name) := by
  unfold withoutSign
  rw [after?_asciiLower (by decide)]
  cases after? "@" name <;> rfl

theorem isVariable_asciiLower (name : String) : isVariable (asciiLower name) = isVariable name := by
  rw [isVariable, startsWith_asciiLower (by decide), startsWith_asciiLower (by decide)]
  rfl

end Sql

end SchemaPlan
