import SchemaPlan.Text.LowerCase
import SchemaPlan.Text.Basic

/-!
# Case of letters

Texts that differ in the case of ASCII letters only have one full lower case, and texts of the same
ASCII capitals are compared as equal.
-/

namespace SchemaPlan.Text

/-! ## Characters -/

/-- ASCII lower case moves the capitals only. -/
theorem toNat_toLower (c : Char) :
    c.toLower.toNat = if 65 ≤ c.toNat ∧ c.toNat ≤ 90 then c.toNat + 32 else c.toNat := by
  unfold Char.toLower
  simp only [ge_iff_le, UInt32.le_iff_toNat_le]
  change (if _ : 65 ≤ c.toNat ∧ c.toNat ≤ 90 then _ else c).toNat = _
  split
  · rename_i h
    change (c.val + 32).toNat = c.toNat + 32
    rw [UInt32.toNat_add]
    change (c.toNat + 32) % 2 ^ 32 = c.toNat + 32
    omega
  · rfl

/-- ASCII upper case moves the small letters only. -/
theorem toNat_toUpper (c : Char) :
    c.toUpper.toNat = if 97 ≤ c.toNat ∧ c.toNat ≤ 122 then c.toNat - 32 else c.toNat := by
  unfold Char.toUpper
  simp only [UInt32.le_iff_toNat_le]
  change (if _ : 97 ≤ c.toNat ∧ c.toNat ≤ 122 then _ else c).toNat = _
  split
  · rename_i h
    -- The difference of the two alphabets wraps around.
    change (c.val + 4294967264).toNat = c.toNat - 32
    rw [UInt32.toNat_add]
    change (c.toNat + 4294967264) % 2 ^ 32 = c.toNat - 32
    omega
  · rfl

theorem toLower_toUpper (c : Char) : c.toUpper.toLower = c.toLower := by
  rw [← Char.toNat_inj, toNat_toLower, toNat_toLower, toNat_toUpper]
  grind

theorem toUpper_toLower (c : Char) : c.toLower.toUpper = c.toUpper := by
  rw [← Char.toNat_inj, toNat_toUpper, toNat_toUpper, toNat_toLower]
  grind

theorem isAlpha_iff (c : Char) :
    c.isAlpha = true ↔ 65 ≤ c.toNat ∧ c.toNat ≤ 90 ∨ 97 ≤ c.toNat ∧ c.toNat ≤ 122 := by
  have hupper : c.isUpper = true ↔ 65 ≤ c.toNat ∧ c.toNat ≤ 90 := decide_eq_true_iff
  have hlower : c.isLower = true ↔ 97 ≤ c.toNat ∧ c.toNat ≤ 122 :=
    (Bool.and_eq_true _ _).to_iff.trans (and_congr decide_eq_true_iff decide_eq_true_iff)
  exact (Bool.or_eq_true _ _).to_iff.trans (or_congr hupper hlower)

theorem toNat_of_isDigit {c : Char} (h : c.isDigit = true) : 48 ≤ c.toNat ∧ c.toNat ≤ 57 := by
  simpa [Char.isDigit, UInt32.le_iff_toNat_le] using h

/-- A character is its own lower case, or it is a capital. -/
theorem toLower_eq_or (c : Char) :
    c.toLower = c ∨ 65 ≤ c.toNat ∧ c.toNat ≤ 90 ∧ c.toLower.toNat = c.toNat + 32 := by
  rw [← Char.toNat_inj, toNat_toLower]
  split
  · rename_i h
    exact Or.inr ⟨h.1, h.2, rfl⟩
  · exact Or.inl rfl

theorem lowerChar_toLower (c : Char) : lowerChar c.toLower = lowerChar c := by
  rcases toLower_eq_or c with h | ⟨hlow, hhigh, hlower⟩
  · rw [h]
  · have htwice : c.toLower.toLower = c.toLower := by
      rcases toLower_eq_or c.toLower with h | h
      · exact h
      · omega
    unfold lowerChar
    rw [if_pos (by omega), if_pos (by omega), htwice]

theorem isCased_toLower (c : Char) : isCased c.toLower = isCased c := by
  rcases toLower_eq_or c with h | ⟨hlow, hhigh, hlower⟩
  · rw [h]
  · unfold isCased
    rw [if_pos (by omega), if_pos (by omega), Bool.eq_iff_iff, isAlpha_iff, isAlpha_iff]
    omega

theorem not_isCaseIgnorable_of_isAlpha {c : Char} (h : c.isAlpha = true) :
    isCaseIgnorable c = false := by
  rw [isAlpha_iff] at h
  unfold isCaseIgnorable
  rw [if_pos (by omega)]
  simp only [Bool.or_eq_false_iff, beq_eq_false_iff_ne]
  refine ⟨⟨⟨⟨?_, ?_⟩, ?_⟩, ?_⟩, ?_⟩ <;> rintro rfl <;> revert h <;> decide

theorem isCaseIgnorable_toLower (c : Char) : isCaseIgnorable c.toLower = isCaseIgnorable c := by
  rcases toLower_eq_or c with h | ⟨hlow, hhigh, hlower⟩
  · rw [h]
  · rw [not_isCaseIgnorable_of_isAlpha ((isAlpha_iff _).mpr (by omega)),
      not_isCaseIgnorable_of_isAlpha ((isAlpha_iff _).mpr (by omega))]

/-! ## Texts -/

theorem nextIsCased_map_toLower (chars : List Char) :
    nextIsCased (chars.map Char.toLower) = nextIsCased chars := by
  unfold nextIsCased
  induction chars with
  | nil => rfl
  | cons c rest ih =>
    rw [List.map_cons, List.find?_cons, List.find?_cons, isCaseIgnorable_toLower]
    cases isCaseIgnorable c with
    | true => exact ih
    | false => exact isCased_toLower c

/-- The full lower case of a text does not depend on the case of its ASCII letters. -/
theorem lowerAfter_map_toLower (before chars : List Char) :
    lowerAfter (before.map Char.toLower) (chars.map Char.toLower) = lowerAfter before chars := by
  induction chars generalizing before with
  | nil => rfl
  | cons c rest ih =>
    have hsigma : (c.toLower.toNat = 0x3A3) = (c.toNat = 0x3A3) := by
      rcases toLower_eq_or c with h | h
      · rw [h]
      · rw [eq_iff_iff]
        omega
    have hrest := ih (c :: before)
    rw [List.map_cons] at hrest ⊢
    simp only [lowerAfter, hsigma, lowerChar_toLower, nextIsCased_map_toLower, hrest]

theorem lower_asciiLower (text : String) : lower (asciiLower text) = lower text := by
  unfold lower asciiLower
  rw [String.toList_ofList]
  exact congrArg String.ofList (lowerAfter_map_toLower [] text.toList)

theorem asciiLower_append (a b : String) : asciiLower (a ++ b) = asciiLower a ++ asciiLower b := by
  simp [asciiLower]

theorem asciiLower_asciiUpper (text : String) : asciiLower (asciiUpper text) = asciiLower text := by
  simp [asciiLower, asciiUpper, Function.comp_def, toLower_toUpper]

/-- Texts of the same capitals are the same without regard to ASCII case. -/
theorem sameText_of_asciiUpper_eq {a b : String} (h : asciiUpper a = asciiUpper b) :
    sameText a b = true := by
  rw [sameText_iff, ← asciiLower_asciiUpper a, h, asciiLower_asciiUpper]

theorem asciiUpper_asciiLower (text : String) : asciiUpper (asciiLower text) = asciiUpper text := by
  simp [asciiLower, asciiUpper, Function.comp_def, toUpper_toLower]

theorem sameText_iff_asciiUpper (a b : String) :
    sameText a b = true ↔ asciiUpper a = asciiUpper b := by
  constructor
  · intro h
    rw [← asciiUpper_asciiLower a, (sameText_iff a b).mp h, asciiUpper_asciiLower]
  · exact sameText_of_asciiUpper_eq

end SchemaPlan.Text
