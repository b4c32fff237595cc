import SchemaPlan.Proofs.Resolve.Outcome
import SchemaPlan.Proofs.Text.Case
import Mathlib.Data.List.Nodup
import Mathlib.Data.List.Perm.Subperm

/-!
# Distinct names of result columns

A number at the end of a name stays as it is in the lower case of the name, so that different
numbers make different names. There are more numbers to try than names that are taken, hence a fresh
name is new. By this the columns of every query that resolves have names of their own, even without
regard to case.
-/

namespace SchemaPlan

open SchemaPlan.Query

/-! ## Numbers at the end of a name -/

namespace Text

theorem lowerChar_of_isDigit {c : Char} (h : c.isDigit = true) : lowerChar c = [c] := by
  have hcode := toNat_of_isDigit h
  unfold lowerChar
  rw [if_pos (by omega)]
  rcases toLower_eq_or c with hlower | hcapital
  · rw [hlower]
  · omega

theorem isCased_of_isDigit {c : Char} (h : c.isDigit = true) : isCased c = false := by
  have hcode := toNat_of_isDigit h
  unfold isCased
  rw [if_pos (by omega), Bool.eq_false_iff, Ne, isAlpha_iff]
  omega

theorem isCaseIgnorable_of_isDigit {c : Char} (h : c.isDigit = true) :
    isCaseIgnorable c = false := by
  have hcode := toNat_of_isDigit h
  unfold isCaseIgnorable
  rw [if_pos (by omega)]
  simp only [Bool.or_eq_false_iff, beq_eq_false_iff_ne]
  refine ⟨⟨⟨⟨?_, ?_⟩, ?_⟩, ?_⟩, ?_⟩ <;> rintro rfl <;> revert h <;> decide

/-- Digits behind a text count as the end of a word. -/
theorem nextIsCased_append_digits (chars : List Char) {digits : List Char}
    (h : ∀ c ∈ digits, c.isDigit = true) : nextIsCased (chars ++ digits) = nextIsCased chars := by
  unfold nextIsCased
  rw [List.find?_append]
  cases hfound : chars.find? fun c => !isCaseIgnorable c with
  | some c => rfl
  | none =>
    rw [Option.none_or]
    cases digits with
    | nil => rfl
    | cons digit more =>
      have hdigit := h digit List.mem_cons_self
      rw [List.find?_cons_of_pos (by rw [isCaseIgnorable_of_isDigit hdigit]; rfl)]
      exact isCased_of_isDigit hdigit

theorem lowerAfter_append_digits (before chars : List Char) {digits : List Char}
    (h : ∀ c ∈ digits, c.isDigit = true) :
    lowerAfter before (chars ++ digits) = lowerAfter before chars ++ digits := by
  induction chars generalizing before with
  | nil =>
    induction digits generalizing before with
    | nil => rfl
    | cons digit more ih =>
      obtain ⟨hdigit, hmore⟩ := List.forall_mem_cons.mp h
      have hcode := toNat_of_isDigit hdigit
      have hrest := ih hmore (digit :: before)
      rw [List.nil_append] at hrest ⊢
      simp only [lowerAfter, lowerChar_of_isDigit hdigit, hrest,
        show digit.toNat ≠ 0x3A3 by omega, if_false, List.nil_append, List.singleton_append]
  | cons c rest ih =>
    simp only [List.cons_append, lowerAfter, nextIsCased_append_digits rest h, ih,
      List.append_assoc]

theorem toList_lower_append_toString (text : String) (n : Nat) :
    (lower (text ++ toString n)).toList = (lower text).toList ++ Nat.toDigits 10 n := by
  unfold lower
  rw [String.toList_ofList, String.toList_ofList, String.toList_append,
    Nat.toString_eq_ofList_toDigits, String.toList_ofList]
  exact lowerAfter_append_digits [] text.toList fun c hc =>
    Nat.isDigit_of_mem_toDigits (by decide) (by decide) hc

/-- Different numbers make different names out of one. -/
theorem lower_append_toString_inj {text : String} {m n : Nat}
    (h : lower (text ++ toString m) = lower (text ++ toString n)) : m = n := by
  have hdigits := congrArg String.toList h
  rw [toList_lower_append_toString, toList_lower_append_toString,
    List.append_cancel_left_eq] at hdigits
  simpa using congrArg (Nat.ofDigitChars 10 · 0) hdigits

theorem lower_append_toString_ne (text : String) (n : Nat) :
    lower (text ++ toString n) ≠ lower text := by
  intro h
  have hdigits := congrArg String.toList h
  rw [toList_lower_append_toString, List.append_right_eq_self] at hdigits
  exact Nat.toDigits_ne_nil hdigits

end Text

/-! ## Fresh names -/

/-- Of more numbers than there are taken names, one makes a name that is not taken. -/
theorem exists_number_not_mem (taken : List String) (name : String) :
    ∃ n ∈ (List.range (taken.length + 1)).map (· + 2), Text.lower (name ++ toString n) ∉ taken := by
  by_contra hnone
  have hall : ∀ n ∈ (List.range (taken.length + 1)).map (· + 2),
      Text.lower (name ++ toString n) ∈ taken := fun n hn =>
    by_contra fun hnew => hnone ⟨n, hn, hnew⟩
  have hnodup : (((List.range (taken.length + 1)).map (· + 2)).map fun n =>
      Text.lower (name ++ toString n)).Nodup :=
    (List.nodup_range.map fun _ _ => Nat.add_right_cancel).map fun _ _ => Text.lower_append_toString_inj
  have hlength := (List.subperm_of_subset hnodup (List.forall_mem_map.mpr hall)).length_le
  simp only [List.length_map, List.length_range] at hlength
  omega

theorem lower_freshName_not_mem (taken : List String) (name : String) :
    Text.lower (freshName taken name) ∉ taken := by
  unfold freshName
  split
  · dsimp only
    obtain ⟨n, hn, hnew⟩ := exists_number_not_mem taken name
    cases hfound : ((List.range (taken.length + 1)).map (· + 2)).find? fun n =>
        !taken.contains (Text.lower (name ++ toString n)) with
    | none =>
      exact absurd (List.find?_eq_none.mp hfound n hn) (by simpa using hnew)
    | some found => simpa using List.find?_some hfound
  · rename_i hfree
    simpa using hfree

/-! ## Queries -/

/-- The names of columns in lower case. -/
def lowerNames (columns : List ResultColumn) : List String :=
  columns.map fun column => Text.lower column.name

theorem nodup_distinctNames (taken : List String) (columns : List ResultColumn) :
    (lowerNames (distinctNames taken columns)).Nodup ∧
      ∀ name ∈ lowerNames (distinctNames taken columns), name ∉ taken := by
  induction columns generalizing taken with
  | nil => exact ⟨List.nodup_nil, List.forall_mem_nil _⟩
  | cons column rest ih =>
    obtain ⟨hnodup, hnew⟩ := ih (Text.lower (freshName taken column.name) :: taken)
    refine ⟨List.nodup_cons.mpr ⟨fun hmem => hnew _ hmem List.mem_cons_self, hnodup⟩, ?_⟩
    refine List.forall_mem_cons.mpr ⟨lower_freshName_not_mem taken column.name, ?_⟩
    exact fun name hname hmem => hnew name hname (List.mem_cons_of_mem _ hmem)

theorem nodup_resolveRows (rows : List (List Expr)) :
    (lowerNames (resolveRows rows).columns).Nodup := by
  unfold lowerNames resolveRows
  rw [List.map_map]
  exact List.nodup_range.map fun _ _ h =>
    Nat.add_right_cancel (Text.lower_append_toString_inj h)

theorem nodup_of_body {r : Resolver} : ∀ (body : Body) {ctes : List CteShape}
    {resolved : ResolvedQuery}, r.body ctes body = .ok resolved →
    (lowerNames resolved.columns).Nodup
  | .select select, ctes, resolved, h => by
    obtain ⟨parts, rfl⟩ := Resolver.selectParts_of_body h
    exact (nodup_distinctNames [] parts.columns).1
  | .nested ⟨recursive, own, body, tail⟩, ctes, resolved, h => by
    rw [Resolver.body_nested] at h
    obtain ⟨inner, -, hbody⟩ := Resolver.query_eq_ok.mp h
    exact nodup_of_body body hbody
  | .operation left operator right, ctes, resolved, h => by
    obtain ⟨first, hfirst, rfl⟩ := Resolver.body_operation_eq_ok.mp h
    have hnodup := nodup_of_body left hfirst
    exact hnodup
  | .values explicitRow rows, ctes, resolved, h => by
    rw [Resolver.body_values] at h
    obtain rfl := Except.ok.inj h
    exact nodup_resolveRows rows
  | .other pieces, ctes, resolved, h => absurd h Resolver.body_other_ne_ok

/-- The columns of a query have different names, even without regard to case. -/
theorem nodup_of_query {r : Resolver} {ctes : List CteShape} {query : Query}
    {resolved : ResolvedQuery} (h : r.query ctes query = .ok resolved) :
    (lowerNames resolved.columns).Nodup := by
  obtain ⟨inner, -, hbody⟩ := Resolver.query_eq_ok.mp h
  exact nodup_of_body query.body hbody

theorem Resolver.nodup_columns {r : Resolver} {query : Query} {columns : List ResultColumn}
    (h : r.columns query = .ok columns) : (lowerNames columns).Nodup := by
  obtain ⟨resolved, hquery, h⟩ := bind_eq_ok.mp h
  obtain rfl := Except.ok.inj h
  exact nodup_of_query hquery

end SchemaPlan
