import SchemaPlan.Definition.Table
import SchemaPlan.Proofs.Definition.Phrases
import SchemaPlan.Proofs.Token.Slices

/-!
# A table in front of other tokens

A table ends with the parenthesis that closes its body, and what follows is not looked at. So a text
that starts with a table is read as that table, whatever comes behind it.

* `gives_table_append`: a table is read in front of any tokens.
-/

namespace SchemaPlan.Definition

open SchemaPlan.Sql SchemaPlan.Sql.Reading

attribute [grind =] elementRanges

/-! ## Elements of a body -/

section Ranges

variable {pos start depth stop : Nat} {tokens : List Token} {ranges : List (Nat × Nat)}

/-- The ranges of elements do not depend on where the body stands. -/
theorem elementRanges_add (k pos start depth : Nat) (tokens : List Token) :
    elementRanges (k + pos) (k + start) depth tokens =
      (elementRanges pos start depth tokens).map fun found =>
        (found.1.map (Prod.map (k + ·) (k + ·)), k + found.2) := by
  fun_induction elementRanges pos start depth tokens with
  | case1 => rfl
  | case2 pos start depth rest ih => exact ih
  | case3 pos start rest => rfl
  | case4 pos start depth rest h ih => rw [elementRanges, if_neg h]; exact ih
  | case5 pos start rest ih =>
    rw [elementRanges, if_pos rfl]
    refine (congrArg _ ih).trans ?_
    rw [Option.map_map, Option.map_map]
    rfl
  | case6 pos start depth rest h ih => rw [elementRanges, if_neg h]; exact ih
  | case7 pos start depth token rest h1 h2 h3 ih =>
    rw [elementRanges]
    · exact ih
    all_goals assumption

/-- The ranges of elements do not depend on what follows the body. -/
theorem elementRanges_append (h : elementRanges pos start depth tokens = some (ranges, stop))
    (more : List Token) : elementRanges pos start depth (tokens ++ more) = some (ranges, stop) := by
  fun_induction elementRanges pos start depth tokens generalizing ranges stop with
  | case1 => cases h
  | case2 pos start depth rest ih => exact ih h
  | case3 pos start rest => exact h
  | case4 pos start depth rest hdepth ih =>
    rw [List.cons_append, elementRanges, if_neg hdepth]
    exact ih h
  | case5 pos start rest ih =>
    obtain ⟨found, hfound, heq⟩ := Option.map_eq_some_iff.mp h
    rw [List.cons_append, elementRanges, if_pos rfl, ih hfound]
    exact congrArg some heq
  | case6 pos start depth rest hdepth ih =>
    rw [List.cons_append, elementRanges, if_neg hdepth]
    exact ih h
  | case7 pos start depth token rest h1 h2 h3 ih =>
    rw [List.cons_append, elementRanges]
    · exact ih h
    all_goals assumption

/-- The body ends within its tokens, and its elements within the body. -/
theorem elementRanges_le (h : elementRanges pos start depth tokens = some (ranges, stop)) :
    stop ≤ pos + tokens.length ∧ ∀ range ∈ ranges, range.2 ≤ pos + tokens.length := by
  fun_induction elementRanges pos start depth tokens generalizing ranges stop with
  | case1 => cases h
  | case3 pos start rest =>
    obtain ⟨rfl, rfl⟩ := Prod.mk.inj (Option.some.inj h)
    rw [List.length_cons, List.forall_mem_singleton]
    omega
  | case5 pos start rest ih =>
    obtain ⟨found, hfound, heq⟩ := Option.map_eq_some_iff.mp h
    obtain ⟨rfl, rfl⟩ := Prod.mk.inj heq
    obtain ⟨hstop, hranges⟩ := ih hfound
    rw [List.length_cons, List.forall_mem_cons]
    refine ⟨by omega, by omega, fun range hrange => ?_⟩
    have := hranges range hrange
    omega
  | case2 | case4 | case6 | case7 =>
    rename_i ih
    rw [List.length_cons, Nat.add_comm _ 1, ← Nat.add_assoc]
    exact ih h

end Ranges

/-! ## The body -/

/-- The text of tokens without white space at its ends. -/
def textOf (tokens : List Token) : String :=
  String.ofList (Text.trimBoth Text.isSpace (written tokens))

section Body

variable {c c' d : Cursor} {more : List Token}

/-- A text cut out behind the cursor is that of tokens ahead. -/
theorem slice_add (c : Cursor) (start stop : Nat) :
    c.slice (c.pos + start) (c.pos + stop) = textOf ((c.rest.take stop).drop start) := by
  rw [← String.toList_inj, toList_slice, textOf, String.toList_ofList]
  congr 2
  unfold Cursor.range Cursor.rest
  rw [← List.map_take, ← List.map_drop, List.take_drop, List.drop_drop]

theorem rest_moveTo_add (c : Cursor) (n : Nat) : (c.moveTo (c.pos + n)).rest = c.rest.drop n := by
  unfold Cursor.moveTo Cursor.rest
  dsimp only
  rw [← Array.length_toList, ← List.drop_eq_drop_min, ← List.map_drop, List.drop_drop]

theorem gives_bodyElements {texts : List String} :
    Gives bodyElements c texts d ↔
      c.sees (·.isMark .openParen) = true ∧ ∃ ranges stop,
        elementRanges 0 0 0 c.advance.rest = some (ranges, stop) ∧
        texts = dropEmptyLast
          (ranges.map fun range => textOf ((c.advance.rest.take range.2).drop range.1)) ∧
        d = c.advance.moveTo (c.advance.pos + stop) := by
  unfold bodyElements
  simp only [gives_bind, gives_expect, gives_get]
  -- The ranges are found at the cursor's own offset; shifted to offset 0 they slice what is left.
  have hshift := elementRanges_add c.advance.pos 0 0 0 c.advance.rest
  have htexts (ranges : List (Nat × Nat)) :
      (ranges.map (Prod.map (c.advance.pos + ·) (c.advance.pos + ·))).map
          (fun range => c.advance.slice range.1 range.2) =
        ranges.map fun range => textOf ((c.advance.rest.take range.2).drop range.1) := by
    rw [List.map_map]
    exact List.map_congr_left fun range _ => slice_add _ range.1 range.2
  constructor
  · rintro ⟨_, _, ⟨hsees, rfl⟩, _, _, ⟨rfl, rfl⟩, h⟩
    refine ⟨hsees, ?_⟩
    split at h
    · rename_i found hfound
      obtain ⟨⟨ranges, stop⟩, hranges, heq⟩ := Option.map_eq_some_iff.mp (hshift.symm.trans hfound)
      obtain ⟨rfl, rfl⟩ := Prod.mk.inj heq
      obtain ⟨_, _, hmove, h⟩ := gives_bind.mp h
      obtain ⟨rfl, rfl⟩ := gives_pure.mp h
      exact ⟨ranges, stop, hranges, congrArg dropEmptyLast (htexts ranges), gives_modify.mp hmove⟩
    · exact absurd h not_gives_failure
  · rintro ⟨hsees, ranges, stop, hranges, rfl, rfl⟩
    refine ⟨(), _, ⟨hsees, rfl⟩, _, _, ⟨rfl, rfl⟩, ?_⟩
    rw [hranges] at hshift
    have hfound : elementRanges c.advance.pos c.advance.pos 0
        ((c.advance.tokens.toList.drop c.advance.pos).map (·.token)) = some _ := hshift
    rw [hfound]
    refine gives_bind.mpr ⟨(), _, gives_modify.mpr rfl, gives_pure.mpr ⟨?_, rfl⟩⟩
    exact congrArg dropEmptyLast (htexts ranges).symm

theorem gives_tableBody {name : QualifiedName} {definition : TableDefinition} :
    Gives (tableBody name) c definition d ↔
      ∃ texts elements, Gives bodyElements c texts d ∧ texts.mapM element? = some elements ∧
        definition = { name, columns := columnsOf elements, constraints := constraintsOf elements } := by
  unfold tableBody
  simp only [gives_bind]
  constructor
  · rintro ⟨texts, m, htexts, h⟩
    split at h
    · rename_i elements helements
      obtain ⟨rfl, rfl⟩ := gives_pure.mp h
      exact ⟨texts, elements, htexts, helements, rfl⟩
    · exact absurd h not_gives_failure
  · rintro ⟨texts, elements, htexts, helements, rfl⟩
    refine ⟨texts, d, htexts, ?_⟩
    rw [helements]
    exact gives_pure.mpr ⟨rfl, rfl⟩

/-- The elements of a body are read in front of any tokens. -/
theorem gives_bodyElements_append {texts : List String} (h : Gives bodyElements c texts d)
    (hrest : c'.rest = c.rest ++ more) :
    ∃ d', Gives bodyElements c' texts d' ∧ d'.rest = d.rest ++ more := by
  obtain ⟨hsees, ranges, stop, hranges, rfl, rfl⟩ := gives_bodyElements.mp h
  obtain ⟨hsees', hrest'⟩ := sees_append hsees hrest
  obtain ⟨hstop, hstops⟩ := elementRanges_le hranges
  rw [Nat.zero_add] at hstop hstops
  refine ⟨_, gives_bodyElements.mpr ⟨hsees', ranges, stop, ?_, ?_, rfl⟩, ?_⟩
  · rw [hrest']
    exact elementRanges_append hranges more
  · rw [hrest']
    refine congrArg dropEmptyLast (List.map_congr_left fun range hrange => ?_)
    rw [List.take_append_of_le_length (hstops range hrange)]
  · rw [rest_moveTo_add, rest_moveTo_add, hrest', List.drop_append_of_le_length hstop]

end Body

/-! ## Tables -/

theorem table_eq : table = headedName "CREATE" "TABLE" >>= tableBody := by
  unfold table headedName
  simp only [bind_assoc, pure_bind]

/-- A table is read in front of any tokens. -/
theorem gives_table_append {c c' d : Cursor} {definition : TableDefinition} {more : List Token}
    (h : Gives table c definition d) (hrest : c'.rest = c.rest ++ more) :
    ∃ d', Gives table c' definition d' ∧ d'.rest = d.rest ++ more := by
  rw [table_eq] at h ⊢
  obtain ⟨name, m, hhead, hbody⟩ := gives_bind.mp h
  obtain ⟨texts, elements, htexts, helements, rfl⟩ := gives_tableBody.mp hbody
  -- The head ends before a parenthesis, so it has not seen what follows the table.
  obtain ⟨token, htoken, hm⟩ := exists_token_of_sees (gives_bodyElements.mp htexts).1
  have hvisible : ¬ Body.IsBlank m.rest := by
    intro hblank
    have hspace := hblank token (by rw [hm]; exact List.mem_cons_self)
    cases token with
    | blank => cases htoken
    | _ => cases hspace
  obtain ⟨m', hhead', hm'⟩ := (local_headedName flat_admits _ _).append hhead hvisible hrest
  obtain ⟨d', htexts', hd'⟩ := gives_bodyElements_append htexts hm'
  exact ⟨d', gives_bind.mpr ⟨name, m', hhead', gives_tableBody.mpr
    ⟨texts, elements, htexts', helements, rfl⟩⟩, hd'⟩

end SchemaPlan.Definition
