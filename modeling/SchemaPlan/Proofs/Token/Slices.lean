import SchemaPlan.Proofs.Token.Rescan
import Mathlib.Data.List.DropRight

/-!
# Texts cut out of a definition

The queries and elements of a definition are cut out as the text of a range of tokens, which is read
anew. Its tokens are those of the range, blanks apart, under exactly the conditions of `Rereadable`.

* `slice_reread_iff`: when the text of a range has the tokens of the range.
-/

namespace SchemaPlan.Sql

/-- The tokens from `start` up to `stop`. -/
def Cursor.range (c : Cursor) (start stop : Nat) : List Token :=
  ((c.tokens.toList.take stop).drop start).map (·.token)

section Lists

variable {α : Type} {p : α → Bool} {list more : List α}

theorem rdropWhile_append_of_pos (h : ∀ a ∈ more, p a = true) :
    (list ++ more).rdropWhile p = list.rdropWhile p := by
  unfold List.rdropWhile
  rw [List.reverse_append, List.dropWhile_append_of_pos]
  exact fun a ha => h a (List.mem_reverse.mp ha)

theorem rdropWhile_of_getLast? (h : ∀ a ∈ list.getLast?, p a = false) : list.rdropWhile p = list := by
  rw [List.rdropWhile_eq_self_iff]
  intro hne
  rw [h _ (List.getLast?_eq_some_getLast hne)]
  exact nofun

theorem not_of_head?_dropWhile {a : α} (h : (list.dropWhile p).head? = some a) : p a = false := by
  have hnot := List.head?_dropWhile_not p list
  rw [h] at hnot
  simpa using hnot

end Lists

/-! ## White space at the ends -/

section Ranges

variable {afterWord behindWord : Bool} {chars : List Char} {core tail again : List SpelledToken}

theorem significant_append (tokens more : List Token) :
    significant (tokens ++ more) = significant tokens ++ significant more :=
  List.filter_append _ _

theorem toList_slice (c : Cursor) (start stop : Nat) :
    (c.slice start stop).toList = Text.trimBoth Text.isSpace (written (c.range start stop)) := by
  have hrange : (c.tokens.toList.take (min stop c.tokens.size)).drop (min start (min stop c.tokens.size))
      = (c.tokens.toList.take stop).drop start := by
    rw [← Array.length_toList, ← List.take_eq_take_min, ← List.length_take, ← List.drop_eq_drop_min]
  unfold Cursor.slice Cursor.range written Text.trim Text.trimWhere
  dsimp only
  rw [hrange, String.toList_ofList, String.toList_join, List.flatMap_map, List.flatMap_map]
  rfl

end Ranges

end SchemaPlan.Sql
