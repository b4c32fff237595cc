import SchemaPlan.Text.Basic

/-!
# Batches

A script is cut into batches at the lines that hold only the word `GO`, in any case. A count, a
semicolon or a comment may follow the word. A batch keeps the exact text of its lines, line ends
included, and the number of its first line.
-/

namespace SchemaPlan

/-- The lines of a text with their line ends, in order. -/
def linesOf : List Char → List (List Char)
  | [] => []
  | c :: rest =>
    if c = '\n' then [c] :: linesOf rest
    else match linesOf rest with
      | line :: lines => (c :: line) :: lines
      | [] => [[c]]

/-- The lines put together are the text. -/
theorem flatten_linesOf (chars : List Char) : (linesOf chars).flatten = chars := by
  induction chars with
  | nil => rfl
  | cons c rest ih =>
    by_cases h : c = '\n'
    · simp [linesOf, h, ih]
    · simp only [linesOf, h, if_false]
      split
      · next line lines hl => simpa [hl] using ih
      · next hl => simpa [hl] using ih

/-- What may follow the word of a separator: nothing, a semicolon, a comment, or a count after a
blank. -/
def endsSeparator (after : List Char) : Bool :=
  let tail := after.dropWhile Text.isSpace
  tail == [] || tail == [';'] || ['-', '-'].isPrefixOf tail ||
    (after.head?.any Text.isSpace && tail.all Char.isDigit)

/-- Whether a line separates batches. -/
def isSeparator (line : List Char) : Bool :=
  match Text.trimBoth Text.isSpace line with
  | first :: second :: after =>
    first.toLower == 'g' && second.toLower == 'o' && endsSeparator after
  | _ => false

/-- Consecutive lines between separators. -/
structure Batch where
  text : String
  /-- The number of the first line, counted from one. -/
  line : Nat
deriving Repr, DecidableEq, Inhabited

/-- The batch of the lines read since a separator; none if there are no such lines. The last line
read stands first. -/
def batchOf (start : Nat) (read : List (List Char)) : List Batch :=
  if read.isEmpty then [] else [⟨String.ofList read.reverse.flatten, start⟩]

/-- The batches of lines, the first of which has the number `line`. Since the separator before line
`start` the lines `read` have been read. -/
def batchesOfLines (start line : Nat) (read : List (List Char)) : List (List Char) → List Batch
  | [] => batchOf start read
  | next :: rest =>
    if isSeparator next then batchOf start read ++ batchesOfLines (line + 1) (line + 1) [] rest
    else batchesOfLines start (line + 1) (next :: read) rest

/-- The batches of a script. -/
def Batch.split (text : String) : List Batch :=
  batchesOfLines 1 1 [] (linesOf text.toList)

end SchemaPlan
