import SchemaPlan.Text.Basic

/-!
# Path patterns

A pattern matches paths. `?` stands for one character, `*` for any text, brackets for one of the
characters in them, or for any other one after `!`, and two stars that are a whole part of the path
for any number of directories.
-/

namespace SchemaPlan.Path

/-! ## Patterns -/

/-- A run of characters; a single character is a run from itself to itself. -/
structure CharRun where
  first : Char
  last : Char
deriving Repr, DecidableEq, Inhabited

/-- What one piece of a pattern stands for. -/
inductive PatternPiece where
  | literal (c : Char)
  | anyChar
  | anyText
  /-- Any number of whole directories. -/
  | anyDirectories
  /-- A character in one of the runs. -/
  | within (runs : List CharRun)
  /-- A character in none of the runs. -/
  | except (runs : List CharRun)
deriving Repr, DecidableEq, Inhabited

/-- The pieces of a pattern in order. -/
abbrev Pattern := List PatternPiece

/-! ## Reading -/

/-- The runs that brackets hold. -/
def charRuns : List Char → List CharRun
  | a :: '-' :: b :: rest => ⟨a, b⟩ :: charRuns rest
  | a :: rest => ⟨a, a⟩ :: charRuns rest
  | [] => []

/-- The text up to the bracket that closes a class, and the text after it. The first character never
closes the class. -/
def classEnd? : List Char → Option (List Char × List Char)
  | [] => none
  | c :: rest =>
    if rest.contains ']' then
      some (c :: rest.takeWhile (· ≠ ']'), (rest.dropWhile (· ≠ ']')).drop 1)
    else none

/-- The class after an open bracket, and the text after it. -/
def readClass? : List Char → Option (PatternPiece × List Char)
  | '!' :: rest => (classEnd? rest).map fun (inside, more) => (.except (charRuns inside), more)
  | rest => (classEnd? rest).map fun (inside, more) => (.within (charRuns inside), more)

/-- What a row of stars after a character stands for, and the text after it. Two stars are a whole
part of the path together with the slash that follows them. -/
def readStars? (before : Option Char) (stars : Nat) (rest : List Char) :
    Option (PatternPiece × List Char) :=
  if stars = 1 then some (.anyText, rest)
  else if stars = 2 && before.all (· == '/') then
    match rest with
    | [] => some (.anyDirectories, [])
    | '/' :: more => some (.anyDirectories, more)
    | _ => none
  else none

/-- The first piece of a text, and the text after the piece. -/
def readPiece? (before : Option Char) : List Char → Option (PatternPiece × List Char)
  | [] => none
  | '?' :: rest => some (.anyChar, rest)
  | '[' :: rest => readClass? rest
  | '*' :: rest =>
    readStars? before ((rest.takeWhile (· == '*')).length + 1) (rest.dropWhile (· == '*'))
  | c :: rest => some (.literal c, rest)

/-- The pieces of a text that follows a character. -/
def readPieces? (before : Option Char) (chars : List Char) : Option Pattern :=
  if chars.isEmpty then some []
  else
    match readPiece? before chars with
    | none => none
    | some (piece, rest) =>
      if _h : rest.length < chars.length then
        let last := (chars.take (chars.length - rest.length)).getLast?
        (readPieces? last rest).map (piece :: ·)
      else none
termination_by chars.length

/-- The pattern that a text spells. -/
def Pattern.ofText? (text : String) : Option Pattern := readPieces? none text.toList

/-- The text that a pattern of nothing but characters matches. -/
def Pattern.literal? : Pattern → Option String
  | [] => some ""
  | .literal c :: rest => (Pattern.literal? rest).map (String.ofList [c] ++ ·)
  | _ => none

/-! ## Matching -/

/-- A list and all that remains of it after some of its first elements. -/
def suffixes : List Char → List (List Char)
  | [] => [[]]
  | c :: rest => (c :: rest) :: suffixes rest

/-- What remains of a path after some of its first directories, or after all of it. -/
def afterDirectories : List Char → List (List Char)
  | [] => [[]]
  | c :: rest => if c = '/' then rest :: afterDirectories rest else afterDirectories rest

/-- Whether a character is in one of some runs. -/
def inRuns (runs : List CharRun) (c : Char) : Bool :=
  runs.any fun run => run.first ≤ c && c ≤ run.last

/-- Whether a pattern matches all of a text. -/
def Pattern.matchesChars : Pattern → List Char → Bool
  | [], chars => chars.isEmpty
  | .anyText :: rest, chars => (suffixes chars).any (Pattern.matchesChars rest)
  | .anyDirectories :: rest, chars =>
    (chars :: afterDirectories chars).any (Pattern.matchesChars rest)
  | .literal a :: rest, c :: chars => a == c && Pattern.matchesChars rest chars
  | .anyChar :: rest, _ :: chars => Pattern.matchesChars rest chars
  | .within runs :: rest, c :: chars => inRuns runs c && Pattern.matchesChars rest chars
  | .except runs :: rest, c :: chars => !inRuns runs c && Pattern.matchesChars rest chars
  | _ :: _, [] => false

/-- Whether a pattern matches all of a text. -/
def Pattern.matches (pattern : Pattern) (text : String) : Bool :=
  pattern.matchesChars text.toList

/-- Whether a text holds the mark of a pattern. -/
def isPattern (text : String) : Bool := text.toList.contains '*'

end SchemaPlan.Path
