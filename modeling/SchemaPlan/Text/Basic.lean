/-!
# Text operations

Blank characters, trimming, splitting and comparison without regard to ASCII case. Each function
is a wrapper over the list of characters, so that its behaviour can be reasoned about on lists.
-/

namespace SchemaPlan.Text

/-! ## Blank characters -/

/-- White space of every script (the Unicode property `White_Space`). -/
def isSpace (c : Char) : Bool :=
  let n := c.toNat
  (9 ≤ n && n ≤ 13) || n == 32 || n == 0x85 || n == 0xA0 || n == 0x1680 ||
    (0x2000 ≤ n && n ≤ 0x200A) || n == 0x2028 || n == 0x2029 || n == 0x202F || n == 0x205F ||
    n == 0x3000

/-- What remains of a list once the elements that satisfy `drop` are gone from both ends. -/
def trimBoth (drop : Char → Bool) (chars : List Char) : List Char :=
  ((chars.dropWhile drop).reverse.dropWhile drop).reverse

/-- A text without the characters that satisfy `drop` at its ends. -/
def trimWhere (drop : Char → Bool) (text : String) : String :=
  String.ofList (trimBoth drop text.toList)

/-- A text without white space at its ends. -/
def trim (text : String) : String :=
  trimWhere isSpace text

/-- A text without white space at its start. -/
def trimStart (text : String) : String :=
  String.ofList (text.toList.dropWhile isSpace)

/-! ## Splitting and joining -/

/-- The parts of a list between the elements that satisfy `cut`; one more part than cuts. -/
def splitList (cut : Char → Bool) : List Char → List (List Char)
  | [] => [[]]
  | c :: rest =>
    if cut c then [] :: splitList cut rest
    else match splitList cut rest with
      | part :: parts => (c :: part) :: parts
      | [] => [[c]]

/-- The parts of a text between the characters that satisfy `cut`. -/
def splitWhere (cut : Char → Bool) (text : String) : List String :=
  (splitList cut text.toList).map String.ofList

/-- The non-empty runs of characters between white space. -/
def words (text : String) : List String :=
  (splitWhere isSpace text).filter (· ≠ "")

/-- The texts in order with `separator` between neighbours. -/
def joinWith (separator : String) : List String → String
  | [] => ""
  | [text] => text
  | text :: rest => text ++ separator ++ joinWith separator rest

/-- Every occurrence of `c` replaced by the text `by'`. -/
def replaceChar (c : Char) (by' : String) (text : String) : String :=
  String.ofList (text.toList.flatMap fun d => if d = c then by'.toList else [d])

/-! ## ASCII case -/

/-- ASCII capitals become small letters; all else is kept. -/
def asciiLower (text : String) : String :=
  String.ofList (text.toList.map Char.toLower)

/-- ASCII small letters become capitals; all else is kept. -/
def asciiUpper (text : String) : String :=
  String.ofList (text.toList.map Char.toUpper)

/-- Equality of lists without regard to ASCII case. -/
def sameLetters : List Char → List Char → Bool
  | [], [] => true
  | a :: as, b :: bs => a.toLower == b.toLower && sameLetters as bs
  | _, _ => false

/-- Equality without regard to ASCII case. -/
def sameText (a b : String) : Bool :=
  sameLetters a.toList b.toList

/-- Two lists are the same letters exactly when their lower cases are equal. -/
theorem sameLetters_iff (as bs : List Char) :
    sameLetters as bs = true ↔ as.map Char.toLower = bs.map Char.toLower := by
  induction as generalizing bs with
  | nil => cases bs <;> simp [sameLetters]
  | cons a as ih => cases bs <;> simp [sameLetters, ih]

/-- Two texts are the same exactly when their ASCII lower cases are equal. -/
theorem sameText_iff (a b : String) : sameText a b = true ↔ asciiLower a = asciiLower b := by
  rw [sameText, sameLetters_iff, asciiLower, asciiLower]
  exact ⟨fun h => by rw [h], fun h => by simpa using congrArg String.toList h⟩

/-! ## Prefixes -/

/-- What follows `start` in `text`, if `text` starts with it. -/
def after? (start text : String) : Option String :=
  if start.toList.isPrefixOf text.toList then
    some (String.ofList (text.toList.drop start.toList.length))
  else none

/-- Whether `text` starts with `start`. -/
def startsWith (start text : String) : Bool :=
  start.toList.isPrefixOf text.toList

/-- Whether `text` ends with `ending`. -/
def endsWith (ending text : String) : Bool :=
  ending.toList.isSuffixOf text.toList

/-! ## Whole numbers -/

/-- The number that a non-empty row of ASCII digits spells, if it is below `limit`. -/
def natBelow? (limit : Nat) (text : String) : Option Nat :=
  let digits := text.toList
  if digits.isEmpty || !digits.all Char.isDigit then none
  else
    let n := digits.foldl (fun sum c => sum * 10 + (c.toNat - '0'.toNat)) 0
    if n < limit then some n else none

end SchemaPlan.Text
