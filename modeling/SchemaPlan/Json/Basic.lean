import SchemaPlan.Text.Basic

/-!
# JSON values

The value of a document and its text. The fields of an object keep the order in which they are
given, and a name may stand more than once. Non-empty arrays and objects take one line for each
item, indented by two blanks for each level.
-/

namespace SchemaPlan

/-- A value of a document; all numbers are whole. -/
inductive Json where
  | null
  | bool (value : Bool)
  | number (value : Int)
  | text (value : String)
  | array (items : List Json)
  | object (fields : List (String × Json))
deriving Repr, Inhabited

namespace Json

/-! ## Building values -/

/-- The value of something that may be missing. -/
def optional {α : Type} (encode : α → Json) : Option α → Json
  | some value => encode value
  | none => null

/-- The value of a natural number. -/
def natural (n : Nat) : Json := number n

/-- The array of the values of a list. -/
def list {α : Type} (encode : α → Json) (values : List α) : Json :=
  array (values.map encode)

/-- The array of texts. -/
def texts (values : List String) : Json := list text values

/-! ## Text -/

/-- A digit of base sixteen below ten, or a small letter. -/
def hexDigit (n : Nat) : Char :=
  if n < 10 then Char.ofNat ('0'.toNat + n) else Char.ofNat ('a'.toNat + (n - 10))

/-- A character inside quotes. Quotes, backslashes and control characters are escaped. -/
def escapeChar (c : Char) : List Char :=
  if c = '"' then ['\\', '"']
  else if c = '\\' then ['\\', '\\']
  else if c = '\n' then ['\\', 'n']
  else if c = '\r' then ['\\', 'r']
  else if c = '\t' then ['\\', 't']
  else if c.toNat = 8 then ['\\', 'b']
  else if c.toNat = 12 then ['\\', 'f']
  else if c.toNat < 32 then
    ['\\', 'u', '0', '0', hexDigit (c.toNat / 16), hexDigit (c.toNat % 16)]
  else [c]

/-- A text in quotes. -/
def quoted (value : String) : String :=
  String.ofList ('"' :: value.toList.flatMap escapeChar ++ ['"'])

/-- The start of a line at a depth. -/
def lineStart (depth : Nat) : String :=
  String.ofList ('\n' :: List.replicate (2 * depth) ' ')

mutual

/-- The text of a value whose first line stands at a depth. -/
def render (depth : Nat) : Json → String
  | null => "null"
  | bool true => "true"
  | bool false => "false"
  | number value => toString value
  | text value => quoted value
  | array [] => "[]"
  | array (item :: rest) =>
    "[" ++ lineStart (depth + 1) ++ render (depth + 1) item ++ renderItems (depth + 1) rest ++
      lineStart depth ++ "]"
  | object [] => "\x7b\x7d"
  | object ((name, value) :: rest) =>
    "\x7b" ++ lineStart (depth + 1) ++ quoted name ++ ": " ++ render (depth + 1) value ++
      renderFields (depth + 1) rest ++ lineStart depth ++ "\x7d"

/-- The items after the first, each on a line of its own. -/
def renderItems (depth : Nat) : List Json → String
  | [] => ""
  | item :: rest => "," ++ lineStart depth ++ render depth item ++ renderItems depth rest

/-- The fields after the first, each on a line of its own. -/
def renderFields (depth : Nat) : List (String × Json) → String
  | [] => ""
  | (name, value) :: rest =>
    "," ++ lineStart depth ++ quoted name ++ ": " ++ render depth value ++
      renderFields depth rest

end

/-- The text of a document. -/
def document (value : Json) : String := render 0 value

end Json

end SchemaPlan
