import SchemaPlan.Text.Basic
import SchemaPlan.Text.Ranges

/-!
# Markup

The tags, the text and the other pieces that an XML document is made of, in the order in which they
are written. Document types and entities of a document's own are not known.
-/

namespace SchemaPlan.Xml

/-! ## Characters -/

/-- White space of a document. -/
def isBlank (c : Char) : Bool := c == ' ' || c == '\t' || c == '\n' || c == '\r'

/-- Characters that a document may hold. -/
def isAllowed (c : Char) : Bool :=
  isBlank c || (32 ≤ c.toNat && c.toNat ≠ 0xFFFE && c.toNat ≠ 0xFFFF)

/-- The characters beyond ASCII that a name may start with. -/
def nameStartRanges : Text.Ranges :=
  [(0xC0, 0xD6), (0xD8, 0xF6), (0xF8, 0x2FF), (0x370, 0x37D), (0x37F, 0x1FFF), (0x200C, 0x200D),
   (0x2070, 0x218F), (0x2C00, 0x2FEF), (0x3001, 0xD7FF), (0xF900, 0xFDCF), (0xFDF0, 0xFFFD),
   (0x10000, 0xEFFFF)]

/-- Characters that a name may start with. -/
def isNameStart (c : Char) : Bool :=
  if c.toNat ≤ 128 then c.isAlpha || c == ':' || c == '_'
  else nameStartRanges.has c

/-- Characters that a name may hold. -/
def isNameChar (c : Char) : Bool :=
  isNameStart c || c.isDigit || c == '-' || c == '.' || c.toNat == 0xB7 ||
    (0x300 ≤ c.toNat && c.toNat ≤ 0x36F) || (0x203F ≤ c.toNat && c.toNat ≤ 0x2040)

/-! ## Names -/

/-- A name with the space it is taken from, which may be empty. -/
structure Name where
  space : String
  name : String
deriving Repr, DecidableEq, Inhabited

/-- The first characters of a text that satisfy `p`, and the text after them. -/
def spanChars (p : Char → Bool) (chars : List Char) : List Char × List Char :=
  (chars.takeWhile p, chars.dropWhile p)

/-- The text after its blanks. -/
def skipBlanks (chars : List Char) : List Char := chars.dropWhile isBlank

/-- Whether a part of a name starts as a name does. -/
def startsName (part : List Char) : Bool := part.head?.all isNameStart

/-- A name, and the text after it. One colon may stand between a space and the rest. -/
def readName? (chars : List Char) : Option (Name × List Char) :=
  let (word, rest) := spanChars isNameChar chars
  let found := match Text.splitList (· == ':') word with
    | [name] => some ([], name)
    | [space, name] => some (space, name)
    | _ => none
  found.bind fun (space, name) =>
    if name.isEmpty || !startsName name || !startsName space then none
    else some (⟨String.ofList space, String.ofList name⟩, rest)

/-- The text after a mark. -/
def after? (mark : String) (chars : List Char) : Option (List Char) :=
  if mark.toList.isPrefixOf chars then some (chars.drop mark.toList.length) else none

/-- The text before the first of a mark, and the text after the mark. -/
def upTo? (mark : String) : List Char → Option (List Char × List Char)
  | [] => none
  | c :: chars =>
    match after? mark (c :: chars) with
    | some rest => some ([], rest)
    | none => (upTo? mark chars).map fun (before, rest) => (c :: before, rest)

/-- Whether a mark stands somewhere in a text. -/
def holds (mark : String) (chars : List Char) : Bool := (upTo? mark chars).isSome

/-! ## References -/

/-- The number that digits of a base spell, if there are any and all are digits of the base. -/
def digits? (base : Nat) (word : List Char) : Option Nat :=
  if word.isEmpty then none
  else word.foldlM (fun sum c =>
    let n := c.toNat
    let digit :=
      if c.isDigit then n - '0'.toNat
      else if 'a' ≤ c && c ≤ 'f' then n - 'a'.toNat + 10
      else if 'A' ≤ c && c ≤ 'F' then n - 'A'.toNat + 10
      else base
    if digit < base then some (sum * base + digit) else none) 0

/-- The character of a code that fits in four bytes; a code that no character has stands for the
replacement character. -/
def ofCode? (code : Nat) : Option Char :=
  if 4294967296 ≤ code then none
  else
    let c := if h : code.isValidChar then Char.ofNatAux code h else '\uFFFD'
    if isAllowed c then some c else none

/-- The character that a reference names. -/
def ofReference? : List Char → Option Char
  | '#' :: 'x' :: word => (digits? 16 word).bind ofCode?
  | '#' :: word => (digits? 10 word).bind ofCode?
  | word =>
    match String.ofList word with
    | "quot" => some '"'
    | "amp" => some '&'
    | "apos" => some '\''
    | "lt" => some '<'
    | "gt" => some '>'
    | _ => none

/-- The first character of a text in which references stand for characters, and the text after it.
Line ends are written in one way only, which is `lineEnd`. -/
def readChar? (lineEnd : Char) : List Char → Option (Char × List Char)
  | [] => none
  | '&' :: rest => (upTo? ";" rest).bind fun (word, more) => (ofReference? word).map (·, more)
  | '\r' :: '\n' :: rest => some (lineEnd, rest)
  | '\r' :: rest => some (lineEnd, rest)
  | '\n' :: rest => some (lineEnd, rest)
  | c :: rest => some (c, rest)

/-- The characters that a text stands for, if each of its references names one. -/
def readChars? (lineEnd : Char) (chars : List Char) : Option (List Char) :=
  if chars.isEmpty then some []
  else
    match readChar? lineEnd chars with
    | none => none
    | some (c, rest) =>
      if _h : rest.length < chars.length then (readChars? lineEnd rest).map (c :: ·) else none
termination_by chars.length

/-- What a text between tags stands for. -/
def textValue? (raw : List Char) : Option String :=
  (readChars? '\n' raw).map String.ofList

/-- What the value of an attribute stands for; all of its blanks are spaces. -/
def attributeValue? (raw : List Char) : Option String :=
  (readChars? ' ' (raw.map fun c => if c = '\t' then ' ' else c)).map String.ofList

/-! ## Pieces -/

/-- A piece of a document. -/
inductive Markup where
  | opening (name : Name) (attributes : List (Name × String))
  | closing (name : Name)
  /-- Text as it is written, references and all. -/
  | text (raw : List Char)
  /-- Text that holds no references. -/
  | verbatim (raw : List Char)
  /-- A comment or an instruction. -/
  | aside
deriving Repr, DecidableEq, Inhabited

/-- An attribute, and the text after it. -/
def readAttribute? (chars : List Char) : Option ((Name × String) × List Char) := do
  let (name, rest) ← readName? chars
  let rest ← after? "=" (skipBlanks rest)
  match skipBlanks rest with
  | quote :: rest =>
    if quote = '"' || quote = '\'' then
      let (raw, rest) := spanChars (fun c => c ≠ quote && c ≠ '<') rest
      let rest ← after? (String.ofList [quote]) rest
      return ((name, ← attributeValue? raw), rest)
    else none
  | [] => none

/-- The attributes of a tag, whether the tag is closed at once, and the text after the tag. Blanks
stand before each attribute. -/
def readAttributes? (chars : List Char) : Option (List (Name × String) × Bool × List Char) :=
  match skipBlanks chars with
  | '>' :: rest => some ([], false, rest)
  | '/' :: '>' :: rest => some ([], true, rest)
  | inner =>
    if inner.length < chars.length then
      match readAttribute? inner with
      | none => none
      | some (first, rest) =>
        if _h : rest.length < chars.length then
          (readAttributes? rest).map fun (more, isEmpty, after) =>
            (first :: more, isEmpty, after)
        else none
    else none
termination_by chars.length

/-- A comment after its opening mark. Two dashes stand at its end only. -/
def readComment? (chars : List Char) : Option (List Char) :=
  (upTo? "-->" chars).bind fun (inside, rest) =>
    if holds "--" (inside ++ ['-']) then none else some rest

/-- An instruction after its opening mark. Its name is not that of a declaration. -/
def readInstruction? (chars : List Char) : Option (List Char) :=
  let (word, _) := spanChars isNameChar chars
  if (after? "xml " chars).isSome || word.isEmpty || !startsName word then none
  else (upTo? "?>" (skipBlanks (chars.drop word.length))).map (·.2)

/-- The first pieces of a text, and the text after them. A tag that is closed at once gives two. -/
def readMarkup? (chars : List Char) : Option (List Markup × List Char) :=
  if let some rest := after? "<!--" chars then
    (readComment? rest).map ([.aside], ·)
  else if let some rest := after? "<![CDATA[" chars then
    (upTo? "]]>" rest).map fun (inside, more) => ([.verbatim inside], more)
  else if let some rest := after? "<?" chars then
    (readInstruction? rest).map ([.aside], ·)
  else if let some rest := after? "</" chars then
    (readName? rest).bind fun (name, rest) =>
      (after? ">" (skipBlanks rest)).map ([.closing name], ·)
  else if let some rest := after? "<" chars then
    (readName? rest).bind fun (name, rest) =>
      (readAttributes? rest).map fun (attributes, isEmpty, more) =>
        (.opening name attributes :: (if isEmpty then [.closing name] else []), more)
  else
    let (raw, rest) := spanChars (· ≠ '<') chars
    if holds "]]>" raw then none else some ([.text raw], rest)

/-- The pieces of a text. -/
def readAll? (chars : List Char) : Option (List Markup) :=
  if chars.isEmpty then some []
  else
    match readMarkup? chars with
    | none => none
    | some (pieces, rest) =>
      if _h : rest.length < chars.length then (readAll? rest).map (pieces ++ ·) else none
termination_by chars.length

/-! ## Documents -/

/-- A blank between the parts of a declaration, or its end. -/
def declarationGap? (chars : List Char) : Option (List Char) :=
  if chars.head?.any isBlank then some (skipBlanks chars)
  else if chars.isEmpty || (after? "?>" chars).isSome then some chars
  else none

/-- The text after a part of a declaration, where the part is there. -/
def declarationPart? (name : String) (chars : List Char) : Option (List Char) :=
  if (after? name chars).isSome then (readAttribute? chars).map (·.2) else some chars

/-- The text after a declaration, which names the version first and may name the encoding and
whether the document stands alone. -/
def afterDeclaration? (chars : List Char) : Option (List Char) := do
  match after? "<?xml " chars with
  | none => return chars
  | some rest =>
    let rest := skipBlanks rest
    let _ ← after? "version" rest
    let rest ← declarationGap? (← declarationPart? "version" rest)
    let rest ← if (after? "encoding" rest).isSome then
        (declarationPart? "encoding" rest).bind declarationGap?
      else some rest
    let rest ← declarationPart? "standalone" rest
    after? "?>" (skipBlanks rest)

/-- The pieces of a document after its declaration. -/
def markupOf? (text : String) : Option (List Markup) :=
  let chars := text.toList
  let chars := if chars.head? == some '\uFEFF' then chars.drop 1 else chars
  if chars.all isAllowed then (afterDeclaration? chars).bind readAll? else none

end SchemaPlan.Xml
