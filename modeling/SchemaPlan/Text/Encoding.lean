import SchemaPlan.Text.Basic

/-!
# Encodings of text files

A file is text in UTF-8 if its bytes are well formed. Otherwise a mark at its start names the
encoding, and a file without a mark holds one character of the Western European code page 1252 in
each byte.
-/

namespace SchemaPlan.Text

/-- The text whose UTF-8 form is a list of bytes. -/
def ofUtf8? (bytes : ByteArray) : Option String :=
  String.fromUTF8? bytes

/-! ## UTF-16 -/

/-- The order of the two bytes of a unit. -/
inductive ByteOrder where
  | littleEndian
  | bigEndian
deriving Repr, DecidableEq, Inhabited

/-- The units of a list of bytes, if their number is even. -/
def units? (order : ByteOrder) : List UInt8 → Option (List Nat)
  | [] => some []
  | [_] => none
  | a :: b :: rest =>
    let unit := match order with
      | .littleEndian => a.toNat + 256 * b.toNat
      | .bigEndian => 256 * a.toNat + b.toNat
    (units? order rest).map (unit :: ·)

/-- The first unit of a pair. -/
def isHighSurrogate (unit : Nat) : Bool := 0xD800 ≤ unit && unit < 0xDC00

/-- The second unit of a pair. -/
def isLowSurrogate (unit : Nat) : Bool := 0xDC00 ≤ unit && unit < 0xE000

/-- The characters of a list of units, if every surrogate is part of a pair. -/
def ofUnits? : List Nat → Option (List Char)
  | [] => some []
  | [unit] =>
    if isHighSurrogate unit || isLowSurrogate unit then none else some [Char.ofNat unit]
  | first :: second :: rest =>
    if isHighSurrogate first then
      if isLowSurrogate second then
        let code := 0x10000 + 0x400 * (first - 0xD800) + (second - 0xDC00)
        (ofUnits? rest).map (Char.ofNat code :: ·)
      else none
    else if isLowSurrogate first then none
    else (ofUnits? (second :: rest)).map (Char.ofNat first :: ·)

/-- The text whose UTF-16 form is a list of bytes. -/
def ofUtf16? (order : ByteOrder) (bytes : List UInt8) : Option String :=
  ((units? order bytes).bind ofUnits?).map String.ofList

/-! ## Code page 1252 -/

/-- The codes of the characters 0x80 to 0x9F of code page 1252. -/
def codePageTable : List Nat :=
  [0x20AC, 0x81, 0x201A, 0x192, 0x201E, 0x2026, 0x2020, 0x2021, 0x2C6, 0x2030, 0x160, 0x2039,
   0x152, 0x8D, 0x17D, 0x8F, 0x90, 0x2018, 0x2019, 0x201C, 0x201D, 0x2022, 0x2013, 0x2014, 0x2DC,
   0x2122, 0x161, 0x203A, 0x153, 0x9D, 0x17E, 0x178]

/-- The character of a byte in code page 1252. -/
def ofCodePage (byte : UInt8) : Char :=
  let n := byte.toNat
  Char.ofNat (if 0x80 ≤ n then codePageTable.getD (n - 0x80) n else n)

/-! ## Files -/

/-- The text of a file, or none if it is not well formed in the encoding that it claims. -/
def decode? (content : ByteArray) : Option String :=
  (ofUtf8? content).or <|
    match content.toList with
    | 0xFF :: 0xFE :: rest => ofUtf16? .littleEndian rest
    | 0xFE :: 0xFF :: rest => ofUtf16? .bigEndian rest
    | 0xEF :: 0xBB :: 0xBF :: _ => none
    | bytes => some (String.ofList (bytes.map ofCodePage))

end SchemaPlan.Text
