import SchemaPlan.Sql.Token
import SchemaPlan.Text.Alphabetic
import SchemaPlan.Text.Numeric

/-!
# Reading tokens

`scan` cuts SQL text into tokens and notes the line of each. Every character belongs to exactly
one token. A text has no tokens when a quoted word, a string literal or a block comment is not
closed, or when a period directly before an underscore does not follow a word.

A number takes at most one period and one exponent; a period without digits is a mark. Block
comments do not nest. A word starts with a letter or one of `_ # @`; it goes on with letters,
ASCII digits and `_ # @ $`.
-/

namespace SchemaPlan.Sql

/-- Where a text that has no tokens is reported: where the broken token starts, or at the end. -/
inductive ScanFault where
  | here | atEnd
deriving Repr, DecidableEq

/-- The line on which a text stops having tokens. -/
structure ScanError where
  line : Nat
deriving Repr, DecidableEq

/-- What a single reading step yields: a token and the characters after it. -/
abbrev ScanStep := Except ScanFault (Token × List Char)

/-! ## Words -/

/-- Characters that open an unquoted word. -/
def isWordStart (c : Char) : Bool :=
  Text.isLetter c || c == '_' || c == '#' || c == '@'

/-- Characters that continue an unquoted word. -/
def isWordPart (c : Char) : Bool :=
  Text.isLetter c || c.isDigit || c == '@' || c == '$' || c == '#' || c == '_'

/-- An unquoted word that begins with the characters `start`, already read. -/
def scanWord (start rest : List Char) : Token × List Char :=
  let parts := rest.span isWordPart
  (.word (String.ofList (start ++ parts.1)) .bare, parts.2)

/-- The text up to the closing character, which stands for itself when doubled. -/
def scanQuoted (close : Char) : List Char → Option (List Char × List Char)
  | [] => none
  | c :: rest =>
    if c = close then
      match rest with
      | d :: rest' =>
        if d = close then (scanQuoted close rest').map fun (text, after) => (c :: text, after)
        else some ([], rest)
      | [] => some ([], [])
    else (scanQuoted close rest).map fun (text, after) => (c :: text, after)

/-! ## String literals -/

/-- The character that a backslash and `c` stand for in national and binary literals. -/
def unescapeLetter (c : Char) : Char :=
  match c with
  | '0' => Char.ofNat 0
  | 'a' => Char.ofNat 7
  | 'b' => Char.ofNat 8
  | 'f' => Char.ofNat 12
  | 'n' => '\n'
  | 'r' => '\r'
  | 't' => '\t'
  | 'Z' => Char.ofNat 26
  | _ => c

/-- The text up to the closing quote, where a quote may be doubled and a backslash escapes the
character after it. -/
def scanBackslashed : List Char → Option (List Char × List Char)
  | [] => none
  | '\'' :: '\'' :: rest => (scanBackslashed rest).map fun (text, after) => ('\'' :: text, after)
  | '\'' :: rest => some ([], rest)
  | ['\\'] => none
  | '\\' :: c :: rest =>
    (scanBackslashed rest).map fun (text, after) => (unescapeLetter c :: text, after)
  | c :: rest => (scanBackslashed rest).map fun (text, after) => (c :: text, after)

/-- The value of a digit in bases up to sixteen. -/
def digitValue? (c : Char) : Option Nat :=
  if c.isDigit then some (c.toNat - '0'.toNat)
  else if 'a' ≤ c && c ≤ 'f' then some (c.toNat - 'a'.toNat + 10)
  else if 'A' ≤ c && c ≤ 'F' then some (c.toNat - 'A'.toNat + 10)
  else none

/-- The number that digits of a base spell, if every one is a digit of that base. -/
def numberOfDigits? (base : Nat) (digits : List Char) : Option Nat :=
  digits.foldl (fun sum c => do
    let n ← sum
    let d ← digitValue? c
    if d < base then some (n * base + d) else none) (some 0)

/-- The ASCII character whose code has these digits; codes are taken modulo 256. -/
def asciiOfDigits? (base : Nat) (digits : List Char) : Option Char := do
  let n ← numberOfDigits? base digits
  if n % 256 ≤ 127 then some (Char.ofNat (n % 256)) else none

/-- The character with the code point that hexadecimal digits spell; a plus sign may stand first. -/
def charOfHex? (digits : List Char) : Option Char := do
  let digits ← match digits with
    | '+' :: d :: more => some (d :: more)
    | ['+'] => none
    | _ => some digits
  let n ← numberOfDigits? 16 digits
  if h : n.isValidChar then some (Char.ofNatAux n h) else none

/-- The character that a backslash escape of an `E'..'` literal stands for. -/
def scanEscape : List Char → Option (Char × List Char)
  | [] => none
  | 'b' :: rest => some (Char.ofNat 8, rest)
  | 'f' :: rest => some (Char.ofNat 12, rest)
  | 'n' :: rest => some ('\n', rest)
  | 'r' :: rest => some ('\r', rest)
  | 't' :: rest => some ('\t', rest)
  | 'u' :: rest =>
    if rest.length < 4 then none else (charOfHex? (rest.take 4)).map (·, rest.drop 4)
  | 'U' :: rest =>
    if rest.length < 8 then none else (charOfHex? (rest.take 8)).map (·, rest.drop 8)
  | 'x' :: rest =>
    let digits := (rest.take 2).takeWhile fun c => (digitValue? c).isSome
    -- Without digits behind it the letter stands for itself.
    if digits.isEmpty then some ('x', rest)
    else (asciiOfDigits? 16 digits).map (·, rest.drop digits.length)
  | c :: rest =>
    if '0' ≤ c && c ≤ '7' then
      let more := (rest.take 2).takeWhile fun d => '0' ≤ d && d ≤ '7'
      (asciiOfDigits? 8 (c :: more)).map (·, rest.drop more.length)
    else some (c, rest)

/-- The text of an `E'..'` literal up to its closing quote. The NUL character has no place in it.
`fuel` bounds the number of characters read. -/
def scanEscaped : Nat → List Char → Option (List Char × List Char)
  | 0, _ => none
  | _, [] => none
  | fuel + 1, '\'' :: '\'' :: rest =>
    (scanEscaped fuel rest).map fun (text, after) => ('\'' :: text, after)
  | _, '\'' :: rest => some ([], rest)
  | fuel + 1, '\\' :: rest => do
    let (c, rest) ← scanEscape rest
    if c.toNat = 0 then none
    else (scanEscaped fuel rest).map fun (text, after) => (c :: text, after)
  | fuel + 1, c :: rest => (scanEscaped fuel rest).map fun (text, after) => (c :: text, after)

/-! ## Comments and numbers -/

/-- The text of a block comment up to the first `*/`. -/
def scanBlockComment : List Char → Option (List Char × List Char)
  | [] => none
  | '*' :: '/' :: rest => some ([], rest)
  | c :: rest => (scanBlockComment rest).map fun (text, after) => (c :: text, after)

/-- A line comment takes the line feed that ends it. -/
def scanLineComment (rest : List Char) : Token × List Char :=
  let parts := rest.span (· != '\n')
  match parts.2 with
  | c :: after => (.blank (.lineComment (String.ofList (parts.1 ++ [c]))), after)
  | [] => (.blank (.lineComment (String.ofList parts.1)), [])

/-- The exponent of a number, if one stands here: `e`, an optional sign and at least a digit. -/
def scanExponent (chars : List Char) : List Char × List Char :=
  match chars with
  | e :: rest =>
    if e == 'e' || e == 'E' then
      let (sign, rest') := match rest with
        | s :: more => if s == '+' || s == '-' then ([s], more) else ([], rest)
        | [] => ([], [])
      let digits := rest'.span Char.isDigit
      -- A letter with no digits behind it is left to the next token, together with its sign.
      if digits.1.isEmpty then ([], chars) else (e :: sign ++ digits.1, digits.2)
    else ([], chars)
  | [] => ([], [])

/-- A number, a binary literal `0x..`, or a period that starts no number. -/
def scanNumber (chars : List Char) : Token × List Char :=
  let whole := chars.span Char.isDigit
  match whole.1, whole.2 with
  | ['0'], 'x' :: rest =>
    let digits := rest.span fun c => (digitValue? c).isSome
    (.literal .binary (String.ofList digits.1), digits.2)
  | digits, '.' :: rest =>
    let fraction := rest.span Char.isDigit
    if digits.isEmpty && fraction.1.isEmpty then (.mark .period, rest)
    else finish (digits ++ '.' :: fraction.1) fraction.2
  | digits, rest => finish digits rest
where
  /-- The exponent and the suffix `L` after the digits. -/
  finish (digits rest : List Char) : Token × List Char :=
    let power := scanExponent rest
    match power.2 with
    | 'L' :: after => (.number (String.ofList (digits ++ power.1)) true, after)
    | after => (.number (String.ofList (digits ++ power.1)) false, after)

/-! ## Dollar signs -/

/-- The text before the first `$$`, where single dollar signs stand for themselves. The state is
the character before. -/
def scanDollarText : Option Char → List Char → Option (List Char × List Char)
  | _, [] => none
  | before, c :: rest =>
    if before = some '$' then
      if c = '$' then some ([], rest)
      -- The dollar sign before was not the first of two, so it belongs to the text.
      else (scanDollarText (some c) rest).map fun (text, after) => ('$' :: c :: text, after)
    else if c = '$' then scanDollarText (some c) rest
    else (scanDollarText (some c) rest).map fun (text, after) => (c :: text, after)

/-- The text before the first occurrence of `close`. -/
def scanUntil (close : List Char) : List Char → Option (List Char × List Char)
  | [] => none
  | c :: rest =>
    if close.isPrefixOf (c :: rest) then some ([], (c :: rest).drop close.length)
    else (scanUntil close rest).map fun (text, after) => (c :: text, after)

/-- What follows a dollar sign: a dollar-quoted text or the name of a placeholder. -/
def scanDollar : List Char → ScanStep
  | '$' :: rest =>
    match scanDollarText none rest with
    | some (text, after) => .ok (.dollar "" (String.ofList text), after)
    | none => .error .atEnd
  | rest =>
    let tag := rest.span fun c => Text.isLetter c || Text.isNumeral c || c == '_'
    match tag.2 with
    | '$' :: body =>
      match scanUntil ('$' :: tag.1 ++ ['$']) body with
      | some (text, after) => .ok (.dollar (String.ofList tag.1) (String.ofList text), after)
      | none => .error .atEnd
    | after => .ok (.placeholder (String.ofList ('$' :: tag.1)), after)

/-! ## Marks -/

/-- The longest mark at the head of the text, for marks that open no longer token. -/
def scanMark : List Char → Option (Mark × List Char)
  | '(' :: r => some (.openParen, r)
  | ')' :: r => some (.closeParen, r)
  | ',' :: r => some (.comma, r)
  | ';' :: r => some (.semicolon, r)
  -- A longer mark stands in front of those it begins with.
  | '-' :: '>' :: '>' :: r => some (.longArrow, r)
  | '-' :: '>' :: r => some (.arrow, r)
  | '-' :: r => some (.minus, r)
  | '/' :: r => some (.slash, r)
  | '+' :: r => some (.plus, r)
  | '*' :: r => some (.star, r)
  | '%' :: r => some (.percent, r)
  | '|' :: '/' :: r => some (.squareRoot, r)
  | '|' :: '|' :: '/' :: r => some (.cubeRoot, r)
  | '|' :: '|' :: r => some (.concat, r)
  | '|' :: r => some (.pipe, r)
  | '=' :: '>' :: r => some (.fatArrow, r)
  | '=' :: '=' :: r => some (.doubleEqual, r)
  | '=' :: r => some (.equal, r)
  | '!' :: '=' :: r => some (.notEqual, r)
  | '!' :: '!' :: r => some (.doubleBang, r)
  | '!' :: '~' :: '*' :: r => some (.bangTildeStar, r)
  | '!' :: '~' :: '~' :: '*' :: r => some (.bangDoubleTildeStar, r)
  | '!' :: '~' :: '~' :: r => some (.bangDoubleTilde, r)
  | '!' :: '~' :: r => some (.bangTilde, r)
  | '!' :: r => some (.bang, r)
  | '<' :: '=' :: '>' :: r => some (.spaceship, r)
  | '<' :: '=' :: r => some (.lessEqual, r)
  | '<' :: '>' :: r => some (.notEqual, r)
  | '<' :: '<' :: r => some (.shiftLeft, r)
  | '<' :: '@' :: r => some (.arrowAt, r)
  | '<' :: r => some (.less, r)
  | '>' :: '=' :: r => some (.greaterEqual, r)
  | '>' :: '>' :: r => some (.shiftRight, r)
  | '>' :: r => some (.greater, r)
  | ':' :: ':' :: r => some (.doubleColon, r)
  | ':' :: '=' :: r => some (.assign, r)
  | ':' :: r => some (.colon, r)
  | '\\' :: r => some (.backslash, r)
  | ']' :: r => some (.closeBracket, r)
  | '&' :: '&' :: r => some (.doubleAmpersand, r)
  | '&' :: r => some (.ampersand, r)
  | '^' :: '@' :: r => some (.caretAt, r)
  | '^' :: r => some (.caret, r)
  | '\x7b' :: r => some (.openBrace, r)
  | '\x7d' :: r => some (.closeBrace, r)
  | '~' :: '*' :: r => some (.tildeStar, r)
  | '~' :: '~' :: '*' :: r => some (.doubleTildeStar, r)
  | '~' :: '~' :: r => some (.doubleTilde, r)
  | '~' :: r => some (.tilde, r)
  | _ => none

/-- A token that starts with `#`: an operator, or a word with any character in second place. -/
def scanHash : List Char → Token × List Char
  | '-' :: rest => (.mark .hashMinus, rest)
  | '>' :: '>' :: rest => (.mark .hashLongArrow, rest)
  | '>' :: rest => (.mark .hashArrow, rest)
  | [] => (.mark .hash, [])
  | c :: rest => if c = ' ' then (.mark .hash, c :: rest) else scanWord ['#', c] rest

/-- A token that starts with `@`: an operator, or a word with any character after the sign. -/
def scanAt : List Char → Token × List Char
  | '>' :: rest => (.mark .atArrow, rest)
  | '?' :: rest => (.mark .atQuestion, rest)
  | ['@'] => (.mark .doubleAt, [])
  | '@' :: c :: rest => if c = ' ' then (.mark .doubleAt, c :: rest) else scanWord ['@', '@', c] rest
  | [] => (.mark .at, [])
  | c :: rest =>
    if c = ' ' || c = '\'' || c = '"' || c = '\x60' then (.mark .at, c :: rest)
    else scanWord ['@', c] rest

/-! ## Whole texts -/

/-- A literal whose opening quote has just been read. -/
def closeLiteral (kind : LiteralKind) : Option (List Char × List Char) → ScanStep
  | some (text, after) => .ok (.literal kind (String.ofList text), after)
  | none => .error .here

/-- The first token of a non-empty text. `afterWord` tells whether the token before is a word. -/
def scanToken (afterWord : Bool) (c : Char) (rest : List Char) : ScanStep :=
  if c = ' ' then .ok (.blank .space, rest)
  else if c = '\t' then .ok (.blank .tab, rest)
  else if c = '\n' then .ok (.blank .newline, rest)
  else if c = '\r' then
    .ok (.blank .newline, match rest with | '\n' :: after => after | _ => rest)
  else if c = '\'' then closeLiteral .plain (scanQuoted '\'' rest)
  else if c = '[' then closeWord .bracket (scanQuoted ']' rest)
  else if c = '"' then closeWord .double (scanQuoted '"' rest)
  else match c, rest with
    | '-', '-' :: body => .ok (scanLineComment body)
    | '/', '*' :: body =>
      match scanBlockComment body with
      | some (text, after) => .ok (.blank (.blockComment (String.ofList text)), after)
      | none => .error .atEnd
    -- Behind a word a name may follow; elsewhere the period would start a number.
    | '.', '_' :: _ => if afterWord then .ok (.mark .period, rest) else .error .here
    | _, '\'' :: body =>
      -- The letter in front of a quote says how the text behind it is read.
      if c = 'N' || c = 'n' then closeLiteral .national (scanBackslashed body)
      else if c = 'X' || c = 'x' then closeLiteral .binary (scanBackslashed body)
      else if c = 'E' || c = 'e' then closeLiteral .escaped (scanEscaped (body.length + 1) body)
      else other
    | _, _ => other
where
  /-- Tokens that need no look at a second character first. -/
  other : ScanStep :=
    if c.isDigit || c = '.' then .ok (scanNumber (c :: rest))
    else match scanMark (c :: rest) with
      | some (mark, after) => .ok (.mark mark, after)
      | none =>
        if c = '#' then .ok (scanHash rest)
        else if c = '@' then .ok (scanAt rest)
        else if c = '?' then
          let digits := rest.span Text.isNumeral
          .ok (.placeholder (String.ofList ('?' :: digits.1)), digits.2)
        else if isWordStart c then .ok (scanWord [c] rest)
        else if c = '$' then scanDollar rest
        else if Text.isSpace c then .ok (.blank .space, rest)
        else .ok (.other c, rest)
  /-- A quoted word whose opening quote has just been read. -/
  closeWord (quote : Quote) : Option (List Char × List Char) → ScanStep
    | some (text, after) => .ok (.word (String.ofList text) quote, after)
    | none => .error .here

/-- The number of line feeds in a text. -/
def lineFeeds (chars : List Char) : Nat :=
  chars.countP (· == '\n')

/-- The tokens of `chars`, of which the first starts on `line`. Every step takes a character, so
the length of the text is `fuel` enough. -/
def scanFrom : Nat → Bool → Nat → List Char → Except ScanError (List PlacedToken)
  | 0, _, _, _ => .ok []
  | _, _, _, [] => .ok []
  | fuel + 1, afterWord, line, c :: rest =>
    match scanToken afterWord c rest with
    | .ok (token, after) => do
      -- Quoted texts and comments may span lines, so the line feeds are those of the whole token.
      let next := line + lineFeeds ((c :: rest).take (rest.length + 1 - after.length))
      return ⟨token, line⟩ :: (← scanFrom fuel token.isWord next after)
    | .error .here => .error ⟨line⟩
    | .error .atEnd => .error ⟨line + lineFeeds (c :: rest)⟩

/-- The tokens of a text with their lines. -/
def scan (text : String) : Except ScanError (List PlacedToken) :=
  scanFrom text.toList.length false 1 text.toList

end SchemaPlan.Sql
