import SchemaPlan.Text.Basic

/-!
# Tokens of T-SQL text

A token is a word, a number, one of the string literals, a blank, a mark or a placeholder.
`Token.text` writes a token back as SQL. Marks are written as they are read, except that both
spellings of "not equal" are written `<>`.
-/

namespace SchemaPlan.Sql

/-- How a word is quoted: not at all, `[as this]` or `"as this"`. -/
inductive Quote where
  | bare | bracket | double
deriving Repr, DecidableEq, Inhabited

/-- The string literals: `'..'`, `N'..'`, `E'..'`, and the binary form `X'..'` or `0x..`. -/
inductive LiteralKind where
  | plain | national | escaped | binary
deriving Repr, DecidableEq, Inhabited

/-- What separates tokens: single blank characters and comments. The text of a line comment
includes its line end. -/
inductive Blank where
  | space | newline | tab
  | lineComment (text : String)
  | blockComment (text : String)
deriving Repr, DecidableEq, Inhabited

/-- Punctuation and operators. -/
inductive Mark where
  | comma | period | semicolon | colon | doubleColon | assign | openParen | closeParen
  | closeBracket | openBrace | closeBrace | equal | doubleEqual | notEqual | less | greater
  | lessEqual | greaterEqual | spaceship | plus | minus | star | slash | percent | concat | pipe
  | ampersand | doubleAmpersand | caret | caretAt | tilde | tildeStar | doubleTilde
  | doubleTildeStar | bang | doubleBang | bangTilde | bangTildeStar | bangDoubleTilde
  | bangDoubleTildeStar | shiftLeft | shiftRight | arrow | longArrow | hashArrow | hashLongArrow
  | hashMinus | hash | at | doubleAt | atArrow | atQuestion | arrowAt | fatArrow | backslash
  | squareRoot | cubeRoot
deriving Repr, DecidableEq, Inhabited

/-- The spelling of a mark. -/
def Mark.text : Mark → String
  | .comma => ","
  | .period => "."
  | .semicolon => ";"
  | .colon => ":"
  | .doubleColon => "::"
  | .assign => ":="
  | .openParen => "("
  | .closeParen => ")"
  | .closeBracket => "]"
  | .openBrace => "\x7b"
  | .closeBrace => "\x7d"
  | .equal => "="
  | .doubleEqual => "=="
  | .notEqual => "<>"
  | .less => "<"
  | .greater => ">"
  | .lessEqual => "<="
  | .greaterEqual => ">="
  | .spaceship => "<=>"
  | .plus => "+"
  | .minus => "-"
  | .star => "*"
  | .slash => "/"
  | .percent => "%"
  | .concat => "||"
  | .pipe => "|"
  | .ampersand => "&"
  | .doubleAmpersand => "&&"
  | .caret => "^"
  | .caretAt => "^@"
  | .tilde => "~"
  | .tildeStar => "~*"
  | .doubleTilde => "~~"
  | .doubleTildeStar => "~~*"
  | .bang => "!"
  | .doubleBang => "!!"
  | .bangTilde => "!~"
  | .bangTildeStar => "!~*"
  | .bangDoubleTilde => "!~~"
  | .bangDoubleTildeStar => "!~~*"
  | .shiftLeft => "<<"
  | .shiftRight => ">>"
  | .arrow => "->"
  | .longArrow => "->>"
  | .hashArrow => "#>"
  | .hashLongArrow => "#>>"
  | .hashMinus => "#-"
  | .hash => "#"
  | .at => "@"
  | .doubleAt => "@@"
  | .atArrow => "@>"
  | .atQuestion => "@?"
  | .arrowAt => "<@"
  | .fatArrow => "=>"
  | .backslash => "\\"
  | .squareRoot => "|/"
  | .cubeRoot => "||/"

/-- The smallest units of SQL text. -/
inductive Token where
  /-- A name, keyword or variable; `text` is without its quotes. -/
  | word (text : String) (quote : Quote)
  /-- Digits with an optional fraction and exponent; `long` records the suffix `L`. -/
  | number (digits : String) (long : Bool)
  | literal (kind : LiteralKind) (value : String)
  /-- A text between dollar signs, with the tag that repeats at both ends. -/
  | dollar (tag : String) (value : String)
  | blank (gap : Blank)
  | mark (m : Mark)
  /-- A parameter marker such as `?1` or `$5`. -/
  | placeholder (text : String)
  /-- A character that starts no other token. -/
  | other (c : Char)
deriving Repr, DecidableEq, Inhabited

/-- A token and the line of the text, counted from one, on which it starts. -/
structure PlacedToken where
  token : Token
  line : Nat
deriving Repr, DecidableEq, Inhabited

/-! ## Writing tokens -/

/-- A text with every single quote doubled. -/
def doubleQuotes (text : String) : String :=
  Text.replaceChar '\'' "''" text

/-- A word with its quotes. Only the bracketed form escapes its own closing character. -/
def wordText (text : String) : Quote → String
  | .bare => text
  | .bracket => "[" ++ Text.replaceChar ']' "]]" text ++ "]"
  | .double => "\"" ++ text ++ "\""

/-- A blank as it was read, with `\r\n` written `\n`. -/
def Blank.text : Blank → String
  | .space => " "
  | .newline => "\n"
  | .tab => "\t"
  | .lineComment text => "--" ++ text
  | .blockComment text => "/*" ++ text ++ "*/"

/-- The SQL text of a token. Plain and national strings double the quotes they hold. -/
def Token.text : Token → String
  | .word text quote => wordText text quote
  | .number digits _ => digits
  | .literal .plain value => "'" ++ doubleQuotes value ++ "'"
  | .literal .national value => "N'" ++ doubleQuotes value ++ "'"
  | .literal .escaped value => "E'" ++ value ++ "'"
  | .literal .binary value => "0x" ++ value
  | .dollar tag value => "$" ++ tag ++ "$" ++ value ++ "$" ++ tag ++ "$"
  | .blank gap => gap.text
  | .mark m => m.text
  | .placeholder text => text
  | .other c => String.singleton c

/-! ## Asking tokens -/

/-- Blanks and comments. -/
def Token.isBlank : Token → Bool
  | .blank _ => true
  | _ => false

/-- Words, quoted or not. -/
def Token.isWord : Token → Bool
  | .word _ _ => true
  | _ => false

/-- The capitals a small letter beyond ASCII stands for, for the letters whose capitals are ASCII. -/
def asciiCapitals (c : Char) : List Char :=
  match c.toNat with
  | 0xDF => ['S', 'S']
  | 0x131 => ['I']
  | 0x17F => ['S']
  | 0xFB00 => ['F', 'F']
  | 0xFB01 => ['F', 'I']
  | 0xFB02 => ['F', 'L']
  | 0xFB03 => ['F', 'F', 'I']
  | 0xFB04 => ['F', 'F', 'L']
  | 0xFB05 => ['S', 'T']
  | 0xFB06 => ['S', 'T']
  | _ => [c.toUpper]

/-- A word in capitals. Letters beyond ASCII take part where their capitals are ASCII. -/
def capitals (text : String) : String :=
  String.ofList (text.toList.flatMap asciiCapitals)

/-- Whether a word spells `keyword`, which is given in capitals. -/
def spells (keyword text : String) : Bool :=
  capitals text == keyword

/-- An unquoted word in capitals; quoted words and other tokens spell no keyword. -/
def Token.keyword? : Token → Option String
  | .word text .bare => some (capitals text)
  | _ => none

/-- Whether a token is the keyword, which is given in capitals. Quoted words are never keywords. -/
def Token.isKeyword (keyword : String) : Token → Bool
  | .word text .bare => spells keyword text
  | _ => false

/-- Whether a token is an unquoted word equal to `word` without regard to ASCII case. -/
def Token.isBareWord (word : String) : Token → Bool
  | .word text .bare => Text.sameText text word
  | _ => false

/-- Whether a token is the mark. -/
def Token.isMark (wanted : Mark) : Token → Bool
  | .mark m => m == wanted
  | _ => false

/-- Numbers of either form. -/
def Token.isNumber : Token → Bool
  | .number _ _ => true
  | _ => false

/-- String literals without an introducer. -/
def Token.isPlainText : Token → Bool
  | .literal .plain _ => true
  | _ => false

end SchemaPlan.Sql
