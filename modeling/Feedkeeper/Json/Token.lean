import Feedkeeper.Json.Numeral
import Feedkeeper.Json.Quoted

/-!
# JSON tokens

A text is cut into tokens by a machine that takes one character at a time. Between tokens it
skips the four blanks of JSON; a quote, a numeral character or a letter begins a longer token, and
a character that cannot go on a numeral or a word ends it and is then looked at afresh. A string
token holds its text, or nothing if an escaped surrogate in it stands alone.
-/

namespace Feedkeeper.Json

/-- A token of JSON. -/
inductive Token where
  | openBrace
  | closeBrace
  | openBracket
  | closeBracket
  | colon
  | comma
  | null
  | bool (value : Bool)
  | number (numeral : Numeral)
  | string (text : Option String)
  deriving DecidableEq, Repr

namespace Token

/-! ## Reading -/

/-- What the machine is in the middle of, with what it has read of it, the last first. -/
inductive Mode where
  | between
  | string (pieces : List Quoted.Piece)
  | escape (pieces : List Quoted.Piece)
  | hex (pieces : List Quoted.Piece) (missing value : Nat)
  | numeral (chars : List Char)
  | word (chars : List Char)

/-- The white space of JSON. -/
def isBlank (c : Char) : Bool :=
  c = ' ' || c = '\t' || c = '\n' || c = '\r'

/-- The characters that a numeral may hold. -/
def isNumeralChar (c : Char) : Bool :=
  Digits.isDigit c || c = '-' || c = '+' || c = '.' || c = 'e' || c = 'E'

/-- The characters that a word may hold. -/
def isLetter (c : Char) : Bool :=
  97 ≤ c.toNat && c.toNat ≤ 122

/-- A character between tokens: the token that it is, if any, and what it begins. -/
def start? (c : Char) : Option (List Token × Mode) :=
  if isBlank c then some ([], .between)
  else if c = '\x7b' then some ([openBrace], .between)
  else if c = '\x7d' then some ([closeBrace], .between)
  else if c = '[' then some ([openBracket], .between)
  else if c = ']' then some ([closeBracket], .between)
  else if c = ':' then some ([colon], .between)
  else if c = ',' then some ([comma], .between)
  else if c = '"' then some ([], .string [])
  else if c = '-' ∨ Digits.isDigit c then some ([], .numeral [c])
  else if isLetter c then some ([], .word [c])
  else none

/-- The token that a word is. -/
def ofWord? (chars : List Char) : Option Token :=
  if chars = ['n', 'u', 'l', 'l'] then some null
  else if chars = ['t', 'r', 'u', 'e'] then some (bool true)
  else if chars = ['f', 'a', 'l', 's', 'e'] then some (bool false)
  else none

/-- The tokens that the end of the text completes. -/
def finish? : Mode → Option (List Token)
  | .between => some []
  | .numeral chars => (Numeral.parse? chars.reverse).map fun numeral => [number numeral]
  | .word chars => (ofWord? chars.reverse).map fun token => [token]
  | .string _ | .escape _ | .hex .. => none

/-- The string token of the pieces. -/
def ofPieces (pieces : List Quoted.Piece) : Token :=
  string ((Quoted.assemble pieces.reverse).map String.ofList)

/-- One character: the tokens that it completes, and what the machine is then in the middle of. -/
def step? : Mode → Char → Option (List Token × Mode)
  | .between, c => start? c
  | .string pieces, c =>
    if c = '"' then some ([ofPieces pieces], .between)
    else if c = '\\' then some ([], .escape pieces)
    else if c.toNat < 0x20 then none
    else some ([], .string (.char c :: pieces))
  | .escape pieces, c =>
    if c = 'u' then some ([], .hex pieces 4 0)
    else (Quoted.shortEscape? c).map fun escaped => ([], .string (.char escaped :: pieces))
  | .hex pieces missing value, c =>
    (Quoted.hexValue? c).map fun digit =>
      let value := 16 * value + digit
      ([], if missing ≤ 1 then .string (.ofUnit value :: pieces)
        else .hex pieces (missing - 1) value)
  | .numeral chars, c =>
    if isNumeralChar c then some ([], .numeral (c :: chars))
    else do
      let ended ← finish? (.numeral chars)
      let (tokens, mode) ← start? c
      return (ended ++ tokens, mode)
  | .word chars, c =>
    if isLetter c then some ([], .word (c :: chars))
    else do
      let ended ← finish? (.word chars)
      let (tokens, mode) ← start? c
      return (ended ++ tokens, mode)

/-- The tokens read so far, the last first, and those of the rest of the text. -/
def scanFrom? : Mode → List Token → List Char → Option (List Token)
  | mode, done, [] => (finish? mode).map fun ended => done.reverse ++ ended
  | mode, done, c :: rest =>
    match step? mode c with
    | some (tokens, mode) => scanFrom? mode (tokens.reverse ++ done) rest
    | none => none

/-- The tokens of a text. -/
def scan? (text : List Char) : Option (List Token) :=
  scanFrom? .between [] text

/-! ## Writing -/

/-- The text of a token. -/
def text : Token → List Char
  | openBrace => ['\x7b']
  | closeBrace => ['\x7d']
  | openBracket => ['[']
  | closeBracket => [']']
  | colon => [':']
  | comma => [',']
  | null => ['n', 'u', 'l', 'l']
  | bool true => ['t', 'r', 'u', 'e']
  | bool false => ['f', 'a', 'l', 's', 'e']
  | number numeral => numeral.text
  | string text => Quoted.encode ((text.getD "").toList)

end Token

end Feedkeeper.Json
