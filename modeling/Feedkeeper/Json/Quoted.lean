/-!
# Quoted text

The characters of a JSON string. `encode` writes a text between quotes: quote and backslash behind
a backslash, the control characters as short escapes where there is one and as four hexadecimal
digits otherwise, all else as it is. When a string is read, every escape becomes a `Piece`, and
`assemble` joins the pieces: two surrogates that follow each other in the right order make one
character, and a surrogate that stands alone makes the string one that has no text.
-/

namespace Feedkeeper.Json

namespace Quoted

/-! ## Writing -/

/-- A hexadecimal digit, in lower case. -/
def hexDigit (n : Nat) : Char :=
  if n % 16 < 10 then Char.ofNat (48 + n % 16) else Char.ofNat (87 + n % 16)

/-- How a character stands between quotes. -/
def encodeChar (c : Char) : List Char :=
  if c = '"' then ['\\', '"']
  else if c = '\\' then ['\\', '\\']
  else if c = '\x08' then ['\\', 'b']
  else if c = '\x0c' then ['\\', 'f']
  else if c = '\n' then ['\\', 'n']
  else if c = '\r' then ['\\', 'r']
  else if c = '\t' then ['\\', 't']
  else if c.toNat < 0x20 then ['\\', 'u', '0', '0', hexDigit (c.toNat / 16), hexDigit c.toNat]
  else [c]

/-- A text between quotes, the quotes included. -/
def encode (text : List Char) : List Char :=
  '"' :: text.flatMap encodeChar ++ ['"']

/-! ## Reading -/

/-- The value of a hexadecimal digit, in either case. -/
def hexValue? (c : Char) : Option Nat :=
  let n := c.toNat
  if 48 ≤ n ∧ n ≤ 57 then some (n - 48)
  else if 65 ≤ n ∧ n ≤ 70 then some (n - 55)
  else if 97 ≤ n ∧ n ≤ 102 then some (n - 87)
  else none

/-- The character of a short escape. -/
def shortEscape? (c : Char) : Option Char :=
  if c = '"' ∨ c = '\\' ∨ c = '/' then some c
  else if c = 'b' then some '\x08'
  else if c = 'f' then some '\x0c'
  else if c = 'n' then some '\n'
  else if c = 'r' then some '\r'
  else if c = 't' then some '\t'
  else none

/-- A part of a string: a character, or an escaped surrogate. -/
inductive Piece where
  | char (c : Char)
  | surrogate (unit : Nat)

/-- What an escape of four hexadecimal digits stands for. -/
def Piece.ofUnit (unit : Nat) : Piece :=
  if 0xD800 ≤ unit ∧ unit ≤ 0xDFFF then .surrogate unit else .char (Char.ofNat unit)

/-- The character of a high and a low surrogate. -/
def joinSurrogates (high low : Nat) : Char :=
  Char.ofNat (0x10000 + (high - 0xD800) * 0x400 + (low - 0xDC00))

/-- The text of the pieces; `none` if a surrogate stands alone. -/
def assemble : List Piece → Option (List Char)
  | [] => some []
  | .char c :: rest => (assemble rest).map (c :: ·)
  | .surrogate high :: .surrogate low :: rest =>
    if high < 0xDC00 ∧ 0xDC00 ≤ low then (assemble rest).map (joinSurrogates high low :: ·)
    else none
  | .surrogate _ :: _ => none

/-- Pieces that are characters are put together as they are. -/
theorem assemble_map_char (text : List Char) : assemble (text.map .char) = some text := by
  induction text with
  | nil => rfl
  | cons c rest ih => simp [assemble, ih]

end Quoted

end Feedkeeper.Json
