/-!
# White space

The characters with the Unicode property `White_Space`, in code point order.
-/

namespace Feedkeeper

namespace Text

/-- The inclusive ranges of the characters with the property `White_Space`. -/
def blankRanges : List (Nat × Nat) :=
  [(0x09, 0x0D), (0x20, 0x20), (0x85, 0x85), (0xA0, 0xA0), (0x1680, 0x1680), (0x2000, 0x200A),
    (0x2028, 0x2029), (0x202F, 0x202F), (0x205F, 0x205F), (0x3000, 0x3000)]

/-- Whether the character has the property `White_Space`. -/
def isBlank (c : Char) : Bool :=
  blankRanges.any fun range => range.1 ≤ c.toNat && c.toNat ≤ range.2

/-- The text without the white space that it begins with. -/
def skipBlanks (chars : List Char) : List Char :=
  chars.dropWhile isBlank

end Text

end Feedkeeper
