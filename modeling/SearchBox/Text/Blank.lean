/-!
# Blank characters

Two classes of blank characters that the library tells apart.

* `isSeparator` — the four characters that end a token of a search text;
* `isWhiteSpace` — the Unicode property White_Space, which decides whether a field name is blank.

The first class is a part of the second.
-/

namespace SearchBox
namespace Text

/-! ## Separators of search words -/

/-- A separator is a space, a tab, a carriage return or a line feed; other white space is part of a
word. -/
def isSeparator (c : Char) : Bool :=
  c == ' ' || c == '\t' || c == '\r' || c == '\n'

/-! ## Unicode ranges -/

/-- Membership of a character in closed ranges of code points, of which the lowest come first. -/
def inRanges : List (Nat × Nat) → Char → Bool
  | [], _ => false
  | (lo, hi) :: rest, c => lo ≤ c.toNat && (c.toNat ≤ hi || inRanges rest c)

/-- The code points with the Unicode property White_Space. -/
def whiteSpaceRanges : List (Nat × Nat) :=
  [(0x09, 0x0D), (0x20, 0x20), (0x85, 0x85), (0xA0, 0xA0), (0x1680, 0x1680), (0x2000, 0x200A),
   (0x2028, 0x2029), (0x202F, 0x202F), (0x205F, 0x205F), (0x3000, 0x3000)]

/-- White space in the sense of the Unicode property White_Space. -/
def isWhiteSpace (c : Char) : Bool :=
  inRanges whiteSpaceRanges c

/-- A text is blank when it has nothing but white space in it. -/
def isBlank (s : String) : Bool :=
  s.toList.all isWhiteSpace

end Text
end SearchBox
