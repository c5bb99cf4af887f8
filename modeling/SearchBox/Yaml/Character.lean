/-!
# Characters of a YAML text

Which characters a YAML text may hold, which of them end a line, and which a writer may put down as
they are.  This file defines

* `isBlank`, `isBreak` — spaces and tabs, and the characters that end a line;
* `isReadable` — the characters that a YAML text may hold at all;
* `isPrintable` — the characters that a scalar can hold outside double quotes;
* `lines` — a text with its line ends made uniform.

`isPrintable` is narrower than `isReadable`: a tab or a byte order mark is read but never printed.
-/

namespace SearchBox
namespace Yaml

/-! ## Classes -/

/-- The byte order mark. -/
def byteOrderMark : Char := '\ufeff'

/-- The next-line control. -/
def nextLine : Char := '\u0085'

/-- The line separator. -/
def lineSeparator : Char := '\u2028'

/-- The paragraph separator. -/
def paragraphSeparator : Char := '\u2029'

/-- A blank is a space or a tab. -/
def isBlank (c : Char) : Bool :=
  c == ' ' || c == '\t'

/-- A break ends a line. -/
def isBreak (c : Char) : Bool :=
  c == '\n' || c == '\r' || c == nextLine || c == lineSeparator || c == paragraphSeparator

/-- Whether a YAML text may hold a character. -/
def isReadable (c : Char) : Bool :=
  let n := c.toNat
  c == '\t' || c == '\n' || c == '\r' || c == nextLine || (0x20 ≤ n && n ≤ 0x7E)
    || (0xA0 ≤ n && n ≤ 0xFFFD) || 0x10000 ≤ n

/-- Whether a scalar can hold a character without an escape. -/
def isPrintable (c : Char) : Bool :=
  let n := c.toNat
  c == '\n' || (0x20 ≤ n && n ≤ 0x7E) || (0xA0 ≤ n && n ≤ 0xFFFD && c != byteOrderMark)
    || 0x10000 ≤ n

/-- Characters that structure a flow collection. -/
def isFlowIndicator (c : Char) : Bool :=
  c == ',' || c == '[' || c == ']' || c == '\x7b' || c == '\x7d'

/-- Characters that never begin a plain scalar.  A dash, a question mark and a colon may, depending
on what follows them. -/
def isIndicator (c : Char) : Bool :=
  isFlowIndicator c || c == '#' || c == '&' || c == '*' || c == '!' || c == '|' || c == '>'
    || c == '\'' || c == '"' || c == '%' || c == '@' || c == '\x60'

/-! ## Lines -/

/-- A text whose line ends are line feeds: a carriage return with or without a line feed and a
next-line control count as one.  The two Unicode separators stay as they are. -/
def lines : List Char → List Char
  | [] => []
  | '\r' :: '\n' :: rest => '\n' :: lines rest
  | c :: rest => (if c == '\r' || c == nextLine then '\n' else c) :: lines rest

/-- Whether a text is at its end or goes on with a blank or a break. -/
def endsWord : List Char → Bool
  | [] => true
  | c :: _ => isBlank c || isBreak c

end Yaml
end SearchBox
