import SearchBox.Text.Hex

/-!
# JSON values and their compact text

The values are those that a query needs: natural numbers, strings, arrays and objects.  An object is
a list of members and keeps their order; nothing asserts that its keys are distinct.

`Json.compact` writes a value without white space.  In a string it escapes the quote, the backslash
and the characters below U+0020, and nothing else.
-/

namespace SearchBox

inductive Json where
  | nat (n : Nat)
  | str (s : String)
  | arr (items : List Json)
  | obj (members : List (String × Json))
  deriving Repr

namespace Json

/-! ## Strings -/

/-- How one character is written inside a string. -/
def escapeChar (c : Char) : List Char :=
  if c == '"' then ['\\', '"']
  else if c == '\\' then ['\\', '\\']
  else if c == '\x08' then ['\\', 'b']
  else if c == '\x0c' then ['\\', 'f']
  else if c == '\n' then ['\\', 'n']
  else if c == '\r' then ['\\', 'r']
  else if c == '\t' then ['\\', 't']
  else if c.toNat < 0x20 then '\\' :: 'u' :: Text.hexDigits 4 c.toNat
  else [c]

/-- A string with its quotes, put before `rest`. -/
def strOnto (s : String) (rest : List Char) : List Char :=
  '"' :: (s.toList.flatMap escapeChar ++ '"' :: rest)

/-! ## Values -/

mutual

/-- The compact text of a value, put before `rest`. -/
def writeOnto : Json → List Char → List Char
  | .nat n, rest => Nat.toDigits 10 n ++ rest
  | .str s, rest => strOnto s rest
  | .arr items, rest => '[' :: writeItemsOnto items (']' :: rest)
  | .obj members, rest => '\x7b' :: writeMembersOnto members ('\x7d' :: rest)

/-- Items with commas between them, put before `rest`. -/
def writeItemsOnto : List Json → List Char → List Char
  | [], rest => rest
  | v :: [], rest => writeOnto v rest
  | v :: w :: vs, rest => writeOnto v (',' :: writeItemsOnto (w :: vs) rest)

/-- Members with commas between them, put before `rest`. -/
def writeMembersOnto : List (String × Json) → List Char → List Char
  | [], rest => rest
  | (k, v) :: [], rest => strOnto k (':' :: writeOnto v rest)
  | (k, v) :: m :: ms, rest =>
      strOnto k (':' :: writeOnto v (',' :: writeMembersOnto (m :: ms) rest))

end

/-- The text of a value without any white space. -/
def compact (v : Json) : String :=
  String.ofList (v.writeOnto [])

end Json
end SearchBox
