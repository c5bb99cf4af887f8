import SearchBox.Text.Invisible

/-!
# Quoted texts in log lines

A log line shows a list of texts as `["a", "b"]`: each text in double quotes, with a backslash
before a quote or a backslash, a short escape for the commonest controls, and `\u` with the code
point in braces for any other character that has no shape of its own.

These forms are for people to read; nothing in the library reads them back.
-/

namespace SearchBox
namespace Text

/-- The lower-case hexadecimal digits of a number, without leading zeros. -/
def lowerHex (n : Nat) : List Char :=
  Nat.toDigits 16 n

/-- How one character is written between double quotes. -/
def quoteChar (c : Char) : List Char :=
  if c == '"' then ['\\', '"']
  else if c == '\\' then ['\\', '\\']
  else if c == '\t' then ['\\', 't']
  else if c == '\n' then ['\\', 'n']
  else if c == '\r' then ['\\', 'r']
  else if c == '\x00' then ['\\', '0']
  else if isInvisible c then '\\' :: 'u' :: '\x7b' :: lowerHex c.toNat ++ ['\x7d']
  else [c]

def quote (t : List Char) : List Char :=
  '"' :: t.flatMap quoteChar ++ ['"']

/-- A list of texts in square brackets, each in double quotes. -/
def quoteList (ts : List (List Char)) : List Char :=
  '[' :: [',', ' '].intercalate (ts.map quote) ++ [']']

end Text
end SearchBox
