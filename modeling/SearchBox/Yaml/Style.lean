import SearchBox.Text.Hex
import SearchBox.Yaml.Character

/-!
# Writing a text as a YAML scalar

A text is written in one of four styles, the plainest one that can hold it and that does not make it
look like a value of another kind.

* `styleOf` — the style in which a text is written;
* `writeValue` — a text as the value of a key at the left margin, with the end of its last line.

A text with a line feed is written as a literal block, with a mark for what is to become of its last
line ends.  No style breaks long lines.
-/

namespace SearchBox
namespace Yaml

/-! ## What a text looks like -/

/-- Words that stand for a truth value, for nothing or for no number, in lower case. -/
def keywords : List (List Char) :=
  ["true", "false", "null", "~", "y", "yes", "n", "no", "on", "off", "nil", "nan"].map String.toList

/-- Whether a character could begin a number. -/
def beginsNumber (c : Char) : Bool :=
  c.isDigit || c == '-' || c == '.' || c == '+'

/-- Whether a text could be taken for something other than a text. -/
def isAmbiguous (t : List Char) : Bool :=
  t.isEmpty || keywords.contains (t.map Char.toLower) || t.head?.any beginsNumber

/-- Whether a character of the first class stands right before one of the second. -/
def hasPair (p q : Char → Bool) : List Char → Bool
  | c :: d :: rest => (p c && q d) || hasPair p q (d :: rest)
  | _ => false

/-- Whether a character is a space; a tab is none. -/
def isSpace (c : Char) : Bool :=
  c == ' '

/-- Whether a text begins with a character that has a meaning at the beginning of a scalar. -/
def beginsSpecial : List Char → Bool
  | [] => false
  | c :: rest => isIndicator c || ((c == '?' || c == ':' || c == '-') && endsWord rest)

/-- Whether a comment or a value would begin inside a text. -/
def hasMark (t : List Char) : Bool :=
  hasPair isBlank (· == '#') t
    || hasPair (· == ':') (fun c => isBlank c || isBreak c) t
    || t.getLast? == some ':'

/-! ## Which style can hold a text -/

/-- Whether a text keeps its value without quotes. -/
def allowsPlain (t : List Char) : Bool :=
  t.all isPrintable && !t.any isBreak
    && !t.head?.any isSpace && !t.getLast?.any isSpace
    && !beginsSpecial t && !hasMark t

/-- Whether a text keeps its value in single quotes. -/
def allowsSingle (t : List Char) : Bool :=
  t.all isPrintable && !hasPair isSpace isBreak t && !hasPair isBreak isSpace t

/-- Whether a text keeps its value in a literal block. -/
def allowsLiteral (t : List Char) : Bool :=
  t.all isPrintable && !hasPair isSpace isBreak t && !t.getLast?.any isSpace

/-- How a scalar is written. -/
inductive Style where
  | plain
  | single
  | double
  | literal
  deriving DecidableEq, Repr

/-- The style in which a text is written. -/
def styleOf (t : List Char) : Style :=
  -- A line feed survives only in a block or as an escape.
  if t.contains '\n' then if allowsLiteral t then .literal else .double
  else if !isAmbiguous t && allowsPlain t then .plain
  else if allowsSingle t then .single
  else .double

/-! ## Writing -/

/-- The indentation of a text below its key. -/
def indentation : List Char := [' ', ' ']

/-- A text in single quotes, from inside: a quote is written twice, and after a line separator the
next line is indented.  `fresh` tells whether a line has just begun. -/
def writeSingle (fresh : Bool) : List Char → List Char
  | [] => if fresh then indentation else []
  | c :: rest =>
      if isBreak c then c :: writeSingle true rest
      else
        (if fresh then indentation else []) ++ (if c == '\'' then ['\'', '\''] else [c])
          ++ writeSingle false rest

/-- The letter that stands for a character after a backslash, if there is one. -/
def escapeLetter (c : Char) : Option Char :=
  if c == '\x00' then some '0'
  else if c == '\x07' then some 'a'
  else if c == '\x08' then some 'b'
  else if c == '\t' then some 't'
  else if c == '\n' then some 'n'
  else if c == '\x0b' then some 'v'
  else if c == '\x0c' then some 'f'
  else if c == '\r' then some 'r'
  else if c == '\x1b' then some 'e'
  else if c == '"' then some '"'
  else if c == '\\' then some '\\'
  else if c == nextLine then some 'N'
  else if c == lineSeparator then some 'L'
  else if c == paragraphSeparator then some 'P'
  else none

/-- An escape by code point: a letter and a count of upper-case hexadecimal digits. -/
def writeCode (letter : Char) (width n : Nat) : List Char :=
  '\\' :: letter :: (Text.hexDigits width n).map Char.toUpper

/-- How a character is written in double quotes. -/
def writeDoubleChar (c : Char) : List Char :=
  match escapeLetter c with
  | some letter => ['\\', letter]
  | none =>
      if isPrintable c then [c]
      else if c.toNat ≤ 0xFF then writeCode 'x' 2 c.toNat
      else if c.toNat ≤ 0xFFFF then writeCode 'u' 4 c.toNat
      else writeCode 'U' 8 c.toNat

/-- The lines of a literal block.  `fresh` tells whether a line has just begun; empty lines are not
indented, and the last line gets an end if it has none. -/
def writeLiteral (fresh : Bool) : List Char → List Char
  | [] => if fresh then [] else ['\n']
  | c :: rest =>
      if isBreak c then c :: writeLiteral true rest
      else (if fresh then indentation else []) ++ c :: writeLiteral false rest

/-- The mark for the line ends at the end of a literal block: none if there is exactly one. -/
def chompingMark (t : List Char) : List Char :=
  match t.reverse with
  | [] => ['-']
  | c :: rest =>
      if !isBreak c then ['-']
      else match rest with
        | [] => ['+']
        | d :: _ => if isBreak d then ['+'] else []

/-- The mark for the indentation of a literal block, if its first line does not show it. -/
def indentationMark (t : List Char) : List Char :=
  if t.head?.any (fun c => isSpace c || isBreak c) then ['2'] else []

/-- A text as the value of a key, with the end of its last line. -/
def writeValue (t : List Char) : List Char :=
  match styleOf t with
  | .plain => t ++ ['\n']
  | .single => '\'' :: writeSingle false t ++ ['\'', '\n']
  | .double => '"' :: t.flatMap writeDoubleChar ++ ['"', '\n']
  | .literal => '|' :: indentationMark t ++ chompingMark t ++ '\n' :: writeLiteral true t

end Yaml
end SearchBox
