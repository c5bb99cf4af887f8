import SearchBox.Text.Hex
import SearchBox.Yaml.Character

/-!
# Scalars while they are read

The text of a scalar is not what stands between its ends: line breaks are folded, quotes are escaped
and a block scalar loses its indentation.  This file holds the texts in progress and what one more
character does to them.

* `Folding` — a plain or quoted scalar, with the white space that follows what has been read;
* `Escape` — how far an escape in double quotes has been read;
* `Header` — the first line of a block scalar, after its mark;
* `Block` — the lines of a block scalar.

Where a scalar ends is for the lexer to say.
-/

namespace SearchBox
namespace Yaml

/-! ## Folded lines -/

/-- The white space after the text read so far. -/
inductive Gap where
  | none
  /-- Blanks on one line, newest first. -/
  | blanks (bs : List Char)
  /-- Line breaks: the first one, unless it was escaped, and the later ones, newest first. -/
  | breaks (first : Option Char) (later : List Char)
  deriving DecidableEq, Repr

namespace Gap

/-- Adds a blank or a break.  Blanks around a break are lost. -/
def push : Gap → Char → Gap
  | .none, c => if isBreak c then .breaks (some c) [] else .blanks [c]
  | .blanks bs, c => if isBreak c then .breaks (some c) [] else .blanks (c :: bs)
  | .breaks first later, c => if isBreak c then .breaks first (c :: later) else .breaks first later

/-- What a gap inside a text amounts to: a single line feed becomes a space, and of several breaks a
leading line feed is dropped. -/
def text : Gap → List Char
  | .none => []
  | .blanks bs => bs.reverse
  | .breaks (some '\n') [] => [' ']
  | .breaks (some '\n') later => later.reverse
  | .breaks first later => first.toList ++ later.reverse

def hasBreak : Gap → Bool
  | .breaks .. => true
  | _ => false

end Gap

/-- A scalar whose lines are folded, while it is read. -/
structure Folding where
  /-- The text before the gap, newest character first. -/
  text : List Char := []
  /-- The white space after it. -/
  gap : Gap := .none
  deriving DecidableEq, Repr

namespace Folding

/-- The text with its gap made part of it, newest character first. -/
def joined (f : Folding) : List Char :=
  f.gap.text.reverse ++ f.text

/-- Adds a character that is part of the text. -/
def push (f : Folding) (c : Char) : Folding :=
  ⟨c :: f.joined, .none⟩

/-- Adds a blank or a break that the text may turn out to end before. -/
def space (f : Folding) (c : Char) : Folding :=
  { f with gap := f.gap.push c }

/-- Adds an escaped line break, which joins two lines without a space. -/
def continued (f : Folding) : Folding :=
  ⟨f.joined, .breaks .none []⟩

end Folding

/-! ## Escapes in double quotes -/

/-- How far an escape has been read. -/
inductive Escape where
  | none
  | backslash
  /-- So many hexadecimal digits are still to come after `code`. -/
  | digits (left : Nat) (code : Nat)
  deriving DecidableEq, Repr

/-- The character that a letter stands for after a backslash. -/
def unescapeLetter : Char → Option Char
  | '0' => some '\x00'
  | 'a' => some '\x07'
  | 'b' => some '\x08'
  | 't' => some '\t'
  | '\t' => some '\t'
  | 'n' => some '\n'
  | 'v' => some '\x0b'
  | 'f' => some '\x0c'
  | 'r' => some '\r'
  | 'e' => some '\x1b'
  | ' ' => some ' '
  | '"' => some '"'
  | '/' => some '/'
  | '\\' => some '\\'
  | 'N' => some nextLine
  | '_' => some '\u00a0'
  | 'L' => some lineSeparator
  | 'P' => some paragraphSeparator
  | _ => none

/-- How many hexadecimal digits follow a letter after a backslash. -/
def escapeWidth : Char → Option Nat
  | 'x' => some 2
  | 'u' => some 4
  | 'U' => some 8
  | _ => none

/-- The character with a code point, which must not be a surrogate or too large. -/
def charOfCode (n : Nat) : Option Char :=
  if n.isValidChar then some (Char.ofNat n) else none

/-- Reads one character of a scalar in double quotes, other than the quote that ends it. -/
def readEscaped (f : Folding) : Escape → Char → Option (Folding × Escape)
  | .none, c =>
      if c == '\\' then some (f, .backslash)
      else if isBlank c || isBreak c then some (f.space c, .none)
      else some (f.push c, .none)
  | .backslash, c =>
      if isBreak c then some (f.continued, .none)
      else match escapeWidth c with
        | some width => some (f, .digits width 0)
        | none => (unescapeLetter c).map fun d => (f.push d, .none)
  | .digits left code, c =>
      (Text.hexValue c).bind fun digit =>
        let code := code * 16 + digit
        if left ≤ 1 then (charOfCode code).map fun d => (f.push d, .none)
        else some (f, .digits (left - 1) code)

/-! ## Block scalars -/

/-- What happens to the line breaks at the end of a block scalar. -/
inductive Chomping where
  /-- None is kept. -/
  | strip
  /-- The first one is kept. -/
  | clip
  /-- All are kept. -/
  | keep
  deriving DecidableEq, Repr

/-- Which part of the first line of a block scalar is being read. -/
inductive Header.Part where
  | indicators
  | blanks
  | comment
  deriving DecidableEq, Repr

/-- The first line of a block scalar, after the mark. -/
structure Header where
  folded : Bool
  /-- How the end is chomped, if that was said. -/
  chomping : Option Chomping := none
  /-- The indentation relative to the surrounding block, if that was said. -/
  increment : Option Nat := none
  part : Header.Part := .indicators
  deriving DecidableEq, Repr

def chompingOf : Char → Option Chomping
  | '-' => some .strip
  | '+' => some .keep
  | _ => none

def incrementOf (c : Char) : Option Nat :=
  if '1' ≤ c && c ≤ '9' then some (c.toNat - '0'.toNat) else none

/-- Reads one character of the first line, other than the break that ends it.  The chomping and the
indentation may each be given once, in either order; after them there may be a comment. -/
def Header.read (h : Header) (c : Char) : Option Header :=
  if h.part == .comment then some h
  else if c == '#' then some { h with part := .comment }
  else if isBlank c then some { h with part := .blanks }
  else if h.part == .blanks then none
  else match chompingOf c, incrementOf c with
    | some m, _ => if h.chomping.isNone then some { h with chomping := some m } else none
    | _, some n => if h.increment.isNone then some { h with increment := some n } else none
    | none, none => none

/-- A block scalar while its lines are read. -/
structure Block where
  folded : Bool
  chomping : Chomping
  /-- The column at which lines begin, once it is known. -/
  indent : Option Nat
  /-- The deepest indentation seen on empty lines before the first line. -/
  deepest : Nat := 0
  /-- The text of the lines before the breaks below, newest character first. -/
  text : List Char := []
  /-- The break that ends the last line with text. -/
  lineEnd : Option Char := none
  /-- The breaks of the empty lines after it, newest first. -/
  empty : List Char := []
  /-- Whether the last line with text begins with a blank. -/
  indented : Bool := false
  /-- Whether a line with text is being read, rather than the margin before one. -/
  inLine : Bool := false
  deriving DecidableEq, Repr

namespace Block

/-- Begins a line with text, whose first character is `c`.  Two lines are joined by a space if there
is no empty line between them, unless one of them begins with a blank or the scalar is literal. -/
def beginLine (b : Block) (column : Nat) (c : Char) : Block :=
  let join :=
    if b.folded && b.lineEnd == some '\n' && !b.indented && !isBlank c then
      -- The empty lines stay, and stand for the break between the two lines.
      if b.empty.isEmpty then [' '] else []
    else b.lineEnd.toList
  { b with
    indent := some column
    text := c :: (b.empty ++ join ++ b.text)
    lineEnd := none
    empty := []
    indented := isBlank c
    inLine := true }

/-- The text of a block scalar that ends here. -/
def result (b : Block) : List Char :=
  let kept := match b.chomping with
    | .strip => []
    | .clip => b.lineEnd.toList
    | .keep => b.empty ++ b.lineEnd.toList
  (kept ++ b.text).reverse

end Block

end Yaml
end SearchBox
