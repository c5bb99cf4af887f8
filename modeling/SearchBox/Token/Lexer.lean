import SearchBox.Text.Blank
import SearchBox.Token

/-!
# From text to tokens

The lexer reads a search text one character at a time.  Its state holds the tokens that are
finished, the token being read, and two flags:

* `quoted` — the number of double quotes read so far, escaped ones apart, is odd;
* `escaped` — the character read last was a backslash that takes the next one literally.

Separators end a token outside quotes and belong to it inside.  At the end of the text an open quote
is closed.  `Lexer.close` also says what happens if a quote is open with no token being read; it is
not asserted here that this never arises.
-/

namespace SearchBox
namespace Token

/-- The state of the lexer between two characters; both lists have their newest element first. -/
structure Lexer where
  /-- The finished tokens. -/
  emitted : List Token
  /-- The characters of the token being read. -/
  pending : List Char
  /-- Whether a double quote is open. -/
  quoted : Bool
  /-- Whether the next character is taken literally. -/
  escaped : Bool
  deriving DecidableEq, Repr

namespace Lexer

def start : Lexer := ⟨[], [], false, false⟩

def push (s : Lexer) (c : Char) : Lexer :=
  { s with pending := c :: s.pending }

/-- Finishes the token being read, if there is one. -/
def flush (s : Lexer) : Lexer :=
  if s.pending.isEmpty then s
  else { s with emitted := s.pending.reverse :: s.emitted, pending := [] }

def step (s : Lexer) (c : Char) : Lexer :=
  if s.escaped then { s.push c with escaped := false }
  else if c == '\\' then { s.push c with escaped := true }
  else if c == '"' then { s.push c with quoted := !s.quoted }
  else if Text.isSeparator c && !s.quoted then s.flush
  else s.push c

/-- Closes an open quote at the end of the text: in the token being read, or else in the last
finished one. -/
def close (s : Lexer) : Lexer :=
  if s.quoted then
    if s.pending.isEmpty then
      match s.emitted with
      | last :: older => { s with emitted := (last ++ ['"']) :: older }
      | [] => s
    else s.push '"'
  else s

/-- The tokens of a text that ends in this state. -/
def tokens (s : Lexer) : List Token :=
  s.close.flush.emitted.reverse

def run (s : Lexer) (text : List Char) : Lexer :=
  text.foldl step s

end Lexer

/-- The tokens of a search text. -/
def tokenize (text : List Char) : List Token :=
  (Lexer.start.run text).tokens

end Token
end SearchBox
