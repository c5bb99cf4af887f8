import SearchBox.Yaml.Lexeme
import SearchBox.Yaml.Scalar

/-!
# From YAML text to lexemes

The lexer reads a YAML text one character at a time and looks at what follows only to tell whether a
character stands alone.  Besides the scalar being read its state holds what YAML makes of layout:

* the columns of the open block collections — text further to the left closes them;
* for each level of brackets a *candidate*, a lexeme that becomes a key if a colon follows it on the
  same line, not too far away;
* whether a key may begin here.

A candidate turns into a key after the fact: the mark of the key is inserted before it.

`Lexeme.ofText?` gives the lexemes of a text.  That brackets match and that collections are built as
they should be is not checked here.
-/

namespace SearchBox
namespace Yaml

/-! ## State -/

/-- A lexeme that becomes a key if a colon follows. -/
structure Candidate where
  /-- How many lexemes come before it. -/
  index : Nat
  line : Nat
  column : Nat
  /-- The bytes before it on its line. -/
  offset : Nat
  /-- Whether nothing but a key can stand there. -/
  required : Bool
  deriving DecidableEq, Repr

/-- What is being read. -/
inductive Mode where
  | between
  | comment
  /-- A document mark, of which so many characters are left. -/
  | mark (left : Nat)
  | plain (f : Folding)
  /-- A scalar in single quotes; `closing` after a quote that may end it. -/
  | single (f : Folding) (closing : Bool)
  | double (f : Folding) (e : Escape)
  | header (h : Header)
  | block (b : Block)
  deriving DecidableEq, Repr

/-- The state of the lexer between two characters. -/
structure Lexer where
  line : Nat := 0
  column : Nat := 0
  /-- The bytes in UTF-8 of the characters read on this line. -/
  offset : Nat := 0
  /-- The columns of the open block collections, innermost first. -/
  indents : List Nat := []
  /-- The candidate inside the innermost brackets. -/
  candidate : Option Candidate := none
  /-- The candidates around each pair of brackets, innermost first. -/
  outer : List (Option Candidate) := []
  /-- Whether a key may begin here. -/
  keyAllowed : Bool := true
  /-- The lexemes read, newest first. -/
  emitted : List Lexeme := []
  /-- How many they are. -/
  count : Nat := 0
  mode : Mode := .between
  deriving DecidableEq, Repr

/-- The greatest distance, in bytes of UTF-8, from the beginning of a key to its colon. -/
def maxKeyLength : Nat := 1024

namespace Lexer

/-! ## Layout -/

/-- Whether the text is inside brackets, where indentation has no meaning. -/
def inFlow (s : Lexer) : Bool :=
  !s.outer.isEmpty

/-- The least column of text inside the innermost block collection. -/
def margin (s : Lexer) : Nat :=
  match s.indents with
  | [] => 0
  | column :: _ => column + 1

/-- The state after a character, with the position moved past it. -/
def advance (s : Lexer) (c : Char) : Lexer :=
  if isBreak c then { s with line := s.line + 1, column := 0, offset := 0 }
  else { s with column := s.column + 1, offset := s.offset + c.utf8Size }

def emit (s : Lexer) (x : Lexeme) : Lexer :=
  { s with emitted := x :: s.emitted, count := s.count + 1 }

/-- Inserts a lexeme so that `index` lexemes come before it. -/
def insert (s : Lexer) (index : Nat) (x : Lexeme) : Lexer :=
  let after := s.count - index
  { s with
    emitted := s.emitted.take after ++ x :: s.emitted.drop after
    count := s.count + 1 }

def emitEnds (s : Lexer) : Nat → Lexer
  | 0 => s
  | n + 1 => (s.emit .blockEnd).emitEnds n

/-- Closes the block collections that lie to the right of a column. -/
def closeBlocks (s : Lexer) (column : Nat) : Lexer :=
  if s.inFlow then s
  else { s.emitEnds (s.indents.takeWhile (column < ·)).length with
    indents := s.indents.dropWhile (column < ·) }

def closeAllBlocks (s : Lexer) : Lexer :=
  if s.inFlow then s
  else { s.emitEnds s.indents.length with indents := [] }

/-- Opens a block collection at a column, if that is further to the right than the open ones.  Its
first lexeme is inserted after `index` lexemes. -/
def openBlock (s : Lexer) (column index : Nat) (x : Lexeme) : Lexer :=
  if s.inFlow || column < s.margin then s
  else { s.insert index x with indents := column :: s.indents }

/-! ## Candidates for keys -/

/-- Whether it is too late for a colon after the candidate. -/
def isStale (s : Lexer) (k : Candidate) : Bool :=
  k.line < s.line || k.offset + maxKeyLength < s.offset

/-- Gives up a candidate if it is too late for it; fails if it had to become a key. -/
def dropStale (s : Lexer) : Option Candidate → Option (Option Candidate)
  | none => some none
  | some k => if s.isStale k then if k.required then none else some none else some (some k)

def dropAllStale (s : Lexer) : Option Lexer :=
  (s.dropStale s.candidate).bind fun candidate =>
    (s.outer.mapM s.dropStale).map fun outer => { s with candidate := candidate, outer := outer }

/-- Gives up the candidate of this level; fails if it had to become a key. -/
def dropCandidate (s : Lexer) : Option Lexer :=
  if s.candidate.any Candidate.required then none else some { s with candidate := none }

/-- Makes the lexeme that begins here a candidate, if a key may begin here. -/
def saveCandidate (s : Lexer) : Option Lexer :=
  if s.keyAllowed then
    s.dropCandidate.map fun s =>
      { s with candidate := some {
          index := s.count
          line := s.line
          column := s.column
          offset := s.offset
          required := !s.inFlow && s.indents.head? == some s.column } }
  else some s

/-! ## Marks -/

/-- Three dashes or three dots that stand alone at the beginning of a line. -/
def documentMark? (s : Lexer) (c : Char) (rest : List Char) : Option Lexeme :=
  if s.column == 0 then
    match c, rest with
    | '-', '-' :: '-' :: rest => if endsWord rest then some .documentStart else none
    | '.', '.' :: '.' :: rest => if endsWord rest then some .documentEnd else none
    | _, _ => none
  else none

/-- A document mark ends everything before it. -/
def readDocumentMark (s : Lexer) (x : Lexeme) : Option Lexer :=
  s.closeAllBlocks.dropCandidate.map fun s =>
    { s.emit x with keyAllowed := false, mode := .mark 2 }

/-- An opening bracket, which may begin a key. -/
def readOpening (s : Lexer) (x : Lexeme) : Option Lexer :=
  s.saveCandidate.map fun s =>
    { s.emit x with outer := s.candidate :: s.outer, candidate := none, keyAllowed := true }

def readClosing (s : Lexer) (x : Lexeme) : Option Lexer :=
  s.dropCandidate.map fun s =>
    { s.emit x with
      candidate := s.outer.headD none
      outer := s.outer.tail
      keyAllowed := false }

def readComma (s : Lexer) : Option Lexer :=
  s.dropCandidate.map fun s => { s.emit .flowEntry with keyAllowed := true }

/-- A mark that begins an entry of a block collection; it must stand where a key may begin. -/
def openEntry (s : Lexer) (x : Lexeme) : Option Lexer :=
  if s.inFlow then some s
  else if s.keyAllowed then some (s.openBlock s.column s.count x)
  else none

def readDash (s : Lexer) : Option Lexer :=
  (s.openEntry .blockSequenceStart).bind fun s =>
    s.dropCandidate.map fun s => { s.emit .blockEntry with keyAllowed := true }

def readQuestion (s : Lexer) : Option Lexer :=
  (s.openEntry .blockMappingStart).bind fun s =>
    s.dropCandidate.map fun s => { s.emit .key with keyAllowed := !s.inFlow }

/-- A colon.  It makes the candidate a key, or else stands for a value whose key was given before or
is empty. -/
def readColon (s : Lexer) : Option Lexer :=
  match s.candidate with
  | some k =>
      -- The mapping begins before the key, so its lexeme is inserted second at the same index.
      let s := (s.insert k.index .key).openBlock k.column k.index .blockMappingStart
      some { s.emit .value with candidate := none, keyAllowed := false }
  | none =>
      (s.openEntry .blockMappingStart).map fun s => { s.emit .value with keyAllowed := !s.inFlow }

def readBlockMark (s : Lexer) (folded : Bool) : Option Lexer :=
  s.dropCandidate.map fun s =>
    { s with keyAllowed := true, mode := .header { folded := folded } }

def readScalar (s : Lexer) (mode : Mode) : Option Lexer :=
  s.saveCandidate.map fun s => { s with keyAllowed := false, mode := mode }

/-- Whether a plain scalar can begin with a character, given what follows it. -/
def beginsPlain (s : Lexer) (c : Char) (rest : List Char) : Bool :=
  if c == '-' then !rest.head?.any isBlank
  else if c == '?' || c == ':' then !s.inFlow && !endsWord rest
  else !(isIndicator c || isBlank c || isBreak c)

def readMark (s : Lexer) (c : Char) (rest : List Char) : Option Lexer :=
  match s.documentMark? c rest with
  | some x => s.readDocumentMark x
  | none =>
      match c with
      | '[' => s.readOpening .flowSequenceStart
      | '\x7b' => s.readOpening .flowMappingStart
      | ']' => s.readClosing .flowSequenceEnd
      | '\x7d' => s.readClosing .flowMappingEnd
      | ',' => s.readComma
      | '\'' => s.readScalar (.single {} false)
      | '"' => s.readScalar (.double {} .none)
      | _ =>
          if c == '-' && endsWord rest then s.readDash
          else if c == '?' && (s.inFlow || endsWord rest) then s.readQuestion
          else if c == ':' && (s.inFlow || endsWord rest) then s.readColon
          else if c == '|' && !s.inFlow then s.readBlockMark false
          else if c == '>' && !s.inFlow then s.readBlockMark true
          else if s.beginsPlain c rest then s.readScalar (.plain ⟨[c], .none⟩)
          else none

/-- Reads a character between lexemes.  Where a key may begin in block context, a tab is no white
space. -/
def readBetween (s : Lexer) (c : Char) (rest : List Char) : Option Lexer :=
  if c == ' ' || (c == '\t' && (s.inFlow || !s.keyAllowed))
      || (c == byteOrderMark && s.column == 0) then
    some s
  else if c == '#' then some { s with mode := .comment }
  else if isBreak c then some (if s.inFlow then s else { s with keyAllowed := true })
  -- A lexeme begins here; only now is it known which candidates and blocks end before it.
  else s.dropAllStale.bind fun s => (s.closeBlocks s.column).readMark c rest

/-! ## Scalars -/

def endScalar (s : Lexer) (isPlain : Bool) (text : List Char) : Lexer :=
  { s.emit (.scalar isPlain text) with mode := .between }

/-- Ends a plain scalar; if it is followed by a line break, a key may begin. -/
def endPlain (s : Lexer) (f : Folding) : Lexer :=
  let s := s.endScalar true f.text.reverse
  if f.gap.hasBreak then { s with keyAllowed := true } else s

/-- Whether a plain scalar ends before a character that is no white space. -/
def plainEnds (s : Lexer) (f : Folding) (c : Char) (rest : List Char) : Bool :=
  -- What was read is a key.
  (c == ':' && endsWord rest)
    || (s.inFlow && isFlowIndicator c)
    -- A comment begins only after white space; only a new line can begin left of the margin.
    || (f.gap != .none && c == '#')
    || (f.gap.hasBreak && !s.inFlow && s.column < s.margin)
    || (s.documentMark? c rest).isSome

/-- A colon between brackets that another mark follows at once. -/
def isCrowdedColon (s : Lexer) (c : Char) (rest : List Char) : Bool :=
  s.inFlow && c == ':' && rest.head?.any (fun d => d == '?' || isFlowIndicator d)

def readPlain (s : Lexer) (f : Folding) (c : Char) (rest : List Char) : Option Lexer :=
  if isBreak c then some { s with mode := .plain (f.space c) }
  else if isBlank c then
    if c == '\t' && f.gap.hasBreak && s.column < s.margin then none
    else some { s with mode := .plain (f.space c) }
  else if s.isCrowdedColon c rest then none
  else if s.plainEnds f c rest then (s.endPlain f).readBetween c rest
  else some { s with mode := .plain (f.push c) }

def readSingle (s : Lexer) (f : Folding) (closing : Bool) (c : Char) (rest : List Char) :
    Option Lexer :=
  if closing then
    if c == '\'' then some { s with mode := .single (f.push c) false }
    else (s.endScalar false f.joined.reverse).readBetween c rest
  else if (s.documentMark? c rest).isSome then none
  else if c == '\'' then some { s with mode := .single f true }
  else if isBlank c || isBreak c then some { s with mode := .single (f.space c) false }
  else some { s with mode := .single (f.push c) false }

def readDouble (s : Lexer) (f : Folding) (e : Escape) (c : Char) (rest : List Char) :
    Option Lexer :=
  if e == .none && c == '"' then some (s.endScalar false f.joined.reverse)
  else if (s.documentMark? c rest).isSome then none
  else (readEscaped f e c).map fun (f, e) => { s with mode := .double f e }

/-- The lines of a block scalar begin after its first line. -/
def beginBlock (s : Lexer) (h : Header) : Block :=
  { folded := h.folded
    chomping := h.chomping.getD .clip
    indent := h.increment.map (s.indents.headD 0 + ·) }

/-- Reads a character in the margin before a line of a block scalar.  The first character that is
neither indentation nor a break settles the indentation, if it was not given. -/
def readMargin (s : Lexer) (b : Block) (c : Char) (rest : List Char) : Option Lexer :=
  let outside := b.indent.all (s.column < ·)
  if c == ' ' && outside then some s
  else if c == '\t' && outside then none
  else
    -- Deeper empty lines before the first line with text set the least column it can begin at.
    let deepest := max b.deepest s.column
    if isBreak c then
      some { s with mode := .block { b with deepest := deepest, empty := c :: b.empty } }
    else if s.column == b.indent.getD (max deepest (max s.margin 1)) then
      some { s with mode := .block (b.beginLine s.column c) }
    else (s.endScalar false b.result).readBetween c rest

def readBlock (s : Lexer) (b : Block) (c : Char) (rest : List Char) : Option Lexer :=
  if b.inLine then
    if isBreak c then some { s with mode := .block { b with lineEnd := some c, inLine := false } }
    else some { s with mode := .block { b with text := c :: b.text } }
  else s.readMargin b c rest

/-! ## The whole text -/

/-- Reads a character, without moving the position. -/
def read (s : Lexer) (c : Char) (rest : List Char) : Option Lexer :=
  match s.mode with
  | .between => s.readBetween c rest
  | .comment => if isBreak c then { s with mode := .between }.readBetween c rest else some s
  | .mark left => some { s with mode := if left ≤ 1 then .between else .mark (left - 1) }
  | .plain f => s.readPlain f c rest
  | .single f closing => s.readSingle f closing c rest
  | .double f e => s.readDouble f e c rest
  | .header h =>
      if isBreak c then some { s with mode := .block (s.beginBlock h) }
      else (h.read c).map fun h => { s with mode := .header h }
  | .block b => s.readBlock b c rest

def step (s : Lexer) (c : Char) (rest : List Char) : Option Lexer :=
  (s.read c rest).map (·.advance c)

/-- Ends the scalar that the end of the text cuts off; a quoted one must have been closed. -/
def endText (s : Lexer) : Option Lexer :=
  match s.mode with
  | .plain f => some (s.endPlain f)
  | .single f true => some (s.endScalar false f.joined.reverse)
  | .single _ false => none
  | .double .. => none
  | .header h => some (s.endScalar false (s.beginBlock h).result)
  | .block b => some (s.endScalar false b.result)
  | _ => some s

/-- The lexemes of a text that ends in this state. -/
def finish (s : Lexer) : Option (List Lexeme) :=
  s.endText.bind fun s => s.dropCandidate.map fun s => s.closeAllBlocks.emitted.reverse

def run (s : Lexer) : List Char → Option (List Lexeme)
  | [] => s.finish
  | c :: rest =>
      match s.step c rest with
      | none => none
      | some s => s.run rest

end Lexer

/-- The lexemes of a YAML text.  A character that YAML does not admit anywhere makes it unreadable;
a byte order mark is admitted, and takes up a column where it begins a line. -/
def Lexeme.ofText? (text : List Char) : Option (List Lexeme) :=
  if text.all isReadable then Lexer.run {} (lines text) else none

end Yaml
end SearchBox
