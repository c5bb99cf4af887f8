import SearchBox.Yaml.Lexer

/-!
# YAML nodes

A YAML document is a node: a scalar, a sequence or a mapping.  `Node.ofLexemes?` builds it from the
lexemes of a text with a stack of the collections that are still open, one `Frame` for each.

* A place where a node may be left out gets the empty node.
* In a block mapping the items of a sequence may stand as far to the left as the keys; such a
  sequence has no lexeme of its own at either end.
* Between square brackets a key with its value is a mapping of one entry.
* A text holds at most one document; a text without any has the empty node.

Equal keys are not looked for here.
-/

namespace SearchBox
namespace Yaml

/-- A YAML value as it is written. -/
inductive Node where
  /-- A scalar with its text; `plain` if it was written without quotes or a block mark. -/
  | scalar (plain : Bool) (text : List Char)
  | sequence (items : List Node)
  | mapping (entries : List (Node × Node))
  deriving Repr

/-- The node that stands where none is written. -/
def Node.empty : Node := .scalar true []

/-! ## Open collections -/

/-- What is due in a block sequence. -/
inductive ItemSlot where
  | dash
  | item
  deriving DecidableEq, Repr

/-- What is due in a mapping. -/
inductive EntrySlot where
  | keyMark
  | key
  | valueMark (key : Node)
  | value (key : Node)
  /-- Between braces, a comma. -/
  | comma
  deriving Repr

/-- A collection that is still open; its items or entries have the newest first. -/
inductive Frame where
  | blockSequence (items : List Node) (slot : ItemSlot)
  /-- A block sequence as far to the left as the keys of the mapping around it. -/
  | flushSequence (items : List Node) (slot : ItemSlot)
  | blockMapping (entries : List (Node × Node)) (slot : EntrySlot)
  /-- A sequence in brackets; `comma` if a comma or the end is due. -/
  | flowSequence (items : List Node) (comma : Bool)
  | flowMapping (entries : List (Node × Node)) (slot : EntrySlot)
  /-- An entry that stands as an item of a sequence in brackets. -/
  | flowPair (slot : EntrySlot)
  deriving Repr

/-- How far a document has been read. -/
inductive Progress where
  /-- Nothing but the beginning has been seen. -/
  | before
  /-- The document has been begun by its mark. -/
  | begun
  | complete (root : Node)
  deriving Repr

/-- The state of the builder: the progress of the document and the open collections, innermost
first. -/
structure Builder where
  progress : Progress := .before
  frames : List Frame := []
  deriving Repr

namespace Builder

/-! ## Placing nodes -/

/-- Puts a finished node into the innermost open collection. -/
def place (n : Node) (b : Builder) : Option Builder :=
  match b.frames with
  | [] => some { b with progress := .complete n }
  | .blockSequence items _ :: below =>
      some { b with frames := .blockSequence (n :: items) .dash :: below }
  | .flushSequence items _ :: below =>
      some { b with frames := .flushSequence (n :: items) .dash :: below }
  | .blockMapping entries (.value k) :: below =>
      some { b with frames := .blockMapping ((k, n) :: entries) .keyMark :: below }
  | .blockMapping entries _ :: below =>
      some { b with frames := .blockMapping entries (.valueMark n) :: below }
  | .flowSequence items _ :: below =>
      some { b with frames := .flowSequence (n :: items) true :: below }
  | .flowMapping entries (.value k) :: below =>
      some { b with frames := .flowMapping ((k, n) :: entries) .comma :: below }
  | .flowMapping entries .key :: below =>
      some { b with frames := .flowMapping entries (.valueMark n) :: below }
  | .flowMapping entries _ :: below =>
      some { b with frames := .flowMapping ((n, .empty) :: entries) .comma :: below }
  | .flowPair (.value k) :: .flowSequence items _ :: below =>
      some { b with frames := .flowSequence (.mapping [(k, n)] :: items) true :: below }
  | .flowPair (.value _) :: _ => none
  | .flowPair _ :: below => some { b with frames := .flowPair (.valueMark n) :: below }

def push (f : Frame) (b : Builder) : Option Builder :=
  some { b with frames := f :: b.frames }

/-- Begins a node between brackets. -/
def beginFlow (x : Lexeme) (b : Builder) : Option Builder :=
  match x with
  | .scalar isPlain text => b.place (.scalar isPlain text)
  | .flowSequenceStart => b.push (.flowSequence [] false)
  | .flowMappingStart => b.push (.flowMapping [] .keyMark)
  | _ => none

/-- Begins a node in block context. -/
def beginBlock (x : Lexeme) (b : Builder) : Option Builder :=
  match x with
  | .blockSequenceStart => b.push (.blockSequence [] .dash)
  | .blockMappingStart => b.push (.blockMapping [] .keyMark)
  | _ => b.beginFlow x

/-- Begins a key or a value of a block mapping, which may be a sequence without an indentation of
its own. -/
def beginEntry (x : Lexeme) (b : Builder) : Option Builder :=
  match x with
  | .blockEntry => b.push (.flushSequence [] .item)
  | _ => b.beginBlock x

/-! ## Reading a lexeme inside each kind of collection

Where a lexeme shows that a node was left out, the empty node takes its place and the lexeme is read
again in the state after it. -/

def readItem (b : Builder) (below : List Frame) (items : List Node) (slot : ItemSlot) (x : Lexeme) :
    Option Builder :=
  let atDash (items : List Node) : Option Builder :=
    match x with
    | .blockEntry => some { b with frames := .blockSequence items .item :: below }
    | .blockEnd => place (.sequence items.reverse) { b with frames := below }
    | _ => none
  match slot with
  | .dash => atDash items
  | .item =>
      match x with
      | .blockEntry | .blockEnd => atDash (.empty :: items)
      | _ => b.beginBlock x

def readEntry (b : Builder) (below : List Frame) (entries : List (Node × Node)) (slot : EntrySlot)
    (x : Lexeme) : Option Builder :=
  let moveTo (entries : List (Node × Node)) (slot : EntrySlot) : Option Builder :=
    some { b with frames := .blockMapping entries slot :: below }
  let atKeyMark (entries : List (Node × Node)) : Option Builder :=
    match x with
    | .key => moveTo entries .key
    | .blockEnd => place (.mapping entries.reverse) { b with frames := below }
    | _ => none
  let atValueMark (k : Node) : Option Builder :=
    match x with
    | .value => moveTo entries (.value k)
    | _ => atKeyMark ((k, .empty) :: entries)
  match slot with
  | .keyMark | .comma => atKeyMark entries
  | .valueMark k => atValueMark k
  | .key =>
      match x with
      | .key | .value | .blockEnd => atValueMark .empty
      | _ => b.beginEntry x
  | .value k =>
      match x with
      | .key | .value | .blockEnd => atKeyMark ((k, .empty) :: entries)
      | _ => b.beginEntry x

/-- A lexeme in a block sequence without an indentation of its own.  Anything but a dash ends it and
belongs to the mapping around it. -/
def readFlushItem (b : Builder) (below : List Frame) (items : List Node) (slot : ItemSlot)
    (x : Lexeme) : Option Builder :=
  let atDash (items : List Node) : Option Builder :=
    match x with
    | .blockEntry => some { b with frames := .flushSequence items .item :: below }
    | _ =>
        (place (.sequence items.reverse) { b with frames := below }).bind fun b =>
          match b.frames with
          | .blockMapping entries slot :: below => b.readEntry below entries slot x
          | _ => none
  match slot with
  | .dash => atDash items
  | .item =>
      match x with
      | .blockEntry | .key | .value | .blockEnd => atDash (.empty :: items)
      | _ => b.beginBlock x

def readFlowItem (b : Builder) (below : List Frame) (items : List Node) (comma : Bool)
    (x : Lexeme) : Option Builder :=
  match x with
  | .flowSequenceEnd => place (.sequence items.reverse) { b with frames := below }
  | _ =>
      if comma then
        match x with
        | .flowEntry => some { b with frames := .flowSequence items false :: below }
        | _ => none
      else
        match x with
        | .key => b.push (.flowPair .key)
        | _ => b.beginFlow x

def readFlowEntry (b : Builder) (below : List Frame) (entries : List (Node × Node))
    (slot : EntrySlot) (x : Lexeme) : Option Builder :=
  let moveTo (entries : List (Node × Node)) (slot : EntrySlot) : Option Builder :=
    some { b with frames := .flowMapping entries slot :: below }
  let atComma (entries : List (Node × Node)) : Option Builder :=
    match x with
    | .flowEntry => moveTo entries .keyMark
    | .flowMappingEnd => place (.mapping entries.reverse) { b with frames := below }
    | _ => none
  let atValueMark (k : Node) : Option Builder :=
    match x with
    | .value => moveTo entries (.value k)
    | _ => atComma ((k, .empty) :: entries)
  match slot with
  | .keyMark =>
      match x with
      | .key => moveTo entries .key
      | .flowMappingEnd => atComma entries
      | _ => b.beginFlow x
  | .comma => atComma entries
  | .valueMark k => atValueMark k
  | .key =>
      match x with
      | .value | .flowEntry | .flowMappingEnd => atValueMark .empty
      | _ => b.beginFlow x
  | .value k =>
      match x with
      | .flowEntry | .flowMappingEnd => atComma ((k, .empty) :: entries)
      | _ => b.beginFlow x

/-- A lexeme in an entry that is an item in brackets.  A key that is left out takes the lexeme after
its mark with it. -/
def readPair (b : Builder) (below : List Frame) (slot : EntrySlot) (x : Lexeme) : Option Builder :=
  let finish (k : Node) : Option Builder :=
    match below with
    | .flowSequence items _ :: below =>
        b.readFlowItem below (.mapping [(k, .empty)] :: items) true x
    | _ => none
  match slot with
  | .key =>
      match x with
      | .value | .flowEntry | .flowSequenceEnd =>
          -- The lexeme is spent on the empty key, unlike everywhere else.
          some { b with frames := .flowPair (.valueMark .empty) :: below }
      | _ => b.beginFlow x
  | .valueMark k =>
      match x with
      | .value => some { b with frames := .flowPair (.value k) :: below }
      | _ => finish k
  | .value k =>
      match x with
      | .flowEntry | .flowSequenceEnd => finish k
      | _ => b.beginFlow x
  | _ => none

def readOutside (b : Builder) (x : Lexeme) : Option Builder :=
  match b.progress, x with
  | .before, .documentStart => some { b with progress := .begun }
  | .before, _ => b.beginBlock x
  | .begun, .documentStart => none
  | .begun, .documentEnd => some { b with progress := .complete .empty }
  | .begun, _ => b.beginBlock x
  | .complete _, .documentEnd => some b
  | .complete _, _ => none

def read (b : Builder) (x : Lexeme) : Option Builder :=
  match b.frames with
  | [] => b.readOutside x
  | .blockSequence items slot :: below => b.readItem below items slot x
  | .flushSequence items slot :: below => b.readFlushItem below items slot x
  | .blockMapping entries slot :: below => b.readEntry below entries slot x
  | .flowSequence items comma :: below => b.readFlowItem below items comma x
  | .flowMapping entries slot :: below => b.readFlowEntry below entries slot x
  | .flowPair slot :: below => b.readPair below slot x

def run (b : Builder) : List Lexeme → Option Builder
  | [] => some b
  | x :: xs =>
      match b.read x with
      | none => none
      | some b => b.run xs

/-- The node of a document that ends here; no collection may be open. -/
def finish (b : Builder) : Option Node :=
  match b.frames, b.progress with
  | [], .complete root => some root
  | [], _ => some .empty
  | _ :: _, _ => none

end Builder

namespace Node

/-- The node that lexemes stand for. -/
def ofLexemes? (xs : List Lexeme) : Option Node :=
  (Builder.run {} xs).bind Builder.finish

def ofText? (text : List Char) : Option Node :=
  (Lexeme.ofText? text).bind ofLexemes?

end Node
end Yaml
end SearchBox
