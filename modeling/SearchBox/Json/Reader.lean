import SearchBox.Json

/-!
# Reading JSON text

`Json.read?` reads one value from the beginning of a text and gives what is left of the text.  It
reads compact text only, that is text without white space, and numbers without a sign, a fraction or
an exponent.  In a string it takes the two-character escapes and `\u` with four digits; a code point
written as two surrogates is not read.

The recursion is bounded by a number of values; `read?` gives as many as the text has characters,
since every value takes one at least.
-/

namespace SearchBox
namespace Json

/-! ## Strings and numbers -/

/-- The character that a letter stands for after a backslash. -/
def unescapeLetter (c : Char) : Option Char :=
  if c == '"' then some '"'
  else if c == '\\' then some '\\'
  else if c == '/' then some '/'
  else if c == 'b' then some '\x08'
  else if c == 'f' then some '\x0c'
  else if c == 'n' then some '\n'
  else if c == 'r' then some '\r'
  else if c == 't' then some '\t'
  else none

/-- The character with a code point of four hexadecimal digits. -/
def charOfDigits (a b c d : Char) : Option Char :=
  match Text.hexValue a, Text.hexValue b, Text.hexValue c, Text.hexValue d with
  | some a, some b, some c, some d =>
      let n := ((a * 16 + b) * 16 + c) * 16 + d
      if n.isValidChar then some (Char.ofNat n) else none
  | _, _, _, _ => none

/-- Reads a string after its opening quote. -/
def readString : List Char → Option (List Char × List Char)
  | [] => none
  | '"' :: rest => some ([], rest)
  | '\\' :: 'u' :: a :: b :: c :: d :: rest =>
      match charOfDigits a b c d, readString rest with
      | some x, some (text, rest) => some (x :: text, rest)
      | _, _ => none
  | '\\' :: c :: rest =>
      match unescapeLetter c, readString rest with
      | some x, some (text, rest) => some (x :: text, rest)
      | _, _ => none
  | c :: rest =>
      if c == '\\' || c.toNat < 0x20 then none
      else (readString rest).map fun (text, rest) => (c :: text, rest)

/-- The number that decimal digits stand for. -/
def natOfDigits (ds : List Char) : Nat :=
  ds.foldl (fun n c => n * 10 + (c.toNat - '0'.toNat)) 0

def readNat (text : List Char) : Option (Nat × List Char) :=
  let digits := text.takeWhile Char.isDigit
  if digits.isEmpty then none else some (natOfDigits digits, text.dropWhile Char.isDigit)

/-! ## Values -/

mutual

/-- Reads a value; what is inside it is read with one step less. -/
def readValue : Nat → List Char → Option (Json × List Char)
  | 0, _ => none
  | fuel + 1, text =>
      match text with
      | '"' :: rest => (readString rest).map fun (s, rest) => (.str (String.ofList s), rest)
      | '[' :: ']' :: rest => some (.arr [], rest)
      | '[' :: rest => (readItems fuel rest).map fun (items, rest) => (.arr items, rest)
      | '\x7b' :: '\x7d' :: rest => some (.obj [], rest)
      | '\x7b' :: rest => (readMembers fuel rest).map fun (members, rest) => (.obj members, rest)
      | text => (readNat text).map fun (n, rest) => (.nat n, rest)

/-- Reads the items of an array that has some, with the bracket that ends it. -/
def readItems : Nat → List Char → Option (List Json × List Char)
  | 0, _ => none
  | fuel + 1, text =>
      match readValue fuel text with
      | some (v, ']' :: rest) => some ([v], rest)
      | some (v, ',' :: rest) => (readItems fuel rest).map fun (vs, rest) => (v :: vs, rest)
      | _ => none

/-- Reads the members of an object that has some, with the brace that ends it. -/
def readMembers : Nat → List Char → Option (List (String × Json) × List Char)
  | 0, _ => none
  | fuel + 1, text =>
      match text with
      | '"' :: rest =>
          match readString rest with
          | some (k, ':' :: rest) =>
              match readValue fuel rest with
              | some (v, '\x7d' :: rest) => some ([(String.ofList k, v)], rest)
              | some (v, ',' :: rest) =>
                  (readMembers fuel rest).map fun (ms, rest) => ((String.ofList k, v) :: ms, rest)
              | _ => none
          | _ => none
      | _ => none

end

/-- Reads one value from the beginning of a text. -/
def read? (text : String) : Option (Json × List Char) :=
  readValue text.toList.length text.toList

end Json
end SearchBox
