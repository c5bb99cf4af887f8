import SearchBox.Text.Hex

/-!
# Natural numbers in a YAML text

A natural number is spelled in decimal without leading zeros, or with one of the marks `0x`, `0o`
and `0b` and digits of that base; one plus sign may stand before it.  After a mark zeros may lead.

`natOf?` reads such a spelling exactly, however long it is.  What is the largest number of interest
is for the caller to say.
-/

namespace SearchBox
namespace Yaml

/-- The value of a digit in a base up to sixteen. -/
def digitValue (base : Nat) (c : Char) : Option Nat :=
  (Text.hexValue c).filter (· < base)

/-- The value of digits that come after others whose value is `n`. -/
def foldDigits (base : Nat) (n : Nat) : List Char → Option Nat
  | [] => some n
  | c :: rest =>
      match digitValue base c with
      | some d => foldDigits base (n * base + d) rest
      | none => none

/-- The value of digits, of which there must be one at least. -/
def digitsValue (base : Nat) (ds : List Char) : Option Nat :=
  if ds.isEmpty then none else foldDigits base 0 ds

/-- The natural number that a text spells without a sign. -/
def unsignedOf? : List Char → Option Nat
  | '0' :: 'x' :: ds => digitsValue 16 ds
  | '0' :: 'o' :: ds => digitsValue 8 ds
  | '0' :: 'b' :: ds => digitsValue 2 ds
  | '0' :: _ :: _ => none
  | ds => digitsValue 10 ds

/-- The natural number that a text spells. -/
def natOf? : List Char → Option Nat
  | '+' :: rest => unsignedOf? rest
  | text => unsignedOf? text

end Yaml
end SearchBox
