/-!
# Hexadecimal digits

Numbers as hexadecimal digits, most significant digit first.

* `hexValue` — the value of a digit of either case;
* `hexDigits` — a number written with a given count of lower-case digits.

A number that is too large for the count loses its leading digits.
-/

namespace SearchBox
namespace Text

/-- The value of a hexadecimal digit of either case. -/
def hexValue (c : Char) : Option Nat :=
  if '0' ≤ c && c ≤ '9' then some (c.toNat - '0'.toNat)
  else if 'a' ≤ c && c ≤ 'f' then some (c.toNat - 'a'.toNat + 10)
  else if 'A' ≤ c && c ≤ 'F' then some (c.toNat - 'A'.toNat + 10)
  else none

/-- The last `width` hexadecimal digits of a number, in lower case. -/
def hexDigits : Nat → Nat → List Char
  | 0, _ => []
  | width + 1, n => hexDigits width (n / 16) ++ [Nat.digitChar (n % 16)]

/-- A written digit has the value it was written for. -/
theorem hexValue_digitChar {n : Nat} (h : n < 16) : hexValue (Nat.digitChar n) = some n := by
  have all : ∀ m : Fin 16, hexValue (Nat.digitChar m) = some m.val := by decide
  exact all ⟨n, h⟩

end Text
end SearchBox
