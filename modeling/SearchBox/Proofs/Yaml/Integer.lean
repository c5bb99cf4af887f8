import Mathlib.Data.Nat.Digits.Lemmas
import SearchBox.Proofs.Yaml.Quoted
import SearchBox.Yaml.Integer

/-!
# Numbers are read as they are spelled

What a number may look like is said here without a reader: digits of a base spell the number whose
digits they are.

* `IsNumeral` — digits of one base, with their value;
* `IsSpelling` — the spellings of a number in decimal and after a mark, with or without a plus sign;
* `natOf?_of_isSpelling` — a spelling is read as the number that it spells, however long it is;
* `isSpelling_toDigits` — the decimal digits of a number are one of its spellings.
-/

namespace SearchBox
namespace Yaml

/-! ## Spellings -/

/-- A character stands for a digit of a base; a letter may be of either case. -/
def IsDigit (base d : Nat) (c : Char) : Prop :=
  d < base ∧ (c = Nat.digitChar d ∨ c = (Nat.digitChar d).toUpper)

/-- Characters stand for the digits of a number, the most significant one first.  There must be one
at least, and zeros may lead. -/
def IsNumeral (base : Nat) (cs : List Char) (n : Nat) : Prop :=
  cs ≠ [] ∧ ∃ ds, List.Forall₂ (IsDigit base) ds cs ∧ Nat.ofDigits base ds.reverse = n

/-- The spellings of a number without a sign.  In decimal no zero leads. -/
inductive IsUnsigned : List Char → Nat → Prop
  | decimal {cs : List Char} {n : Nat} (h : IsNumeral 10 cs n)
      (hzero : cs.head? = some '0' → cs = ['0']) : IsUnsigned cs n
  | hexadecimal {cs : List Char} {n : Nat} (h : IsNumeral 16 cs n) : IsUnsigned ('0' :: 'x' :: cs) n
  | octal {cs : List Char} {n : Nat} (h : IsNumeral 8 cs n) : IsUnsigned ('0' :: 'o' :: cs) n
  | binary {cs : List Char} {n : Nat} (h : IsNumeral 2 cs n) : IsUnsigned ('0' :: 'b' :: cs) n

/-- The spellings of a number. -/
inductive IsSpelling : List Char → Nat → Prop
  | unsigned {cs : List Char} {n : Nat} (h : IsUnsigned cs n) : IsSpelling cs n
  | plus {cs : List Char} {n : Nat} (h : IsUnsigned cs n) : IsSpelling ('+' :: cs) n

variable {base d n : Nat} {c : Char} {cs : List Char}

/-! ## Digits -/

/-- A digit has the value it stands for. -/
theorem digitValue_of_isDigit (hbase : base ≤ 16) (h : IsDigit base d c) :
    digitValue base c = some d := by
  have hd : d < 16 := Nat.lt_of_lt_of_le h.1 hbase
  have hvalue : Text.hexValue c = some d := by
    rcases h.2 with rfl | rfl
    · exact Text.hexValue_digitChar hd
    · exact (hexValue_toUpper_digitChar hd).1
  simp [digitValue, hvalue, Option.filter, h.1]

theorem isWordChar_of_isDigit (hbase : base ≤ 16) (h : IsDigit base d c) : isWordChar c = true := by
  have hword : ∀ m : Fin 16, isWordChar (Nat.digitChar m) = true
      ∧ isWordChar (Nat.digitChar m).toUpper = true := by decide
  have hd := hword ⟨d, Nat.lt_of_lt_of_le h.1 hbase⟩
  rcases h.2 with rfl | rfl
  · exact hd.1
  · exact hd.2

/-! ## Numerals -/

/-- Digits are read from the left: what was read before them counts for as many more places as there
are digits. -/
theorem foldDigits_of_forall₂ {ds : List Nat} (hbase : base ≤ 16)
    (h : List.Forall₂ (IsDigit base) ds cs) (m : Nat) :
    foldDigits base m cs = some (m * base ^ cs.length + Nat.ofDigits base ds.reverse) := by
  induction h generalizing m with
  | nil => simp [foldDigits]
  | @cons d c ds cs hd hds ih =>
      have hlength : ds.reverse.length = cs.length := by
        rw [List.length_reverse, hds.length_eq]
      have hvalue : Nat.ofDigits base (d :: ds).reverse
          = Nat.ofDigits base ds.reverse + base ^ cs.length * d := by
        rw [List.reverse_cons, Nat.ofDigits_append, Nat.ofDigits_singleton, hlength]
      simp only [foldDigits, digitValue_of_isDigit hbase hd, ih, hvalue, List.length_cons]
      congr 1
      ring

theorem digitsValue_of_isNumeral (hbase : base ≤ 16) (h : IsNumeral base cs n) :
    digitsValue base cs = some n := by
  obtain ⟨hne, ds, hds, hvalue⟩ := h
  have hsome : cs.isEmpty = false := by simpa using hne
  rw [digitsValue, hsome, if_neg (by decide), foldDigits_of_forall₂ hbase hds, hvalue,
    Nat.zero_mul, Nat.zero_add]

theorem IsNumeral.exists_isDigit (h : IsNumeral base cs n) (hc : c ∈ cs) : ∃ d, IsDigit base d c := by
  obtain ⟨_, ds, hds, _⟩ := h
  clear * - hds hc
  induction hds with
  | nil => cases hc
  | @cons d _ _ _ hd _ ih =>
      rcases List.mem_cons.mp hc with rfl | hc
      · exact ⟨d, hd⟩
      · exact ih hc

theorem IsNumeral.isWordChar (hbase : base ≤ 16) (h : IsNumeral base cs n) (hc : c ∈ cs) :
    isWordChar c = true :=
  let ⟨_, hd⟩ := h.exists_isDigit hc
  isWordChar_of_isDigit hbase hd

/-! ## What is read -/

theorem unsignedOf?_of_isUnsigned (h : IsUnsigned cs n) : unsignedOf? cs = some n := by
  cases h with
  | hexadecimal h => exact digitsValue_of_isNumeral (by decide) h
  | octal h => exact digitsValue_of_isNumeral (by decide) h
  | binary h => exact digitsValue_of_isNumeral (by decide) h
  | decimal h hzero =>
      have hdecimal : unsignedOf? cs = digitsValue 10 cs := by
        -- Every other case needs something behind a leading zero.
        unfold unsignedOf?
        split
        · cases hzero rfl
        · cases hzero rfl
        · cases hzero rfl
        · cases hzero rfl
        · rfl
      rw [hdecimal, digitsValue_of_isNumeral (by decide) h]

/-- Without a sign a number is spelled by a word. -/
theorem IsUnsigned.isWordChar (h : IsUnsigned cs n) (hc : c ∈ cs) : isWordChar c = true := by
  have hmarked : ∀ {base mark digits}, base ≤ 16 → Yaml.isWordChar mark = true →
      IsNumeral base digits n → c ∈ '0' :: mark :: digits → Yaml.isWordChar c = true := by
    intro base mark digits hbase hmark hdigits hc
    simp only [List.mem_cons] at hc
    rcases hc with rfl | rfl | hc
    · decide
    · exact hmark
    · exact hdigits.isWordChar hbase hc
  cases h with
  | decimal h => exact h.isWordChar (by decide) hc
  | hexadecimal h => exact hmarked (by decide) (by decide) h hc
  | octal h => exact hmarked (by decide) (by decide) h hc
  | binary h => exact hmarked (by decide) (by decide) h hc

theorem IsUnsigned.ne_nil (h : IsUnsigned cs n) : cs ≠ [] := by
  cases h with
  | decimal h => exact h.1
  | hexadecimal => exact List.cons_ne_nil _ _
  | octal => exact List.cons_ne_nil _ _
  | binary => exact List.cons_ne_nil _ _

/-- A spelling is read as the number that it spells. -/
theorem natOf?_of_isSpelling (h : IsSpelling cs n) : natOf? cs = some n := by
  cases h with
  | plus h => exact unsignedOf?_of_isUnsigned h
  | unsigned h =>
      unfold natOf?
      split
      · exact absurd (h.isWordChar (List.mem_cons_self ..)) (by decide)
      · exact unsignedOf?_of_isUnsigned h

/-- A number is spelled in ordinary characters. -/
theorem IsSpelling.isOrdinary (h : IsSpelling cs n) (hc : c ∈ cs) : IsOrdinary c := by
  cases h with
  | unsigned h => exact isOrdinary_of_isWordChar (h.isWordChar hc)
  | plus h =>
      rcases List.mem_cons.mp hc with rfl | hc
      · exact isOrdinary_plus
      · exact isOrdinary_of_isWordChar (h.isWordChar hc)

theorem IsSpelling.ne_nil (h : IsSpelling cs n) : cs ≠ [] := by
  cases h with
  | unsigned h => exact h.ne_nil
  | plus => exact List.cons_ne_nil _ _

/-! ## The digits of a number -/

/-- The digits of a number are a numeral for it. -/
theorem isNumeral_toDigits (hbase : 1 < base) (n : Nat) : IsNumeral base (Nat.toDigits base n) n := by
  refine ⟨Nat.toDigits_ne_nil, ?_⟩
  induction n using Nat.strongRecOn with
  | ind n ih =>
      by_cases hsmall : n < base
      · refine ⟨[n], ?_, by simp⟩
        rw [Nat.toDigits_of_lt_base hsmall]
        exact .cons ⟨hsmall, Or.inl rfl⟩ .nil
      · -- The last digit stands behind the digits of what is left without it.
        have hlarge : base ≤ n := Nat.le_of_not_lt hsmall
        obtain ⟨ds, hds, hvalue⟩ := ih (n / base) (Nat.div_lt_self (by omega) hbase)
        refine ⟨ds ++ [n % base], ?_, ?_⟩
        · rw [Nat.toDigits_of_base_le hbase hlarge]
          exact List.rel_append hds (.cons ⟨Nat.mod_lt n (by omega), Or.inl rfl⟩ .nil)
        · rw [List.reverse_append, List.reverse_singleton, List.singleton_append, Nat.ofDigits_cons,
            hvalue]
          exact Nat.mod_add_div n base

/-- A positive number does not begin with a zero. -/
theorem head?_toDigits_ne_zero {n : Nat} (hn : 0 < n) : (Nat.toDigits 10 n).head? ≠ some '0' := by
  induction n using Nat.strongRecOn with
  | ind n ih =>
      by_cases hsmall : n < 10
      · have all : ∀ m : Fin 10, 0 < m.val → Nat.digitChar m.val ≠ '0' := by decide
        have hdigit : Nat.digitChar n ≠ '0' := all ⟨n, hsmall⟩ hn
        rw [Nat.toDigits_of_lt_base hsmall]
        simpa using hdigit
      · -- The leading digits are those of `n / 10`.
        have hlarge : 10 ≤ n := Nat.le_of_not_lt hsmall
        have hhead := ih (n / 10) (by omega) (by omega)
        rw [Nat.toDigits_of_base_le (by decide) hlarge]
        cases hdigits : Nat.toDigits 10 (n / 10) with
        | nil => exact absurd hdigits Nat.toDigits_ne_nil
        | cons d ds =>
            rw [hdigits] at hhead
            exact hhead

/-- The decimal digits of a number spell it. -/
theorem isSpelling_toDigits (n : Nat) : IsSpelling (Nat.toDigits 10 n) n := by
  refine .unsigned (.decimal (isNumeral_toDigits (by decide) n) fun hhead => ?_)
  rcases Nat.eq_zero_or_pos n with rfl | hpos
  · exact Nat.toDigits_zero 10
  · exact absurd hhead (head?_toDigits_ne_zero hpos)

end Yaml
end SearchBox
