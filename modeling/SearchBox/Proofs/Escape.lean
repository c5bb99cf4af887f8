import SearchBox.Text.Escape

/-!
# Escaping and taking it back

`Text.unescape` takes back every escaping that covers the backslash, whatever follows
(`unescape_escapeWhere_append`), and `unescape_eq_nil_iff` tells which texts it leaves nothing of.
-/

namespace SearchBox
namespace Text

variable {p : Char → Bool} {t : List Char}

theorem unescape_escapeWhere_append (hp : p '\\' = true) (t rest : List Char) :
    unescape (escapeWhere p t ++ rest) = t ++ unescape rest := by
  induction t with
  | nil => rfl
  | cons c t ih =>
      by_cases hc : p c = true
      · simp [escapeWhere, hc, ih]
      · -- An unescaped character is no backslash, so it stands for itself.
        have hne : c ≠ '\\' := by
          intro heq
          rw [heq] at hc
          exact hc hp
        simp [escapeWhere, hc, unescape_cons_of_ne hne, ih]

theorem unescape_escapeWhere (hp : p '\\' = true) (t : List Char) :
    unescape (escapeWhere p t) = t := by
  have happ := unescape_escapeWhere_append hp t []
  simpa using happ

theorem unescape_eq_nil_iff : unescape t = [] ↔ t = [] ∨ t = ['\\'] := by
  constructor
  · intro h
    match t with
    | [] => exact Or.inl rfl
    | c :: [] =>
        by_cases hc : c = '\\'
        · rw [hc]
          exact Or.inr rfl
        · rw [unescape_cons_of_ne hc] at h
          cases h
    | c :: d :: rest =>
        by_cases hc : c = '\\'
        · rw [hc, unescape_backslash_cons] at h
          cases h
        · rw [unescape_cons_of_ne hc] at h
          cases h
  · rintro (rfl | rfl)
    · rfl
    · rfl

theorem dropEnds_enclosed (a b : Char) (t : List Char) : dropEnds (a :: (t ++ [b])) = t := by
  simp [dropEnds]

end Text
end SearchBox
