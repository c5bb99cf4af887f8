import SearchBox.Proofs.Escape
import SearchBox.Proofs.Positions

/-!
# Marks

A mark is a backslash that takes the next character literally.  The lexer meets the marks of a whole
text, and `Text.unescape` those of a token, a run of words or a phrase without its ends.  This file
says when the two are the same backslashes:

* `unescape_append`, `unescape_append_cons` — where a text can be cut without a change to its
  escapes;
* `unescape_intercalate` — between words it can, even behind a word that ends in a lone backslash;
* `markAt` — whether a mark stands at a position of a text;
* `unmarked_eq_unescape` — behind an unescaped position, taking out the marks of the whole text is
  unescaping the part by itself.
-/

namespace SearchBox
namespace Token

open Text

variable {a t text : List Char} {c : Char} {i j : Nat}

/-! ## Cutting a text -/

/-- Where no escape is pending, the escapes behind do not depend on what is in front. -/
theorem escapedAt_append (ha : escapedAt a a.length = false) (b : List Char) :
    escapedAt (a ++ b) (a ++ b).length = escapedAt b b.length := by
  induction b using List.reverseRecOn with
  | nil =>
      rw [List.append_nil, ha]
      rfl
  | append_singleton b d ih =>
      rw [← List.append_assoc, escapedAt_end_concat, ih, escapedAt_end_concat]

/-- An escape is pending only behind a backslash that is not escaped itself. -/
theorem exists_backslash (h : escapedAt t t.length = true) :
    ∃ u, t = u ++ ['\\'] ∧ escapedAt u u.length = false := by
  rcases List.eq_nil_or_concat t with rfl | ⟨u, d, rfl⟩
  · cases h
  · rw [List.concat_eq_append, escapedAt_end_concat] at h
    have hback : escapedAt u u.length = false ∧ d = '\\' := by simpa using h
    exact ⟨u, by rw [List.concat_eq_append, hback.2], hback.1⟩

theorem escapedAt_singleton (hc : c ≠ '\\') : escapedAt [c] [c].length = false := by
  rw [← List.nil_append [c], escapedAt_end_concat]
  simp [hc]

theorem escapedAt_pair (c : Char) : escapedAt ['\\', c] ['\\', c].length = false :=
  escapedAt_end_concat ['\\'] c

theorem unescape_append (ha : escapedAt a a.length = false) (b : List Char) :
    unescape (a ++ b) = unescape a ++ unescape b := by
  induction a using unescape.induct with
  | case1 => rfl
  | case2 => cases ha
  | case3 d rest ih =>
      have hrest := escapedAt_append (escapedAt_pair d) rest
      rw [List.cons_append, List.cons_append, List.nil_append, ha] at hrest
      rw [List.cons_append, List.cons_append, unescape_backslash_cons, ih hrest.symm,
        unescape_backslash_cons, List.cons_append]
  | case4 d rest hlone hpair ih =>
      have hne : d ≠ '\\' := by
        rintro rfl
        cases rest with
        | nil => exact hlone rfl rfl
        | cons e rest => exact hpair e rest rfl rfl
      have hrest := escapedAt_append (escapedAt_singleton hne) rest
      rw [List.singleton_append, ha] at hrest
      rw [List.cons_append, unescape_cons_of_ne hne, ih hrest.symm, unescape_cons_of_ne hne,
        List.cons_append]

/-- In front of anything but a backslash a text can be cut in any case: an escape that is pending
there only says that the character stands for itself. -/
theorem unescape_append_cons (a : List Char) (hc : c ≠ '\\') (b : List Char) :
    unescape (a ++ c :: b) = unescape a ++ c :: unescape b := by
  cases ha : escapedAt a a.length with
  | false => rw [unescape_append ha, unescape_cons_of_ne hc]
  | true =>
      obtain ⟨u, rfl, hu⟩ := exists_backslash ha
      rw [List.append_assoc, unescape_append hu, unescape_append hu]
      simp

/-- Behind a text, only a backslash that is not escaped is dropped. -/
theorem unescape_concat (t : List Char) (c : Char) :
    unescape (t ++ [c])
      = unescape t ++ if (c == '\\' && !escapedAt t t.length) = true then [] else [c] := by
  by_cases hc : c = '\\'
  · cases ht : escapedAt t t.length with
    | false => simp [unescape_append ht, hc]
    | true =>
        obtain ⟨u, rfl, hu⟩ := exists_backslash ht
        rw [List.append_assoc, unescape_append hu, unescape_append hu]
        simp [hc]
  · rw [unescape_append_cons t hc]
    simp [hc]

/-- Words can be unescaped before or after they are joined. -/
theorem unescape_intercalate (words : List (List Char)) :
    unescape ([' '].intercalate words) = [' '].intercalate (words.map unescape) := by
  induction words with
  | nil => rfl
  | cons w words ih =>
      cases words with
      | nil => simp
      | cons v words =>
          rw [List.intercalate_cons_cons, List.append_assoc, List.singleton_append,
            unescape_append_cons w (by decide), ih, List.map_cons, List.map_cons, List.map_cons,
            List.intercalate_cons_cons, List.append_assoc, List.singleton_append]

/-- Without its ends, a text that begins with no backslash has its own escapes but for the last one:
a lone backslash at the end is cut off with the rest, and so takes no character with it. -/
theorem unescape_dropEnds (hc : c ≠ '\\') (t : List Char) :
    unescape (dropEnds (c :: t))
      = if escapedAt (c :: t) (c :: t).length = true then (unescape (c :: t)).tail
        else dropEnds (unescape (c :: t)) := by
  have hescaped := escapedAt_append (escapedAt_singleton hc) t
  rw [List.singleton_append] at hescaped
  rw [hescaped, unescape_cons_of_ne hc]
  rcases List.eq_nil_or_concat t with rfl | ⟨u, d, rfl⟩
  · rfl
  · rw [List.concat_eq_append, dropEnds_enclosed, unescape_concat, escapedAt_end_concat,
      Bool.and_comm]
    split
    · simp
    · rw [dropEnds_enclosed]

/-! ## The marks of a text -/

/-- Whether a backslash stands at a position that is not escaped itself. -/
def markAt (text : List Char) (i : Nat) : Bool :=
  text[i]? == some '\\' && !escapedAt text i

/-- The characters from one position on and before another, without the marks. -/
def unmarked (text : List Char) (span : Nat × Nat) : List Char :=
  (List.range' span.1 (span.2 - span.1)).filterMap fun k =>
    if markAt text k then none else text[k]?

/-- Whether a position is escaped depends on what stands before it only. -/
theorem escapedAt_take (text : List Char) (i : Nat) :
    escapedAt (text.take i) (text.take i).length = escapedAt text i := by
  unfold escapedAt
  rw [List.take_length]

theorem escapedAt_succ (h : i < text.length) :
    escapedAt text (i + 1) = (!escapedAt text i && text[i] == '\\') := by
  rw [← escapedAt_take, ← escapedAt_take text i, ← List.take_append_getElem h,
    escapedAt_end_concat]

/-- The marks are the backslashes with which the lexer begins an escape. -/
theorem markAt_eq_escaped (h : i < text.length) :
    markAt text i = (Lexer.start.run (text.take (i + 1))).escaped := by
  rw [(flags_run _).1, escapedAt_take, escapedAt_succ h, markAt, List.getElem?_eq_getElem h,
    Bool.and_comm]
  rfl

/-! ## Parts of a text -/

/-- Behind an unescaped position, a part of a text has its own escapes. -/
theorem escapedAt_slice (hij : i ≤ j) (hi : escapedAt text i = false) :
    escapedAt (slice text (i, j)) (slice text (i, j)).length = escapedAt text j := by
  have hcut : text.take i ++ slice text (i, j) = text.take j := by
    have happ := List.take_append_drop i (text.take j)
    rwa [List.take_take, Nat.min_eq_left hij] at happ
  rw [← escapedAt_take] at hi
  rw [← escapedAt_append hi, hcut, escapedAt_take]

theorem slice_succ (hij : i ≤ j) (hj : j < text.length) :
    slice text (i, j + 1) = slice text (i, j) ++ [text[j]] := by
  simp only [slice]
  rw [← List.take_append_getElem hj, List.drop_append_of_le_length]
  rw [List.length_take_of_le (Nat.le_of_lt hj)]
  exact hij

theorem unmarked_succ (hij : i ≤ j) (hj : j < text.length) :
    unmarked text (i, j + 1)
      = unmarked text (i, j) ++ if markAt text j = true then [] else [text[j]] := by
  have hcount : j + 1 - i = j - i + 1 := Nat.succ_sub hij
  have hlast : i + (j - i) = j := Nat.add_sub_of_le hij
  simp only [unmarked]
  rw [hcount, List.range'_1_concat, hlast, List.filterMap_append]
  cases hmark : markAt text j with
  | true => simp [hmark]
  | false => simp [hmark, List.getElem?_eq_getElem hj]

/-- Behind an unescaped position, the part of a text up to any other position has its own marks:
taking out those of the whole text is unescaping the part by itself. -/
theorem unmarked_eq_unescape (hij : i ≤ j) (hj : j ≤ text.length)
    (hi : escapedAt text i = false) :
    unmarked text (i, j) = unescape (slice text (i, j)) := by
  induction hij with
  | refl => simp [unmarked, slice]
  | @step j hij ih =>
      have hlt : j < text.length := hj
      rw [unmarked_succ hij hlt, slice_succ hij hlt, ih (Nat.le_of_lt hlt), unescape_concat,
        escapedAt_slice hij hi, markAt, List.getElem?_eq_getElem hlt]
      rfl

end Token
end SearchBox
