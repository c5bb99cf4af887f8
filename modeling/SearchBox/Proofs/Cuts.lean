import SearchBox.Proofs.Marks

/-!
# Unescaping and cutting

`Text.unescape` takes two characters at once behind a backslash, so a cut between the two changes
what it gives.  This file says which cuts it does not notice, by the backslashes in front of them:

* `unescape_append_iff` — a text can be cut in two behind anything but a lone backslash, and only
  there;
* `unescape_escapeWhere_iff` — an escaping is taken back if it covers the backslash, and only then;
* `unescape_dropEnds_of_even`, `unescape_dropEnds_of_odd` — the two ends of a text can be cut off
  before or after it is unescaped, unless it ends in a lone backslash.

A cut that leaves half of an escape at the end of a text does no harm: the backslash that is left
there is dropped, as the whole pair would have been.  What is not covered is a text that begins with
a backslash.
-/

namespace SearchBox
namespace Token

open Text

variable {u text : List Char} {c : Char}

/-! ## Two parts -/

/-- Behind a lone backslash one more is taken literally, but by itself it is dropped. -/
theorem unescape_append_iff (a : List Char) :
    (∀ rest, unescape (a ++ rest) = unescape a ++ unescape rest)
      ↔ trailingBackslashes a % 2 = 0 := by
  rw [← escapedAt_end_eq_false_iff]
  constructor
  · intro happend
    rw [← Bool.not_eq_true]
    intro hescaped
    obtain ⟨u, rfl, hu⟩ := exists_backslash hescaped
    have hback := happend ['\\']
    rw [List.append_assoc, unescape_append hu, unescape_append hu] at hback
    simp at hback
  · intro ha rest
    exact unescape_append ha rest

/-- A backslash that is written as it stands is lost. -/
theorem unescape_escapeWhere_iff (p : Char → Bool) :
    (∀ t, unescape (escapeWhere p t) = t) ↔ p '\\' = true := by
  constructor
  · intro hundone
    by_contra hp
    have hback := hundone ['\\']
    simp [escapeWhere, hp] at hback
  · exact unescape_escapeWhere

/-- Unescaping takes back, in front of any other text, exactly those escapings that put a backslash
before every backslash, whatever else they put one before; and it can be done part by part exactly
where the first part does not end in a lone backslash. -/
theorem unescape_in_context :
    (∀ p : Char → Bool,
        ((∀ t rest, unescape (escapeWhere p t ++ rest) = t ++ unescape rest) ↔ p '\\' = true)
          ∧ ((∀ t, unescape (escapeWhere p t) = t) ↔ p '\\' = true))
      ∧ ∀ a, (∀ rest, unescape (a ++ rest) = unescape a ++ unescape rest)
          ↔ trailingBackslashes a % 2 = 0 := by
  refine ⟨?_, unescape_append_iff⟩
  intro p
  refine ⟨⟨?_, unescape_escapeWhere_append⟩, unescape_escapeWhere_iff p⟩
  intro hcontext
  rw [← unescape_escapeWhere_iff]
  intro t
  simpa using hcontext t []

/-! ## The two ends -/

/-- A text that ends in no lone backslash can be unescaped before or after its ends are cut off. -/
theorem unescape_dropEnds_of_even (hfirst : text.head? ≠ some '\\')
    (heven : trailingBackslashes text % 2 = 0) :
    unescape (dropEnds text) = dropEnds (unescape text) := by
  rw [← escapedAt_end_eq_false_iff] at heven
  cases text with
  | nil => rfl
  | cons d t =>
      have hd : d ≠ '\\' := fun h => hfirst (congrArg some h)
      rw [unescape_dropEnds hd, heven, if_neg Bool.false_ne_true]

/-- Cutting off the last character of an escape leaves a lone backslash. -/
theorem trailingBackslashes_dropEnds_pair (hfirst : (u ++ ['\\', c]).head? ≠ some '\\')
    (hu : trailingBackslashes u % 2 = 0) :
    trailingBackslashes (dropEnds (u ++ ['\\', c])) % 2 = 1 := by
  rw [← escapedAt_end_eq_false_iff] at hu
  rw [← escapedAt_end_iff]
  cases u with
  | nil => exact absurd rfl hfirst
  | cons d t =>
      have hd : d ≠ '\\' := fun h => hfirst (congrArg some h)
      have hcut : dropEnds (d :: t ++ ['\\', c]) = t ++ ['\\'] := by
        rw [List.cons_append, List.append_cons, dropEnds_enclosed]
      have ht := escapedAt_append (escapedAt_singleton hd) t
      rw [List.singleton_append, hu] at ht
      rw [hcut, escapedAt_end_concat, ← ht]
      rfl

/-- Of a text that ends in a lone backslash, that backslash is what is cut off at the end, and so the
last character stays. -/
theorem unescape_dropEnds_of_odd (hfirst : text.head? ≠ some '\\')
    (hodd : trailingBackslashes text % 2 = 1) (hlength : 3 ≤ text.length) :
    ∃ c, (unescape text).getLast? = some c
      ∧ unescape (dropEnds text) = dropEnds (unescape text) ++ [c] := by
  rw [← escapedAt_end_iff] at hodd
  match text with
  | d :: t =>
      have hd : d ≠ '\\' := fun h => hfirst (congrArg some h)
      -- Two characters are never unescaped to nothing.
      have hne : unescape t ≠ [] := by
        intro hnil
        rcases unescape_eq_nil_iff.1 hnil with rfl | rfl
        · simp at hlength
        · simp at hlength
      obtain ⟨us, c, hlast⟩ := (List.eq_nil_or_concat (unescape t)).resolve_left hne
      rw [List.concat_eq_append] at hlast
      refine ⟨c, ?_, ?_⟩
      · rw [unescape_cons_of_ne hd, hlast, ← List.cons_append, List.getLast?_concat]
      · rw [unescape_dropEnds hd, hodd, if_pos rfl, unescape_cons_of_ne hd, hlast,
          dropEnds_enclosed, List.tail_cons]

/-- The two ends of a text that begins with no backslash can be cut off before or after it is
unescaped, also where that cuts an escape in two.  Only if the text ends in a lone backslash does it
matter, since unescaping first drops that backslash: then the last character of all goes with it. -/
theorem unescape_dropEnds_cases (hfirst : text.head? ≠ some '\\') :
    (trailingBackslashes text % 2 = 0 → unescape (dropEnds text) = dropEnds (unescape text))
      ∧ (∀ u c, text = u ++ ['\\', c] → trailingBackslashes u % 2 = 0 →
          trailingBackslashes (dropEnds text) % 2 = 1
            ∧ unescape (dropEnds text) = dropEnds (unescape text))
      ∧ (trailingBackslashes text % 2 = 1 → 3 ≤ text.length →
          ∃ c, (unescape text).getLast? = some c
            ∧ unescape (dropEnds text) = dropEnds (unescape text) ++ [c]) := by
  refine ⟨unescape_dropEnds_of_even hfirst, ?_, unescape_dropEnds_of_odd hfirst⟩
  rintro u c rfl hu
  refine ⟨trailingBackslashes_dropEnds_pair hfirst hu, unescape_dropEnds_of_even hfirst ?_⟩
  -- Behind an even number of backslashes, the last one takes the character after it.
  rw [← escapedAt_end_eq_false_iff] at hu ⊢
  rw [escapedAt_append hu]
  exact escapedAt_pair c

/-- A phrase whose quote is escaped at its end, and one of three characters that ends in a lone
backslash. -/
theorem unescape_dropEnds_escaped_quote_and_lone :
    (['"', 'a', '\\', '"'].head? ≠ some '\\'
        ∧ trailingBackslashes (dropEnds ['"', 'a', '\\', '"']) % 2 = 1
        ∧ unescape (dropEnds ['"', 'a', '\\', '"'])
          = dropEnds (unescape ['"', 'a', '\\', '"']))
      ∧ (['"', 'a', '\\'].head? ≠ some '\\'
        ∧ trailingBackslashes ['"', 'a', '\\'] % 2 = 1
        ∧ ∃ c, (unescape ['"', 'a', '\\']).getLast? = some c
          ∧ unescape (dropEnds ['"', 'a', '\\'])
            = dropEnds (unescape ['"', 'a', '\\']) ++ [c]) := by
  have hpair : ['"', 'a', '\\', '"'].head? ≠ some '\\' := by decide
  have hlone : ['"', 'a', '\\'].head? ≠ some '\\' := by decide
  have hodd : trailingBackslashes ['"', 'a', '\\'] % 2 = 1 := by decide
  exact ⟨⟨hpair, (unescape_dropEnds_cases hpair).2.1 ['"', 'a'] '"' rfl (by decide)⟩,
    ⟨hlone, hodd, (unescape_dropEnds_cases hlone).2.2 hodd (by decide)⟩⟩

end Token
end SearchBox
