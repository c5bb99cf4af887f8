import SearchBox.Proofs.Search
import SearchBox.Proofs.Splicing

/-!
# Space between two texts

Where a text is balanced, separators behind it only keep its tokens apart from those that follow.
How many there are, and which ones, makes no difference:

* `KeepsApart` — a text of separators between two others, empty only where one of them is;
* `tokenize_keepsApart` — the tokens on either side do not depend on each other;
* `query_keepsApart` — a search has the same query whatever keeps the two texts apart.

Above the limit the text is searched for as it stands, and then its separators do make a difference.
White space that is no separator keeps nothing apart.
-/

namespace SearchBox

namespace Token

variable {a b w : List Char} {c : Char}

/-- A text that may stand between two others: separators only, and at least one of them unless there
is nothing on one of the sides. -/
structure KeepsApart (a b w : List Char) : Prop where
  separators : ∀ c ∈ w, Text.isSeparator c = true
  nonempty : w = [] → a = [] ∨ b = []

theorem keepsApart_of_ne_nil (hw : ∀ c ∈ w, Text.isSeparator c = true) (hne : w ≠ []) :
    KeepsApart a b w :=
  ⟨hw, fun hnil => absurd hnil hne⟩

theorem atRest_nil : AtRest [] :=
  ⟨rfl, rfl⟩

/-- Separators in front of a text make no tokens. -/
theorem tokenize_separators (hw : ∀ c ∈ w, Text.isSeparator c = true) (b : List Char) :
    tokenize (w ++ b) = tokenize b := by
  induction w with
  | nil => rfl
  | cons c w ih =>
      rw [List.forall_mem_cons] at hw
      have hcut := tokenize_append_separator atRest_nil hw.1 (w ++ b)
      rw [List.cons_append, ← List.nil_append (c :: (w ++ b)), hcut, ih hw.2]
      rfl

/-- Texts that are kept apart have their own tokens. -/
theorem tokenize_keepsApart (ha : AtRest a) (hw : KeepsApart a b w) :
    tokenize (a ++ w ++ b) = tokenize a ++ tokenize b := by
  cases w with
  | nil =>
      rw [List.append_nil]
      rcases hw.nonempty rfl with rfl | rfl
      · rfl
      · rw [List.append_nil]
        exact (List.append_nil _).symm
  | cons c w =>
      have hseparators := List.forall_mem_cons.1 hw.separators
      rw [List.append_assoc, List.cons_append, tokenize_append_separator ha hseparators.1,
        tokenize_separators hseparators.2]

/-- Behind a balanced text any other white space is a character of a token. -/
theorem tokenize_concat_ne (ha : AtRest a) (hwhite : Text.isWhiteSpace c = true)
    (hsep : Text.isSeparator c = false) : tokenize (a ++ [c]) ≠ tokenize a := by
  have hne : c ≠ '\\' ∧ c ≠ '"' := by
    refine ⟨?_, ?_⟩
    · rintro rfl
      cases hwhite
    · rintro rfl
      cases hwhite
  have hbreak : (Lexer.start.run a).breaksAt c = false := by simp [Lexer.breaksAt, hsep]
  have hstep := Lexer.step_eq_of_not_breaksAt hbreak
  have hrest : AtRest (a ++ [c]) := by
    unfold AtRest
    rw [Lexer.run_concat, hstep]
    simp [ha.1, hne]
  rw [hrest.tokenize, ha.tokenize, Lexer.run_concat, hstep, Lexer.flush_emitted,
    Lexer.flush_emitted]
  -- The character is the last one of the last token, or that token has no other.
  by_cases hpending : (Lexer.start.run a).pending = []
  · simp [hpending]
  · simp [hpending]

end Token

namespace Settings

open Query Token

/-- Behind a balanced text `a`, any separators do: the tokens are those of the two texts.  So within
the limit a search has the same query whatever separators keep the texts apart, and even without any
if there is nothing on one of the sides; above the limit every such text is searched for as it
stands. No other white space can take the place of a separator. -/
theorem query_keepsApart (a b : String) (ha : Balanced a.toList) :
    (∀ w : String, w ≠ "" → (∀ c ∈ w.toList, Text.isSeparator c = true) →
        tokenize (a ++ w ++ b).toList = tokenize a.toList ++ tokenize b.toList
          ∧ tokenize (a ++ w).toList = tokenize a.toList)
      ∧ (∀ w w' : String, KeepsApart a.toList b.toList w.toList →
          KeepsApart a.toList b.toList w'.toList →
            operatorsIn (a ++ w ++ b) = operatorsIn (a ++ w' ++ b)
              ∧ ∀ (s : Settings) (field : String),
                (operatorsIn (a ++ w ++ b) ≤ s.maxOperators.toNat →
                  s.query field (a ++ w ++ b) = s.query field (a ++ w' ++ b))
                ∧ (s.maxOperators.toNat < operatorsIn (a ++ w ++ b) →
                  s.query field (a ++ w ++ b) = .term field (a ++ w ++ b)
                    ∧ s.query field (a ++ w' ++ b) = .term field (a ++ w' ++ b)))
      ∧ ∀ c, Text.isWhiteSpace c = true → Text.isSeparator c = false →
          tokenize (a.push c).toList ≠ tokenize a.toList := by
  have hrest := balanced_iff_atRest.1 ha
  have hapart : ∀ w : String, KeepsApart a.toList b.toList w.toList →
      tokenize (a ++ w ++ b).toList = tokenize a.toList ++ tokenize b.toList := by
    intro w hw
    rw [String.toList_append, String.toList_append, tokenize_keepsApart hrest hw]
  refine ⟨?_, ?_, ?_⟩
  · intro w hne hw
    have hnil : w.toList ≠ [] := fun hnil => hne (String.toList_eq_nil_iff.1 hnil)
    refine ⟨hapart w (keepsApart_of_ne_nil hw hnil), ?_⟩
    have hend := tokenize_keepsApart hrest (keepsApart_of_ne_nil (b := []) hw hnil)
    rw [List.append_nil] at hend
    rw [String.toList_append, hend]
    exact List.append_nil _
  · intro w w' hw hw'
    have htokens : tokenize (a ++ w ++ b).toList = tokenize (a ++ w' ++ b).toList := by
      rw [hapart w hw, hapart w' hw']
    have hcount : operatorsIn (a ++ w ++ b) = operatorsIn (a ++ w' ++ b) :=
      congrArg operatorCount htokens
    refine ⟨hcount, ?_⟩
    intro s field
    refine ⟨?_, ?_⟩
    · intro hlimit
      rw [query_of_operatorsIn_le field hlimit, htokens,
        query_of_operatorsIn_le field (hcount ▸ hlimit)]
    · intro hlimit
      exact ⟨query_of_lt_operatorsIn field hlimit, query_of_lt_operatorsIn field (hcount ▸ hlimit)⟩
  · intro c hwhite hsep
    rw [String.toList_push]
    exact tokenize_concat_ne hrest hwhite hsep

/-- A tab and a line feed in place of a space, with room for the operator and with none, and a
no-break space, which keeps nothing apart. -/
theorem query_keepsApart_tab :
    Balanced "x \"y z\"".toList
      ∧ tokenize ("x \"y z\"" ++ "\t\n" ++ "OR \"d").toList
        = tokenize "x \"y z\"".toList ++ tokenize "OR \"d".toList
      ∧ operatorsIn ("x \"y z\"" ++ "\t\n" ++ "OR \"d") = 1
      ∧ Settings.query {} "f" ("x \"y z\"" ++ "\t\n" ++ "OR \"d")
        = Settings.query {} "f" ("x \"y z\"" ++ " " ++ "OR \"d")
      ∧ Settings.query ⟨"f", 0⟩ "f" ("x \"y z\"" ++ "\t\n" ++ "OR \"d")
        = .term "f" ("x \"y z\"" ++ "\t\n" ++ "OR \"d")
      ∧ tokenize ("x \"y z\"".push '\u00a0').toList ≠ tokenize "x \"y z\"".toList := by
  have ha : Balanced "x \"y z\"".toList := by decide
  have htab : ∀ c ∈ "\t\n".toList, Text.isSeparator c = true := List.all_eq_true.1 (by decide)
  have hspace : ∀ c ∈ " ".toList, Text.isSeparator c = true := List.all_eq_true.1 (by decide)
  obtain ⟨htokens, hquery, hother⟩ := query_keepsApart "x \"y z\"" "OR \"d" ha
  obtain ⟨_, hdecides⟩ := hquery "\t\n" " " (keepsApart_of_ne_nil htab (by decide))
    (keepsApart_of_ne_nil hspace (by decide))
  have hone : operatorsIn ("x \"y z\"" ++ "\t\n" ++ "OR \"d") = 1 := by decide
  refine ⟨ha, (htokens "\t\n" (by decide) htab).1, hone, (hdecides {} "f").1 ?_,
    ((hdecides ⟨"f", 0⟩ "f").2 ?_).1, hother '\u00a0' (by decide) (by decide)⟩
  · rw [hone]
    decide
  · rw [hone]
    decide

end Settings
end SearchBox
