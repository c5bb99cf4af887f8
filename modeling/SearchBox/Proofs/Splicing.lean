import SearchBox.Proofs.Escape
import SearchBox.Proofs.Positions

/-!
# Texts put side by side

After a text in which no quote is open and no escape is pending, a separator brings the lexer back to
where it began.  So the tokens of two texts with a separator between them are those of the one and
those of the other (`tokenize_append_separator`), a text behind closed tokens is read as if it stood
alone (`tokenize_intercalate_concat`), and a list of tokens each of which is read back as itself is
read back from the text that has them side by side (`tokenize_intercalate`).
-/

namespace SearchBox
namespace Token

variable {s : Lexer} {c : Char} {t : Token}

/-! ## Older tokens

Tokens that were finished earlier have no influence on what is read. -/

/-- The state with some more tokens finished before all others. -/
def Lexer.onto (s : Lexer) (older : List Token) : Lexer :=
  { s with emitted := s.emitted ++ older }

namespace Lexer

theorem flush_onto (s : Lexer) (older : List Token) : (s.onto older).flush = s.flush.onto older := by
  unfold flush onto
  split <;> simp_all

theorem step_onto (s : Lexer) (older : List Token) (c : Char) :
    (s.onto older).step c = (s.step c).onto older := by
  cases hbreak : s.breaksAt c with
  | true =>
      have hbreak' : (s.onto older).breaksAt c = true := hbreak
      rw [step_of_breaksAt hbreak, step_of_breaksAt hbreak', flush_onto]
  | false =>
      have hbreak' : (s.onto older).breaksAt c = false := hbreak
      rw [step_eq_of_not_breaksAt hbreak, step_eq_of_not_breaksAt hbreak']
      rfl

theorem run_onto (s : Lexer) (older : List Token) (text : List Char) :
    (s.onto older).run text = (s.run text).onto older := by
  induction text generalizing s with
  | nil => rfl
  | cons c text ih => rw [run_cons, step_onto, ih, run_cons]

theorem tokens_onto (h : s.Sound) (older : List Token) :
    (s.onto older).tokens = older.reverse ++ s.tokens := by
  rw [tokens_eq, tokens_eq, flush_onto]
  cases hquo : s.quoted with
  | true =>
      have hne := h.flush_emitted_ne_nil hquo
      simp only [onto, hquo, if_true, List.reverse_append]
      exact closeLast_append older.reverse hne
  | false => simp [onto, hquo]

end Lexer

/-! ## Cutting at a separator -/

/-- A text is at rest at its end if no quote is open there and no escape is pending. -/
def AtRest (text : List Char) : Prop :=
  (Lexer.start.run text).quoted = false ∧ (Lexer.start.run text).escaped = false

/-- A text is balanced if the number of its unescaped double quotes is even and so is the number of
backslashes at its end. -/
structure Balanced (text : List Char) : Prop where
  quotes : quotesBefore text text.length % 2 = 0
  backslashes : trailingBackslashes text % 2 = 0

instance (text : List Char) : Decidable (Balanced text) :=
  decidable_of_iff (quotesBefore text text.length % 2 = 0 ∧ trailingBackslashes text % 2 = 0)
    ⟨fun h => ⟨h.1, h.2⟩, fun h => ⟨h.quotes, h.backslashes⟩⟩

/-- The balanced texts are those at whose end the lexer is at rest. -/
theorem balanced_iff_atRest {text : List Char} : Balanced text ↔ AtRest text := by
  have hflags := flags_run text
  unfold AtRest
  rw [hflags.1, hflags.2, escapedAt_end_eq_false_iff, quotedAt, beq_eq_false_iff_ne,
    Nat.mod_two_ne_one]
  exact ⟨fun h => ⟨h.quotes, h.backslashes⟩, fun h => ⟨h.1, h.2⟩⟩

theorem AtRest.tokenize {a : List Char} (ha : AtRest a) :
    tokenize a = (Lexer.start.run a).flush.emitted.reverse := by
  rw [Token.tokenize, Lexer.tokens_eq, ha.1]
  rfl

theorem AtRest.run_separator {a : List Char} (ha : AtRest a) (hc : Text.isSeparator c = true) :
    Lexer.start.run (a ++ [c]) = Lexer.start.onto (Lexer.start.run a).flush.emitted := by
  have hbreak : (Lexer.start.run a).breaksAt c = true :=
    Lexer.breaksAt_iff.2 ⟨hc, ha.2, ha.1⟩
  rw [Lexer.run_concat, Lexer.step_of_breaksAt hbreak, Lexer.flush_fields, ha.1, ha.2]
  rfl

/-- The tokens on either side of a separator do not depend on each other. -/
theorem tokenize_append_separator {a : List Char} (ha : AtRest a)
    (hc : Text.isSeparator c = true) (b : List Char) :
    tokenize (a ++ c :: b) = tokenize a ++ tokenize b := by
  have hcut : a ++ c :: b = (a ++ [c]) ++ b := by simp
  rw [hcut, tokenize, Lexer.run_append, ha.run_separator hc, Lexer.run_onto,
    Lexer.tokens_onto (Lexer.sound_run_start b), ha.tokenize]
  rfl

/-! ## Closed tokens -/

/-- A token is closed if the lexer reads all of it as one token and is at rest then. -/
structure IsClosed (t : Token) : Prop where
  ne_nil : t ≠ []
  run : Lexer.start.run t = ⟨[], t.reverse, false, false⟩

theorem IsClosed.atRest (h : IsClosed t) : AtRest t := by
  unfold AtRest
  rw [h.run]
  exact ⟨rfl, rfl⟩

theorem IsClosed.tokenize (h : IsClosed t) : tokenize t = [t] := by
  rw [h.atRest.tokenize, h.run, Lexer.flush_emitted]
  simp [h.ne_nil]

/-- Behind closed tokens with single spaces between them, a text is read as if it stood alone. -/
theorem tokenize_intercalate_concat {ts : List Token} (h : ∀ t ∈ ts, IsClosed t)
    (text : List Char) : tokenize ([' '].intercalate (ts ++ [text])) = ts ++ tokenize text := by
  induction ts with
  | nil => simp
  | cons t ts ih =>
      have ht : IsClosed t := h t (by simp)
      have hrest := ih fun u hu => h u (by simp [hu])
      have hne : ts ++ [text] ≠ [] := by simp
      obtain ⟨v, vs, hcons⟩ := List.exists_cons_of_ne_nil hne
      rw [List.cons_append, hcons, List.intercalate_cons_cons, ← hcons, List.append_assoc,
        List.singleton_append, tokenize_append_separator ht.atRest rfl, ht.tokenize, hrest]
      rfl

/-- Tokens with single spaces between them are read back, if all are closed but perhaps the last,
which need only be read back on its own. -/
theorem tokenize_intercalate (ts : List Token) (hclosed : ∀ t ∈ ts.dropLast, IsClosed t)
    (hlast : ∀ t, ts.getLast? = some t → tokenize t = [t]) :
    tokenize ([' '].intercalate ts) = ts := by
  rcases List.eq_nil_or_concat ts with rfl | ⟨older, last, rfl⟩
  · rfl
  · rw [List.concat_eq_append] at hclosed hlast ⊢
    rw [List.dropLast_concat] at hclosed
    rw [tokenize_intercalate_concat hclosed, hlast last List.getLast?_concat]

/-! ## Written tokens -/

/-- With backslashes and quotes escaped, and separators too unless a quote is open, a text is added
to the token being read. -/
theorem run_escapeWhere {p : Char → Bool} (s : Lexer) (text : List Char) (hesc : s.escaped = false)
    (hback : p '\\' = true) (hquote : p '"' = true)
    (hsep : s.quoted = true ∨ ∀ c, Text.isSeparator c = true → p c = true) :
    s.run (Text.escapeWhere p text)
      = { s with pending := (Text.escapeWhere p text).reverse ++ s.pending } := by
  induction text generalizing s with
  | nil => rfl
  | cons c text ih =>
      cases hc : p c with
      | true =>
          have hrest := ih { s with pending := c :: '\\' :: s.pending } hesc hsep
          rw [Text.escapeWhere, if_pos hc, Lexer.run_cons, Lexer.run_cons,
            Lexer.step_backslash hesc, hrest]
          simp
      | false =>
          -- A character without a backslash before it changes neither flag and ends no token.
          have hne : c ≠ '\\' ∧ c ≠ '"' :=
            ⟨fun h => by simp [h, hback] at hc, fun h => by simp [h, hquote] at hc⟩
          have hopen : Text.isSeparator c = true → s.quoted = true := by
            intro hblank
            refine hsep.resolve_right fun hall => ?_
            rw [hall c hblank] at hc
            cases hc
          have hrest := ih { s with pending := c :: s.pending } hesc hsep
          rw [Text.escapeWhere, hc, if_neg Bool.false_ne_true, Lexer.run_cons,
            Lexer.step_of_ordinary hesc hne.1 hne.2 hopen, hrest]
          simp

/-- A word with every character escaped is closed. -/
theorem isClosed_escape_all {text : List Char} (h : text ≠ []) :
    IsClosed (Text.escapeWhere (fun _ => true) text) := by
  refine ⟨?_, ?_⟩
  · cases text with
    | nil => exact absurd rfl h
    | cons c text => simp [Text.escapeWhere]
  · rw [run_escapeWhere _ text rfl rfl rfl (Or.inr fun _ _ => rfl)]
    simp [Lexer.start]

/-- A quotation with its backslashes and quotes escaped, and perhaps more, is closed. -/
theorem isClosed_quote {p : Char → Bool} (hback : p '\\' = true) (hquote : p '"' = true)
    (text : List Char) : IsClosed ('"' :: (Text.escapeWhere p text ++ ['"'])) := by
  refine ⟨by simp, ?_⟩
  have hopen : Lexer.start.step '"' = ⟨[], ['"'], true, false⟩ := rfl
  rw [Lexer.run_cons, hopen, Lexer.run_concat, run_escapeWhere _ text rfl hback hquote (Or.inl rfl)]
  simp [Lexer.step, Lexer.push]

theorem isClosed_word (op : Operator) : IsClosed op.word.toList := by
  cases op with
  | and => exact ⟨by decide, by decide⟩
  | or => exact ⟨by decide, by decide⟩

end Token
end SearchBox
