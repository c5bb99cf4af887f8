import SearchBox.Proofs.Splicing

/-!
# Which token lists a lexer gives, and reading them again

Not every list of texts is the token list of some text.  This file tells by positions which ones are,
and what becomes of them when they are put side by side and read once more:

* `Unbroken` — a token without a separator in it, with the flags at its end;
* `IsTokenList` — all tokens are closed but perhaps the last one, which may end in a lone backslash or
  in an escaped quote inside an open one;
* `Lexer.Replays` — what every reachable state satisfies: the token being read leads to the same
  flags when it is read by itself;
* `tokenize_image_and_relex` — the token lists are the images of texts, and reading one again changes
  it only after a text that ends in an open quote with an escape pending.

In that one case the quote that closes the last token is escaped by the backslash before it, so the
next reading closes the token once more.
-/

namespace SearchBox
namespace Token

variable {t u : Token} {ts older : List Token} {text pre : List Char} {c : Char}
variable {quoted escaped : Bool}

/-! ## Shapes of tokens -/

/-- No position is at a separator that is neither escaped nor quoted. -/
def Whole (text : List Char) : Prop :=
  ∀ i, i < text.length → separatorAt text i = false

/-- A token without a separator that is neither escaped nor quoted, and whether a quote is open and
an escape pending at its end. -/
structure Unbroken (quoted escaped : Bool) (t : Token) : Prop where
  ne_nil : t ≠ []
  whole : Whole t
  quoted : quotedAt t t.length = quoted
  escaped : escapedAt t t.length = escaped

/-- The last two characters are a backslash, which is not escaped itself, and a double quote. -/
def EndsInEscapedQuote (t : Token) : Prop :=
  ∃ u, t = u ++ ['\\', '"'] ∧ escapedAt u u.length = false

/-- A token that may be the last one. -/
inductive IsLast (t : Token) : Prop where
  | closed : Unbroken false false t → IsLast t
  | backslash : Unbroken false true t → IsLast t
  | quote : Unbroken true false t → EndsInEscapedQuote t → IsLast t

/-- All tokens are closed, but for the last one, which is closed or ends in one of two ways. -/
structure IsTokenList (ts : List Token) : Prop where
  closed : ∀ t ∈ ts.dropLast, Unbroken false false t
  last : ∀ t, ts.getLast? = some t → IsLast t

/-- A text that ends in an open quote with an escape pending. -/
def EndsOpen (text : List Char) : Prop :=
  quotedAt text text.length = true ∧ escapedAt text text.length = true

/-- The tokens of tokens that are put side by side with single spaces between them. -/
def relex (ts : List Token) : List Token :=
  tokenize ([' '].intercalate ts)

/-! ## Reading an unbroken token -/

theorem whole_concat :
    Whole (pre ++ [c]) ↔ Whole pre ∧ (Lexer.start.run pre).breaksAt c = false := by
  rw [← separatorAt_end]
  constructor
  · intro h
    refine ⟨?_, h pre.length (by simp)⟩
    intro i hi
    rw [← separatorAt_concat (c := c) hi]
    exact h i (by rw [List.length_append]; omega)
  · rintro ⟨hpre, hlast⟩ i hi
    rw [List.length_append, List.length_singleton] at hi
    rcases Nat.lt_or_eq_of_le (Nat.le_of_lt_succ hi) with hlt | rfl
    · rw [separatorAt_concat hlt]
      exact hpre i hlt
    · exact hlast

/-- Where no separator stands, the lexer adds every character to the token being read. -/
theorem Whole.run_fields (h : Whole t) :
    (Lexer.start.run t).emitted = [] ∧ (Lexer.start.run t).pending = t.reverse := by
  induction t using List.reverseRecOn with
  | nil => exact ⟨rfl, rfl⟩
  | append_singleton pre c ih =>
      obtain ⟨hpre, hbreak⟩ := whole_concat.1 h
      obtain ⟨hemitted, hpending⟩ := ih hpre
      obtain ⟨hpending', hemitted'⟩ := Lexer.step_of_not_breaksAt hbreak
      rw [Lexer.run_concat, hpending', hemitted', hemitted, hpending, List.reverse_concat]
      exact ⟨rfl, rfl⟩

theorem Whole.run (h : Whole t) :
    Lexer.start.run t = ⟨[], t.reverse, quotedAt t t.length, escapedAt t t.length⟩ := by
  have hfields := h.run_fields
  have hflags := flags_run t
  cases hrun : Lexer.start.run t with
  | mk emitted pending quoted escaped =>
      rw [hrun] at hfields hflags
      rw [← hflags.1, ← hflags.2, ← hfields.2]
      exact congrArg (Lexer.mk · _ _ _) hfields.1

/-- If all that was read is in the token being read, there was no separator. -/
theorem whole_of_run (hpending : (Lexer.start.run t).pending = t.reverse) : Whole t := by
  induction t using List.reverseRecOn with
  | nil =>
      intro i hi
      cases hi
  | append_singleton pre c ih =>
      rw [Lexer.run_concat, Lexer.step_pending, List.reverse_concat] at hpending
      -- A character that ends a token is not added to one.
      cases hbreak : (Lexer.start.run pre).breaksAt c with
      | true =>
          rw [hbreak, if_pos rfl] at hpending
          cases hpending
      | false =>
          rw [hbreak, if_neg Bool.false_ne_true] at hpending
          exact whole_concat.2 ⟨ih (List.cons.inj hpending).2, hbreak⟩

/-- An unbroken token is read as one, up to the flags at its end. -/
theorem unbroken_iff_run :
    Unbroken quoted escaped t ↔ t ≠ [] ∧ Lexer.start.run t = ⟨[], t.reverse, quoted, escaped⟩ := by
  constructor
  · intro h
    refine ⟨h.ne_nil, ?_⟩
    rw [h.whole.run, h.quoted, h.escaped]
  · rintro ⟨hne, hrun⟩
    have hflags := flags_run t
    rw [hrun] at hflags
    refine ⟨hne, whole_of_run ?_, hflags.2.symm, hflags.1.symm⟩
    rw [hrun]

theorem isClosed_iff_unbroken : IsClosed t ↔ Unbroken false false t := by
  rw [unbroken_iff_run]
  exact ⟨fun h => ⟨h.ne_nil, h.run⟩, fun h => ⟨h.1, h.2⟩⟩

/-- Read by itself, an unbroken token is one token, with a quote added if one is open. -/
theorem Unbroken.tokenize (h : Unbroken quoted escaped t) :
    tokenize t = [if quoted = true then t ++ ['"'] else t] := by
  obtain ⟨hne, hrun⟩ := unbroken_iff_run.1 h
  rw [Token.tokenize, Lexer.tokens_eq, hrun, Lexer.flush_emitted]
  cases quoted with
  | true => simp [hne, Lexer.closeLast]
  | false => simp [hne]

/-- An open quote is closed by one more, unless that one is escaped. -/
theorem Unbroken.concat_quote (h : Unbroken true escaped t) :
    Unbroken escaped false (t ++ ['"']) := by
  obtain ⟨_, hrun⟩ := unbroken_iff_run.1 h
  refine unbroken_iff_run.2 ⟨by simp, ?_⟩
  rw [Lexer.run_concat, hrun]
  cases escaped with
  | true => simp [Lexer.step, Lexer.push]
  | false => simp [Lexer.step, Lexer.push]

/-- Where an escape is pending, a double quote is escaped. -/
theorem endsInEscapedQuote_concat (h : escapedAt t t.length = true) :
    EndsInEscapedQuote (t ++ ['"']) := by
  rcases List.eq_nil_or_concat t with rfl | ⟨u, c, rfl⟩
  · cases h
  · rw [List.concat_eq_append, escapedAt_end_concat] at h
    have hback : escapedAt u u.length = false ∧ c = '\\' := by simpa using h
    exact ⟨u, by rw [hback.2]; simp, hback.1⟩

/-- Without the escaped quote at its end, a token that is still open has an escape pending. -/
theorem EndsInEscapedQuote.eq_concat (h : EndsInEscapedQuote t) (ht : Unbroken true false t) :
    ∃ u, t = u ++ ['"'] ∧ Unbroken true true u := by
  obtain ⟨v, rfl, hesc⟩ := h
  have hcut : v ++ ['\\', '"'] = (v ++ ['\\']) ++ ['"'] := by simp
  rw [hcut] at ht ⊢
  have hpending : escapedAt (v ++ ['\\']) (v ++ ['\\']).length = true := by
    rw [escapedAt_end_concat, hesc]
    rfl
  refine ⟨_, rfl, by simp, (whole_concat.1 ht.whole).1, ?_, hpending⟩
  -- The quote is escaped, so it does not close the open one.
  have hopen := ht.quoted
  rw [quotedAt_end_concat, hpending] at hopen
  simpa using hopen

/-! ## The token being read -/

/-- All finished tokens are closed, and the token being read leads to the same flags when it is read
by itself. -/
structure Lexer.Replays (s : Lexer) : Prop where
  emitted : ∀ t ∈ s.emitted, IsClosed t
  pending : Lexer.start.run s.pending.reverse = ⟨[], s.pending, s.quoted, s.escaped⟩

namespace Lexer

variable {s : Lexer} {c : Char}

theorem replays_start : start.Replays where
  emitted := by
    intro t ht
    cases ht
  pending := rfl

/-- A token that ends is closed. -/
theorem Replays.flush (h : s.Replays) (hquo : s.quoted = false) (hesc : s.escaped = false) :
    s.flush.Replays where
  emitted := by
    intro t ht
    rw [flush_emitted] at ht
    split at ht
    · exact h.emitted t ht
    · rename_i hne
      rcases List.mem_cons.1 ht with rfl | ht
      · have hrun := h.pending
        rw [hquo, hesc] at hrun
        exact ⟨by simpa using hne, by rw [hrun, List.reverse_reverse]⟩
      · exact h.emitted t ht
  pending := by
    rw [flush_pending, flush_quoted, flush_escaped, hquo, hesc]
    rfl

/-- A character that ends no token does the same to the token being read, whatever was finished
before it. -/
theorem Replays.step_of_not_breaksAt (h : s.Replays) (hbreak : s.breaksAt c = false) :
    (s.step c).Replays where
  emitted := by
    rw [(Lexer.step_of_not_breaksAt hbreak).2]
    exact h.emitted
  pending := by
    -- The state without what was finished takes the same step.
    have halone : (Lexer.mk [] s.pending s.quoted s.escaped).breaksAt c = false := hbreak
    rw [step_eq_of_not_breaksAt hbreak, List.reverse_cons, run_concat, h.pending,
      step_eq_of_not_breaksAt halone]

theorem Replays.step (h : s.Replays) (c : Char) : (s.step c).Replays := by
  cases hbreak : s.breaksAt c with
  | true =>
      obtain ⟨_, hescaped, hquoted⟩ := breaksAt_iff.1 hbreak
      rw [step_of_breaksAt hbreak]
      exact h.flush hquoted hescaped
  | false => exact h.step_of_not_breaksAt hbreak

theorem Replays.run (h : s.Replays) (text : List Char) : (s.run text).Replays := by
  induction text generalizing s with
  | nil => exact h
  | cons c text ih => exact ih (h.step c)

theorem replays_run_start (text : List Char) : (start.run text).Replays :=
  replays_start.run text

theorem Replays.unbroken (h : s.Replays) (hne : s.pending ≠ []) :
    Unbroken s.quoted s.escaped s.pending.reverse :=
  unbroken_iff_run.2 ⟨by simpa using hne, by rw [h.pending, List.reverse_reverse]⟩

theorem tokens_of_pending (h : s.pending ≠ []) :
    s.tokens = s.emitted.reverse
      ++ [if s.quoted = true then s.pending.reverse ++ ['"'] else s.pending.reverse] := by
  rw [tokens_eq, flush_emitted, if_neg h, List.reverse_cons, closeLast_concat]
  split <;> rfl

/-- Without a token being read no quote is open. -/
theorem Sound.tokens_of_pending_nil (h : s.Sound) (hnil : s.pending = []) :
    s.quoted = false ∧ s.tokens = s.emitted.reverse := by
  have hquo : s.quoted = false := by
    rw [← Bool.not_eq_true]
    exact fun hquo => h.pending_ne_nil hquo hnil
  rw [tokens_eq, flush_emitted, if_pos hnil, hquo, if_neg Bool.false_ne_true]
  exact ⟨rfl, rfl⟩

end Lexer

/-! ## The tokens of a text -/

/-- How the tokens of a text end: all of them are closed, or the last one has an escape pending, or
it has been given a quote that is escaped. -/
theorem tokenize_cases (text : List Char) :
    (¬ EndsOpen text ∧ ∀ t ∈ tokenize text, IsClosed t)
      ∨ (¬ EndsOpen text ∧ ∃ older last, tokenize text = older ++ [last]
          ∧ (∀ t ∈ older, IsClosed t) ∧ Unbroken false true last)
      ∨ (EndsOpen text ∧ ∃ older last, tokenize text = older ++ [last]
          ∧ (∀ t ∈ older, IsClosed t) ∧ Unbroken true false last ∧ EndsInEscapedQuote last) := by
  have hsound := Lexer.sound_run_start text
  have hreplays := Lexer.replays_run_start text
  rw [EndsOpen, ← (flags_run text).1, ← (flags_run text).2, tokenize]
  generalize Lexer.start.run text = s at hsound hreplays
  have holder : ∀ t ∈ s.emitted.reverse, IsClosed t :=
    fun t ht => hreplays.emitted t (List.mem_reverse.1 ht)
  by_cases hnil : s.pending = []
  · obtain ⟨hquo, htokens⟩ := hsound.tokens_of_pending_nil hnil
    rw [htokens, hquo]
    exact Or.inl ⟨by simp, holder⟩
  · have hlast := hreplays.unbroken hnil
    have hclosed : ∀ t, Unbroken false false t → ∀ u ∈ s.emitted.reverse ++ [t], IsClosed u := by
      intro t ht
      rw [List.forall_mem_append, List.forall_mem_singleton]
      exact ⟨holder, isClosed_iff_unbroken.2 ht⟩
    rw [Lexer.tokens_of_pending hnil]
    cases hquo : s.quoted with
    | false =>
        rw [hquo] at hlast
        cases hesc : s.escaped with
        | false =>
            rw [hesc] at hlast
            exact Or.inl ⟨by simp, hclosed _ hlast⟩
        | true =>
            rw [hesc] at hlast
            exact Or.inr (Or.inl ⟨by simp, _, _, rfl, holder, hlast⟩)
    | true =>
        -- The added quote closes the token, unless a backslash takes it.
        rw [hquo] at hlast
        have hquote := hlast.concat_quote
        cases hesc : s.escaped with
        | false =>
            rw [hesc] at hquote
            exact Or.inl ⟨by simp, hclosed _ hquote⟩
        | true =>
            rw [hesc] at hquote
            have hends := endsInEscapedQuote_concat (hlast.escaped.trans hesc)
            exact Or.inr (Or.inr ⟨by simp, _, _, rfl, holder, hquote, hends⟩)

theorem isTokenList_concat (h : ∀ t ∈ older, IsClosed t) (ht : IsLast t) :
    IsTokenList (older ++ [t]) where
  closed := by
    rw [List.dropLast_concat]
    exact fun u hu => isClosed_iff_unbroken.1 (h u hu)
  last := by
    intro u hu
    rw [List.getLast?_concat] at hu
    cases hu
    exact ht

/-- The tokens of a text are a token list. -/
theorem isTokenList_tokenize (text : List Char) : IsTokenList (tokenize text) := by
  rcases tokenize_cases text with ⟨_, hclosed⟩ | ⟨_, older, last, hts, holder, hlast⟩
    | ⟨_, older, last, hts, holder, hlast, hends⟩
  · refine ⟨?_, ?_⟩
    · intro t ht
      exact isClosed_iff_unbroken.1 (hclosed t (List.dropLast_subset _ ht))
    · intro t ht
      exact IsLast.closed (isClosed_iff_unbroken.1 (hclosed t (List.mem_of_getLast? ht)))
  · rw [hts]
    exact isTokenList_concat holder (IsLast.backslash hlast)
  · rw [hts]
    exact isTokenList_concat holder (IsLast.quote hlast hends)

/-- A token that may be the last one is what some text is read as. -/
theorem IsLast.exists_tokenize (h : IsLast t) : ∃ text, tokenize text = [t] := by
  cases h with
  | closed h => exact ⟨t, h.tokenize⟩
  | backslash h => exact ⟨t, h.tokenize⟩
  | quote h hends =>
      -- The quote at the end is left to the lexer to add.
      obtain ⟨u, rfl, hu⟩ := hends.eq_concat h
      exact ⟨u, hu.tokenize⟩

/-- Every token list is what some text is read as. -/
theorem IsTokenList.exists_tokenize (h : IsTokenList ts) : ∃ text, tokenize text = ts := by
  rcases List.eq_nil_or_concat ts with rfl | ⟨older, last, rfl⟩
  · exact ⟨[], rfl⟩
  · rw [List.concat_eq_append] at h ⊢
    obtain ⟨text, htext⟩ := (h.last last List.getLast?_concat).exists_tokenize
    have holder : ∀ t ∈ older, IsClosed t := by
      intro t ht
      exact isClosed_iff_unbroken.2 (h.closed t (by rw [List.dropLast_concat]; exact ht))
    refine ⟨[' '].intercalate (older ++ [text]), ?_⟩
    rw [tokenize_intercalate_concat holder, htext]

/-! ## Reading once more -/

/-- Closed tokens are read back. -/
theorem relex_of_closed (h : ∀ t ∈ ts, IsClosed t) : relex ts = ts := by
  apply tokenize_intercalate
  · intro t ht
    exact h t (List.dropLast_subset _ ht)
  · intro t ht
    exact (h t (List.mem_of_getLast? ht)).tokenize

/-- Only the last token can change: an open quote in it is closed. -/
theorem relex_concat (h : ∀ t ∈ older, IsClosed t) (ht : Unbroken quoted escaped t) :
    relex (older ++ [t]) = older ++ [if quoted = true then t ++ ['"'] else t] := by
  rw [relex, tokenize_intercalate_concat h, ht.tokenize]

/-- The lists that texts are read as are the token lists: of closed tokens, but for the last one,
which may also end in a lone backslash or, with a quote still open, in an escaped one.  Put side by
side and read once more, the tokens of a text stay as they are, unless the text ends in an open quote
with an escape pending; then the last token gets one more quote, and after that nothing changes. -/
theorem tokenize_image_and_relex :
    (∀ ts : List Token, (∃ text, tokenize text = ts) ↔ IsTokenList ts)
      ∧ ∀ text : List Char,
          (relex (tokenize text) = tokenize text ↔ ¬ EndsOpen text)
            ∧ (EndsOpen text → ∃ older last, tokenize text = older ++ [last]
                ∧ relex (tokenize text) = older ++ [last ++ ['"']])
            ∧ relex (relex (tokenize text)) = relex (tokenize text) := by
  refine ⟨?_, ?_⟩
  · intro ts
    constructor
    · rintro ⟨text, rfl⟩
      exact isTokenList_tokenize text
    · exact IsTokenList.exists_tokenize
  · intro text
    rcases tokenize_cases text with ⟨hends, hclosed⟩ | ⟨hends, older, last, hts, holder, hlast⟩
      | ⟨hends, older, last, hts, holder, hlast, _⟩
    · have hsame := relex_of_closed hclosed
      rw [hsame, hsame]
      exact ⟨iff_of_true rfl hends, fun h => absurd h hends, rfl⟩
    · have hsame := relex_concat holder hlast
      rw [if_neg Bool.false_ne_true, ← hts] at hsame
      rw [hsame, hsame]
      exact ⟨iff_of_true rfl hends, fun h => absurd h hends, rfl⟩
    · have hmore := relex_concat holder hlast
      rw [if_pos rfl, ← hts] at hmore
      -- The added quote closes the open one.
      have hstable := relex_concat holder hlast.concat_quote
      rw [if_neg Bool.false_ne_true] at hstable
      refine ⟨iff_of_false ?_ (fun h => h hends), fun _ => ⟨older, last, hts, hmore⟩, ?_⟩
      · rw [hmore, hts]
        simp
      · rw [hmore, hstable]

/-- A quote inside a word, with an escape pending at the end. -/
example : tokenize "a b\"c\\".toList = ["a".toList, "b\"c\\\"".toList]
    ∧ relex ["a".toList, "b\"c\\\"".toList] = ["a".toList, "b\"c\\\"\"".toList] := by
  decide

end Token
end SearchBox
