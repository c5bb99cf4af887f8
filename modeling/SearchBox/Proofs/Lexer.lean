import SearchBox.Token.Lexer

/-!
# One step of the lexer

A character either ends the token being read or is added to it, and each of the two flags depends on
its own old value and on the character alone.  This file says so once:

* `Lexer.breaksAt` — whether a character ends a token in a given state;
* `step_of_breaksAt`, `step_eq_of_not_breaksAt` — what a step does in either case;
* `step_escaped`, `step_quoted`, `step_pending`, `step_emitted` — a step, one field at a time;
* `run_append` — texts are read one after the other;
* `Lexer.Sound` — what every reachable state satisfies.

Nothing here refers to the text as a whole.
-/

namespace SearchBox
namespace Token
namespace Lexer

variable {s : Lexer} {c : Char}

/-! ## Fields of a step -/

/-- Whether a character ends the token being read: a separator that is neither escaped nor
quoted. -/
def breaksAt (s : Lexer) (c : Char) : Bool :=
  Text.isSeparator c && !s.escaped && !s.quoted

theorem ne_of_isSeparator (h : Text.isSeparator c = true) : c ≠ '\\' ∧ c ≠ '"' := by
  simp only [Text.isSeparator, Bool.or_eq_true, beq_iff_eq] at h
  rcases h with ((rfl | rfl) | rfl) | rfl <;> decide

theorem breaksAt_iff :
    s.breaksAt c = true ↔ Text.isSeparator c = true ∧ s.escaped = false ∧ s.quoted = false := by
  rw [breaksAt, Bool.and_assoc, Bool.and_eq_true, Bool.and_eq_true, Bool.not_eq_true',
    Bool.not_eq_true']

theorem step_of_breaksAt (h : s.breaksAt c = true) : s.step c = s.flush := by
  obtain ⟨hsep, hesc, hquo⟩ := breaksAt_iff.1 h
  have hne := ne_of_isSeparator hsep
  simp [step, hesc, hquo, hsep, hne.1, hne.2]

@[simp] theorem flush_escaped (s : Lexer) : s.flush.escaped = s.escaped := by
  unfold flush
  split <;> rfl

@[simp] theorem flush_quoted (s : Lexer) : s.flush.quoted = s.quoted := by
  unfold flush
  split <;> rfl

@[simp] theorem flush_pending (s : Lexer) : s.flush.pending = [] := by
  unfold flush
  split
  · rename_i h
    simpa using h
  · rfl

theorem flush_fields (s : Lexer) : s.flush = ⟨s.flush.emitted, [], s.quoted, s.escaped⟩ := by
  rw [← flush_pending s, ← flush_quoted s, ← flush_escaped s]

theorem flush_emitted (s : Lexer) :
    s.flush.emitted = if s.pending = [] then s.emitted else s.pending.reverse :: s.emitted := by
  unfold flush
  cases h : s.pending with
  | nil => simp
  | cons d ds => simp

/-- Any character that ends no token is added to the one being read. -/
theorem step_eq_of_not_breaksAt (h : s.breaksAt c = false) :
    s.step c = ⟨s.emitted, c :: s.pending, s.quoted ^^ (!s.escaped && c == '"'),
      !s.escaped && c == '\\'⟩ := by
  unfold step
  cases hesc : s.escaped with
  | true => simp [push]
  | false =>
      by_cases hback : c = '\\'
      · simp [hback, push]
      · by_cases hquote : c = '"'
        · simp [hquote, push, hesc]
        · have hstay : (Text.isSeparator c && !s.quoted) = false := by
            simpa [breaksAt, hesc] using h
          have hsame : (c == '"') = false := by simpa using hquote
          simp [hback, hsame, hstay, push, hesc]

theorem step_of_not_breaksAt (h : s.breaksAt c = false) :
    (s.step c).pending = c :: s.pending ∧ (s.step c).emitted = s.emitted := by
  rw [step_eq_of_not_breaksAt h]
  exact ⟨rfl, rfl⟩

/-- Only an unescaped backslash escapes what follows. -/
theorem step_escaped (s : Lexer) (c : Char) :
    (s.step c).escaped = (!s.escaped && c == '\\') := by
  cases hbreak : s.breaksAt c with
  | true =>
      obtain ⟨hsep, hesc, _⟩ := breaksAt_iff.1 hbreak
      rw [step_of_breaksAt hbreak, flush_escaped, hesc]
      simp [(ne_of_isSeparator hsep).1]
  | false => rw [step_eq_of_not_breaksAt hbreak]

/-- Only an unescaped double quote opens or closes a quotation. -/
theorem step_quoted (s : Lexer) (c : Char) :
    (s.step c).quoted = (s.quoted ^^ (!s.escaped && c == '"')) := by
  cases hbreak : s.breaksAt c with
  | true =>
      obtain ⟨hsep, _, hquo⟩ := breaksAt_iff.1 hbreak
      rw [step_of_breaksAt hbreak, flush_quoted, hquo]
      simp [(ne_of_isSeparator hsep).2]
  | false => rw [step_eq_of_not_breaksAt hbreak]

/-- A character that has no meaning of its own in a state is added to the token being read. -/
theorem step_of_ordinary (hesc : s.escaped = false) (hback : c ≠ '\\') (hquote : c ≠ '"')
    (hsep : Text.isSeparator c = true → s.quoted = true) :
    s.step c = { s with pending := c :: s.pending } := by
  have hstay : (Text.isSeparator c && !s.quoted) = false := by
    cases hblank : Text.isSeparator c with
    | false => rfl
    | true => simp [hsep hblank]
  simp [step, push, hesc, hback, hquote, hstay]

/-- A backslash is added to the token being read, with the character that it takes. -/
theorem step_backslash (hesc : s.escaped = false) (c : Char) :
    (s.step '\\').step c = { s with pending := c :: '\\' :: s.pending } := by
  cases s
  simp_all [step, push]

theorem step_pending (s : Lexer) (c : Char) :
    (s.step c).pending = if s.breaksAt c = true then [] else c :: s.pending := by
  cases h : s.breaksAt c with
  | true => simp [step_of_breaksAt h]
  | false => simp [(step_of_not_breaksAt h).1]

theorem step_emitted (s : Lexer) (c : Char) :
    (s.step c).emitted = if s.breaksAt c = true then s.flush.emitted else s.emitted := by
  cases h : s.breaksAt c with
  | true => simp [step_of_breaksAt h]
  | false => simp [(step_of_not_breaksAt h).2]

/-- Whatever is taken from tokens one by one, finishing one more adds what is taken from it. -/
theorem flatten_map_flush (f : Token → List Char) (hf : f [] = []) (s : Lexer) :
    (s.flush.emitted.reverse.map f).flatten
      = (s.emitted.reverse.map f).flatten ++ f s.pending.reverse := by
  rw [flush_emitted]
  by_cases h : s.pending = []
  · simp [h, hf]
  · simp [h]

/-! ## Runs -/

@[simp] theorem run_nil (s : Lexer) : s.run [] = s := rfl

@[simp] theorem run_cons (s : Lexer) (c : Char) (text : List Char) :
    s.run (c :: text) = (s.step c).run text := rfl

theorem run_append (s : Lexer) (a b : List Char) : s.run (a ++ b) = (s.run a).run b :=
  List.foldl_append

theorem run_concat (s : Lexer) (a : List Char) (c : Char) :
    s.run (a ++ [c]) = (s.run a).step c := by
  rw [run_append, run_cons, run_nil]

/-! ## The end of a text -/

/-- Adds a double quote to the last token. -/
def closeLast : List Token → List Token
  | [] => []
  | [t] => [t ++ ['"']]
  | t :: u :: ts => t :: closeLast (u :: ts)

theorem closeLast_concat (ts : List Token) (t : Token) :
    closeLast (ts ++ [t]) = ts ++ [t ++ ['"']] := by
  induction ts with
  | nil => rfl
  | cons u ts ih =>
      cases ts with
      | nil => rfl
      | cons v ts =>
          rw [List.cons_append, List.cons_append, closeLast, ← List.cons_append, ih]
          rfl

theorem closeLast_append (us : List Token) {ts : List Token} (h : ts ≠ []) :
    closeLast (us ++ ts) = us ++ closeLast ts := by
  obtain ⟨older, last, rfl⟩ := (List.eq_nil_or_concat ts).resolve_left h
  rw [List.concat_eq_append, ← List.append_assoc, closeLast_concat, closeLast_concat,
    List.append_assoc]

/-- An open quote is closed in the last token. -/
theorem tokens_eq (s : Lexer) :
    s.tokens = if s.quoted = true then closeLast s.flush.emitted.reverse
      else s.flush.emitted.reverse := by
  unfold tokens close
  by_cases hquo : s.quoted = true
  · simp only [hquo, if_true]
    -- The quote goes to the token being read or, if there is none, to the newest finished one.
    cases hpending : s.pending with
    | nil =>
        cases hemitted : s.emitted with
        | nil => simp [flush_emitted, hpending, hemitted, closeLast]
        | cons last older => simp [flush_emitted, hpending, hemitted, closeLast_concat]
    | cons d ds => simp [flush_emitted, push, hpending, closeLast_concat]
  · simp [hquo]

/-! ## Reachable states -/

/-- What holds of every state that can be reached: finished tokens have a character other than a
backslash, the token being read has a quote in it as long as one is open, and a backslash as its
newest character as long as that takes the next one; a lone backslash always does. -/
structure Sound (s : Lexer) : Prop where
  emitted_ne : ∀ t ∈ s.emitted, t ≠ [] ∧ t ≠ ['\\']
  pending_ne : s.quoted = true → '"' ∈ s.pending
  pending_of_escaped : s.escaped = true → s.pending.head? = some '\\'
  escaped_of_lone : s.pending = ['\\'] → s.escaped = true

theorem sound_start : start.Sound where
  emitted_ne := by
    intro t ht
    cases ht
  pending_ne := by
    intro h
    cases h
  pending_of_escaped := by
    intro h
    cases h
  escaped_of_lone := by
    intro h
    cases h

theorem Sound.flush_emitted_ne (h : s.Sound) (hesc : s.escaped = false) :
    ∀ t ∈ s.flush.emitted, t ≠ [] ∧ t ≠ ['\\'] := by
  intro t ht
  rw [flush_emitted] at ht
  split at ht
  · exact h.emitted_ne t ht
  · rename_i hne
    rcases List.mem_cons.1 ht with rfl | ht
    · refine ⟨by simpa using hne, ?_⟩
      intro hlone
      have hpending : s.pending = ['\\'] := by simpa using congrArg List.reverse hlone
      rw [h.escaped_of_lone hpending] at hesc
      cases hesc
    · exact h.emitted_ne t ht

/-- As long as a quote is open, there is a token to close it in. -/
theorem Sound.pending_ne_nil (h : s.Sound) (hquo : s.quoted = true) : s.pending ≠ [] :=
  List.ne_nil_of_mem (h.pending_ne hquo)

theorem Sound.flush_emitted_ne_nil (h : s.Sound) (hquo : s.quoted = true) :
    s.flush.emitted.reverse ≠ [] := by
  simp [flush_emitted, h.pending_ne_nil hquo]

theorem Sound.step (h : s.Sound) (c : Char) : (s.step c).Sound := by
  cases hbreak : s.breaksAt c with
  | true =>
      -- A token ends only where both flags are off, and they stay off.
      obtain ⟨_, hescaped, hquoted⟩ := breaksAt_iff.1 hbreak
      rw [step_of_breaksAt hbreak]
      refine ⟨h.flush_emitted_ne hescaped, ?_, ?_, ?_⟩
      · intro hquo
        rw [flush_quoted, hquoted] at hquo
        cases hquo
      · intro hesc
        rw [flush_escaped, hescaped] at hesc
        cases hesc
      · intro hlone
        simp at hlone
  | false =>
      obtain ⟨hpending, hemitted⟩ := step_of_not_breaksAt hbreak
      -- The character becomes the newest one of the token being read.
      refine ⟨?_, ?_, ?_, ?_⟩
      · rw [hemitted]
        exact h.emitted_ne
      · intro hquo
        rw [hpending, List.mem_cons]
        rw [step_quoted] at hquo
        by_cases hopen : s.quoted = true
        · exact Or.inr (h.pending_ne hopen)
        · have hquote : s.escaped = false ∧ c = '"' := by simpa [hopen] using hquo
          exact Or.inl hquote.2.symm
      · intro hesc
        have hback : s.escaped = false ∧ c = '\\' := by simpa [step_escaped] using hesc
        rw [hpending, hback.2, List.head?_cons]
      · intro hlone
        have hfirst : c = '\\' ∧ s.pending = [] := by simpa [hpending] using hlone
        -- An escaped character is never the first one of a token.
        have hesc : s.escaped = false := by
          cases hesc : s.escaped with
          | false => rfl
          | true =>
              have hhead := h.pending_of_escaped hesc
              rw [hfirst.2] at hhead
              cases hhead
        rw [step_escaped, hesc, hfirst.1]
        rfl

theorem Sound.run (h : s.Sound) (text : List Char) : (s.run text).Sound := by
  induction text generalizing s with
  | nil => exact h
  | cons c text ih => exact ih (h.step c)

theorem sound_run_start (text : List Char) : (start.run text).Sound :=
  sound_start.run text

end Lexer
end Token
end SearchBox
