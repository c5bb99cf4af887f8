import SearchBox.Proofs.Edits

/-!
# Where an open quote is closed

`Lexer.close` has an answer for every state: an open quote is closed in the token being read, or in
the newest finished one if no token is being read.  This file says that the second case never
arises, so that a token which is finished stays as it is:

* `exists_unescaped_quote` — a quote is open at the end of a text only if an unescaped one is in it;
* `exists_before_pending` — the token being read is the end of what was read, and begins where the
  lexer was at rest;
* `Lexer.emitted_suffix_run`, `Lexer.Sound.emitted_prefix_tokens` — reading on and closing a quote
  only add to the finished tokens;
* `close_in_pending` — what this says of every text and of all that may come behind it.
-/

namespace SearchBox
namespace Token

open Query

variable {t text : List Char}

/-! ## Finished tokens -/

namespace Lexer

variable {s : Lexer}

theorem emitted_suffix_flush (s : Lexer) : s.emitted <:+ s.flush.emitted := by
  rw [flush_emitted]
  split
  · exact List.suffix_refl _
  · exact List.suffix_cons _ _

/-- A character leaves the finished tokens as they are. -/
theorem emitted_suffix_step (s : Lexer) (c : Char) : s.emitted <:+ (s.step c).emitted := by
  rw [step_emitted]
  split
  · exact emitted_suffix_flush s
  · exact List.suffix_refl _

theorem emitted_suffix_run (s : Lexer) (text : List Char) :
    s.emitted <:+ (s.run text).emitted := by
  induction text generalizing s with
  | nil => exact List.suffix_refl _
  | cons c text ih => exact (emitted_suffix_step s c).trans (ih (s.step c))

/-- So does the end of a text, since an open quote has a token that is still being read. -/
theorem Sound.emitted_prefix_tokens (h : s.Sound) : s.emitted.reverse <+: s.tokens := by
  by_cases hnil : s.pending = []
  · exact (h.tokens_of_pending_nil hnil).2 ▸ List.prefix_refl _
  · rw [tokens_of_pending hnil]
    exact List.prefix_append _ _

/-- The closing quote goes to the token being read. -/
theorem Sound.close_eq (h : s.Sound) : s.close = if s.quoted = true then s.push '"' else s := by
  unfold close
  split
  · rename_i hquo
    rw [if_neg]
    simpa using h.pending_ne_nil hquo
  · rfl

end Lexer

/-! ## The token being read -/

/-- A quote is open only behind one that is not escaped. -/
theorem exists_unescaped_quote (h : quotedAt t t.length = true) :
    ∃ u v, t = u ++ '"' :: v ∧ trailingBackslashes u % 2 = 0 := by
  induction t using List.reverseRecOn with
  | nil => cases h
  | append_singleton t c ih =>
      rw [quotedAt_end_concat] at h
      cases hquo : quotedAt t t.length with
      | true =>
          obtain ⟨u, v, rfl, hu⟩ := ih hquo
          exact ⟨u, v ++ [c], by simp, hu⟩
      | false =>
          -- The last character has opened it.
          have hopens : escapedAt t t.length = false ∧ c = '"' := by simpa [hquo] using h
          exact ⟨t, [], by rw [hopens.2], escapedAt_end_eq_false_iff.1 hopens.1⟩

/-- Before the token being read, no quote is open and no escape is pending. -/
theorem exists_before_pending (text : List Char) :
    ∃ before, text = before ++ (Lexer.start.run text).pending.reverse ∧ Balanced before := by
  induction text using List.reverseRecOn with
  | nil => exact ⟨[], rfl, rfl, rfl⟩
  | append_singleton pre c ih =>
      rw [Lexer.run_concat, Lexer.step_pending]
      cases hbreak : (Lexer.start.run pre).breaksAt c with
      | true =>
          obtain ⟨_, hescaped, hquoted⟩ := Lexer.breaksAt_iff.1 hbreak
          refine ⟨pre ++ [c], by simp, ?_⟩
          rw [balanced_iff_atRest, AtRest, Lexer.run_concat, Lexer.step_of_breaksAt hbreak,
            Lexer.flush_quoted, Lexer.flush_escaped]
          exact ⟨hquoted, hescaped⟩
      | false =>
          obtain ⟨before, hbefore, hbalanced⟩ := ih
          refine ⟨before, ?_, hbalanced⟩
          rw [if_neg Bool.false_ne_true, List.reverse_cons, ← List.append_assoc, ← hbefore]

/-! ## Closing -/

/-- However far a text has been read, no finished token is empty, and all of them are tokens of the
whole text, whatever comes behind.  If a quote is open there, then the token being read has a quote
in it that is escaped neither in the text nor in the token by itself; so a text that ends there has
its closing quote added to that token and to no other, and what becomes of it is no operator, with
the added quote or without it. -/
theorem close_in_pending (text rest : List Char) :
    let s := Lexer.start.run text
    (∀ t ∈ s.emitted, t ≠ [])
      ∧ s.emitted.reverse <+: tokenize (text ++ rest)
      ∧ s.close = (if s.quoted = true then s.push '"' else s)
      ∧ (s.quoted = true →
          s.pending ≠ []
            ∧ (∃ before u v, text = before ++ s.pending.reverse
                ∧ s.pending.reverse = u ++ '"' :: v
                ∧ trailingBackslashes u % 2 = 0
                ∧ trailingBackslashes (before ++ u) % 2 = 0)
            ∧ tokenize text = s.emitted.reverse ++ [s.pending.reverse ++ ['"']]
            ∧ 2 ≤ (s.pending.reverse ++ ['"']).length
            ∧ isOperator (s.pending.reverse ++ ['"']) = false
            ∧ isOperator s.pending.reverse = false) := by
  intro s
  have hsound : s.Sound := Lexer.sound_run_start text
  refine ⟨fun t ht => (hsound.emitted_ne t ht).1, ?_, hsound.close_eq, ?_⟩
  · have hrun : Lexer.start.run (text ++ rest) = s.run rest := Lexer.run_append _ _ _
    have hkept : s.emitted.reverse <+: (s.run rest).emitted.reverse :=
      List.reverse_prefix.2 (s.emitted_suffix_run rest)
    rw [tokenize, hrun]
    exact hkept.trans (hsound.run rest).emitted_prefix_tokens
  · intro hopen
    have hne : s.pending ≠ [] := hsound.pending_ne_nil hopen
    have hquote : '"' ∈ s.pending.reverse := List.mem_reverse.2 (hsound.pending_ne hopen)
    obtain ⟨before, hbefore, hbalanced⟩ := exists_before_pending text
    obtain ⟨u, v, hcut, hu⟩ := exists_unescaped_quote ((flags_pending text).2.symm.trans hopen)
    refine ⟨hne, ⟨before, u, v, hbefore, hcut, hu, ?_⟩, ?_, ?_, ?_, ?_⟩
    · rw [← escapedAt_end_eq_false_iff] at hu ⊢
      rw [escapedAt_append (escapedAt_end_eq_false_iff.2 hbalanced.backslashes), hu]
    · rw [tokenize, Lexer.tokens_of_pending hne, if_pos hopen]
    · have hlength : 0 < s.pending.length := List.length_pos_iff.2 hne
      rw [List.length_append, List.length_reverse, List.length_singleton]
      omega
    · exact isOperator_eq_false_of_mem (List.mem_append_left _ hquote) (not_mem_word (Or.inr rfl))
    · exact isOperator_eq_false_of_mem hquote (not_mem_word (Or.inr rfl))

/-- A quote that is open behind an operator, with the name of another one in it. -/
theorem close_in_pending_open_operator :
    (Lexer.start.run "x OR \"AND".toList).quoted = true
      ∧ tokenize "x OR \"AND".toList = ["x".toList, "OR".toList, "\"AND\"".toList] := by
  have hopen : (Lexer.start.run "x OR \"AND".toList).quoted = true := by decide
  obtain ⟨_, _, _, hclose⟩ := close_in_pending "x OR \"AND".toList []
  obtain ⟨_, _, htokens, _⟩ := hclose hopen
  exact ⟨hopen, htokens.trans (by decide)⟩

end Token
end SearchBox
