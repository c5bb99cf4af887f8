import SearchBox.Proofs.Relexing

/-!
# The token at a position

The tokens of a text are its stretches, each with the characters that stand there, and the last one
with a quote more if one is open.  This file ties the two together one by one:

* `AreStretches` — the stretches of a text in order;
* `tokenOf` — the token of a stretch;
* `IsTokenAt` — the token that has the character at a position;
* `exists_isTokenAt` — where a text goes on without a separator, the token being read becomes the
  token at that position, and what is finished stays in front of it.
-/

namespace SearchBox
namespace Token

variable {text pre u : List Char} {spans : List (Nat × Nat)} {first i j i' j' k : Nat} {c : Char}

/-! ## Stretches in order -/

/-- All stretches of a text, in order. -/
structure AreStretches (text : List Char) (spans : List (Nat × Nat)) : Prop where
  mem : ∀ i j, (i, j) ∈ spans ↔ IsStretch text i j
  sorted : spans.Pairwise fun a b => a.2 < b.1

/-- The quote that is added to what ends at a position: one at the end of a text, if a quote is open
there. -/
def closing (text : List Char) (j : Nat) : List Char :=
  if j = text.length ∧ quotedAt text j = true then ['"'] else []

/-- The token of a stretch. -/
def tokenOf (text : List Char) (span : Nat × Nat) : Token :=
  slice text span ++ closing text span.2

/-- A token of a text that has the character at a position. -/
def IsTokenAt (text : List Char) (k : Nat) (t : Token) : Prop :=
  ∃ i j, IsStretch text i j ∧ i ≤ k ∧ k < j ∧ t = tokenOf text (i, j)

theorem closing_of_lt (h : j < text.length) : closing text j = [] :=
  if_neg fun hend => Nat.ne_of_lt h hend.1

/-- Of two stretches with a common position, neither begins inside the other. -/
theorem IsStretch.begin_le (h : IsStretch text i j) (h' : IsStretch text i' j') (hi' : i' ≤ k)
    (hj : k < j) : i' ≤ i := by
  by_contra hlt
  -- Else the separator before the one would stand inside the other.
  have hsep := h'.left (i' - 1) (by omega)
  rw [h.unbroken (i' - 1) (by omega) (by omega)] at hsep
  cases hsep

/-- Nor does either end inside the other. -/
theorem IsStretch.le_end (h : IsStretch text i j) (h' : IsStretch text i' j') (hi : i ≤ k)
    (hj' : k < j') : j ≤ j' := by
  by_contra hlt
  have hinside := h.inside
  have hsep := h'.right (by omega)
  rw [h.unbroken j' (by omega) (by omega)] at hsep
  cases hsep

/-- A position is in one stretch only. -/
theorem IsStretch.eq_of_mem (h : IsStretch text i j) (h' : IsStretch text i' j') (hi : i ≤ k)
    (hj : k < j) (hi' : i' ≤ k) (hj' : k < j') : (i, j) = (i', j') := by
  have hbegin := Nat.le_antisymm (h'.begin_le h hi hj') (h.begin_le h' hi' hj)
  have hend := Nat.le_antisymm (h.le_end h' hi hj') (h'.le_end h hi' hj)
  rw [hbegin, hend]

/-! ## The tokens of the stretches -/

theorem Traced.areStretches (h : Traced text (Lexer.start.run text) spans first) :
    AreStretches text (spans ++ lastSpan text first) :=
  ⟨h.mem_append, h.sorted_append⟩

/-- Nothing is added to a token that has ended. -/
theorem Traced.map_tokenOf (h : Traced text (Lexer.start.run text) spans first) :
    spans.map (tokenOf text) = (Lexer.start.run text).emitted.reverse := by
  rw [h.emitted]
  apply List.map_congr_left
  rintro ⟨i, j⟩ hspan
  rw [tokenOf, closing_of_lt ((h.mem i j).1 hspan).2, List.append_nil]

/-- The tokens of a text are those of its stretches. -/
theorem Traced.tokenize (h : Traced text (Lexer.start.run text) spans first) :
    tokenize text = (spans ++ lastSpan text first).map (tokenOf text) := by
  have hsound := Lexer.sound_run_start text
  have hquoted := (flags_run text).2
  rw [List.map_append, h.map_tokenOf, Token.tokenize]
  by_cases hlt : first < text.length
  · -- The token being read is that of the last stretch, with its quote.
    have hne : (Lexer.start.run text).pending ≠ [] := by
      rw [Ne, ← List.reverse_eq_nil_iff, h.pending, List.drop_eq_nil_iff]
      exact Nat.not_le.2 hlt
    rw [Lexer.tokens_of_pending hne, lastSpan, if_pos hlt, List.map_singleton, tokenOf, slice,
      List.take_length, h.pending, closing, hquoted]
    by_cases hopen : quotedAt text text.length = true
    · simp [hopen]
    · simp [hopen]
  · have hnil : (Lexer.start.run text).pending = [] := by
      rw [← List.reverse_eq_nil_iff, h.pending, List.drop_eq_nil_iff]
      exact Nat.not_lt.1 hlt
    rw [(hsound.tokens_of_pending_nil hnil).2, lastSpan, if_neg hlt]
    simp

/-- Every text has its stretches, and its tokens are theirs. -/
theorem exists_areStretches (text : List Char) :
    ∃ spans, AreStretches text spans ∧ tokenize text = spans.map (tokenOf text) := by
  obtain ⟨spans, first, h⟩ := exists_traced text
  exact ⟨_, h.areStretches, h.tokenize⟩

/-! ## Reading on -/

/-- The token being read at the end of a text has its escapes and its quotes. -/
theorem flags_pending (text : List Char) :
    (Lexer.start.run text).escaped
        = escapedAt (Lexer.start.run text).pending.reverse
          (Lexer.start.run text).pending.reverse.length
      ∧ (Lexer.start.run text).quoted
        = quotedAt (Lexer.start.run text).pending.reverse
          (Lexer.start.run text).pending.reverse.length := by
  have hpending := flags_run (Lexer.start.run text).pending.reverse
  rwa [(Lexer.replays_run_start text).pending] at hpending

/-- As a text goes on, the token being read goes on as well or becomes a stretch, and other
stretches come behind it. -/
theorem Traced.append (h : Traced pre (Lexer.start.run pre) spans first)
    (hfirst : first < pre.length) (text : List Char) :
    ∃ spans' first', Traced (pre ++ text) (Lexer.start.run (pre ++ text)) spans' first'
      ∧ ((spans' = spans ∧ first' = first)
        ∨ ∃ j more, pre.length ≤ j ∧ spans' = spans ++ (first, j) :: more) := by
  induction text using List.reverseRecOn with
  | nil =>
      rw [List.append_nil]
      exact ⟨spans, first, h, Or.inl ⟨rfl, rfl⟩⟩
  | append_singleton text c ih =>
      obtain ⟨spans', first', htraced, hmore⟩ := ih
      have hlen := (List.prefix_append pre text).length_le
      rw [← List.append_assoc]
      rcases htraced.step c with hended | hadded
      · refine ⟨_, _, hended, Or.inr ?_⟩
        rcases hmore with ⟨rfl, rfl⟩ | ⟨j, more, hj, rfl⟩
        · have hlt := Nat.lt_of_lt_of_le hfirst hlen
          exact ⟨(pre ++ text).length, [], hlen, by rw [lastSpan, if_pos hlt]⟩
        · exact ⟨j, more ++ lastSpan (pre ++ text) first', hj, by simp⟩
      · exact ⟨_, _, hadded, hmore⟩

/-- At the end of the longer text, the token being read has become a stretch in any case. -/
theorem Traced.areStretches_append (h : Traced pre (Lexer.start.run pre) spans first)
    (hfirst : first < pre.length) (text : List Char) :
    ∃ j more, pre.length ≤ j ∧ AreStretches (pre ++ text) (spans ++ (first, j) :: more)
      ∧ Token.tokenize (pre ++ text)
        = (spans ++ (first, j) :: more).map (tokenOf (pre ++ text)) := by
  obtain ⟨spans', first', htraced, hmore⟩ := h.append hfirst text
  have hstretches := htraced.areStretches
  have htokens := htraced.tokenize
  rcases hmore with ⟨rfl, rfl⟩ | ⟨j, more, hj, rfl⟩
  · have hlen := (List.prefix_append pre text).length_le
    rw [lastSpan, if_pos (Nat.lt_of_lt_of_le hfirst hlen)] at hstretches htokens
    exact ⟨(pre ++ text).length, [], hlen, hstretches, htokens⟩
  · rw [List.append_assoc, List.cons_append] at hstretches htokens
    exact ⟨j, more ++ lastSpan (pre ++ text) first', hj, hstretches, htokens⟩

/-- What the rest of a text does to the token being read, and the tokens that come behind that,
depend on the two flags only. -/
theorem Lexer.exists_ending (quoted escaped : Bool) (v : List Char) :
    ∃ r later, ∀ emitted pending, pending ≠ [] →
      ((Lexer.mk emitted pending quoted escaped).run v).tokens
        = emitted.reverse ++ (pending.reverse ++ r) :: later := by
  induction v generalizing quoted escaped with
  | nil =>
      refine ⟨if quoted = true then ['"'] else [], [], ?_⟩
      intro emitted pending hne
      rw [run_nil, tokens_of_pending hne]
      cases quoted with
      | true => rfl
      | false => simp
  | cons c v ih =>
      by_cases hbreak : Text.isSeparator c = true ∧ escaped = false ∧ quoted = false
      · -- The token ends as it is, and the rest is read from the start.
        obtain ⟨hsep, rfl, rfl⟩ := hbreak
        refine ⟨[], Token.tokenize v, ?_⟩
        intro emitted pending hne
        have hstep : (Lexer.mk emitted pending false false).step c
            = start.onto (pending.reverse :: emitted) := by
          rw [step_of_breaksAt (breaksAt_iff.2 ⟨hsep, rfl, rfl⟩)]
          simp [flush, onto, start, hne]
        rw [run_cons, hstep, run_onto, tokens_onto (sound_run_start v), Token.tokenize]
        simp
      · obtain ⟨r, later, hrest⟩ := ih (quoted ^^ (!escaped && c == '"')) (!escaped && c == '\\')
        refine ⟨c :: r, later, ?_⟩
        intro emitted pending _
        have hstay : (Lexer.mk emitted pending quoted escaped).breaksAt c = false := by
          rw [← Bool.not_eq_true, breaksAt_iff]
          exact hbreak
        rw [run_cons, step_eq_of_not_breaksAt hstay, hrest emitted (c :: pending) (by simp)]
        simp

/-- A token that ended stays as it is when the text goes on. -/
theorem tokenOf_append (h : j < u.length) (text : List Char) :
    tokenOf (u ++ text) (i, j) = slice u (i, j) := by
  have hlt := Nat.lt_of_lt_of_le h (List.prefix_append u text).length_le
  rw [tokenOf, closing_of_lt hlt, List.append_nil]
  simp only [slice]
  rw [List.take_append_of_le_length (Nat.le_of_lt h)]

/-- A character that ends no token is in one token of the text, and the tokens in front of that are
those that were finished before it. -/
theorem exists_isTokenAt (hstay : (Lexer.start.run u).breaksAt c = false) (v : List Char) :
    ∃ t later, Token.tokenize (u ++ c :: v) = (Lexer.start.run u).emitted.reverse ++ t :: later
      ∧ ∀ t', IsTokenAt (u ++ c :: v) u.length t' ↔ t' = t := by
  obtain ⟨spans, first, htraced⟩ := exists_traced u
  have hinside := htraced.inside
  have hnext : Traced (u ++ [c]) (Lexer.start.run (u ++ [c])) spans first := by
    rw [Lexer.run_concat]
    exact htraced.step_other (Lexer.step_of_not_breaksAt hstay)
      ((separatorAt_end u c).trans hstay)
  have hlen : (u ++ [c]).length = u.length + 1 := by simp
  obtain ⟨j, more, hj, hstretches, htokens⟩ := hnext.areStretches_append (by omega) v
  rw [List.append_assoc, List.singleton_append] at hstretches htokens
  have hstretch : IsStretch (u ++ c :: v) first j := (hstretches.mem first j).1 (by simp)
  refine ⟨tokenOf (u ++ c :: v) (first, j), more.map (tokenOf (u ++ c :: v)), ?_, ?_⟩
  · rw [htokens, List.map_append, List.map_cons, htraced.emitted]
    congr 1
    apply List.map_congr_left
    rintro ⟨i', j'⟩ hspan
    exact tokenOf_append ((htraced.mem i' j').1 hspan).2 _
  · intro t'
    constructor
    · rintro ⟨i', j', hstretch', hi', hj', rfl⟩
      rw [hstretch'.eq_of_mem hstretch hi' hj' hinside (by omega)]
    · rintro rfl
      exact ⟨first, j, hstretch, hinside, by omega, rfl⟩

end Token
end SearchBox
