import SearchBox.Proofs.Lexer
import Mathlib.Data.List.Induction

/-!
# Tokens by position

The lexer reads a text from left to right and carries two flags.  Here its tokens are said without a
state, by the positions of the text alone:

* a position is *escaped* if an odd number of backslashes stands right before it;
* it is *quoted* if the number of unescaped double quotes before it is odd;
* it is a *separator* if its character is one and it is neither escaped nor quoted;
* `IsStretch` — a maximal stretch of positions without a separator.

`tokenize_eq_stretches` says that the tokens are these stretches, in order, with an open quote closed
in the last one.
-/

namespace SearchBox
namespace Token

/-! ## Positions -/

/-- The number of backslashes at the end of a text. -/
def trailingBackslashes (t : List Char) : Nat :=
  (t.reverse.takeWhile (· == '\\')).length

/-- Whether an odd number of backslashes stands right before a position. -/
def escapedAt (text : List Char) (i : Nat) : Bool :=
  trailingBackslashes (text.take i) % 2 == 1

/-- The number of unescaped double quotes before a position. -/
def quotesBefore (text : List Char) (i : Nat) : Nat :=
  (List.range i).countP fun j => text[j]? == some '"' && !escapedAt text j

/-- Whether the number of unescaped double quotes before a position is odd. -/
def quotedAt (text : List Char) (i : Nat) : Bool :=
  quotesBefore text i % 2 == 1

/-- Whether a separator stands at a position, neither escaped nor quoted. -/
def separatorAt (text : List Char) (i : Nat) : Bool :=
  text[i]?.any Text.isSeparator && !escapedAt text i && !quotedAt text i

/-- The positions from `i` on and before `j` are not empty, have no separator among them, and have
one on either side unless the text begins or ends there. -/
structure IsStretch (text : List Char) (i j : Nat) : Prop where
  nonempty : i < j
  inside : j ≤ text.length
  unbroken : ∀ k, i ≤ k → k < j → separatorAt text k = false
  left : ∀ k, k + 1 = i → separatorAt text k = true
  right : j < text.length → separatorAt text j = true

/-- The characters from one position on and before another. -/
def slice (text : List Char) (span : Nat × Nat) : List Char :=
  (text.take span.2).drop span.1

/-- The characters of a text that are not at a separator. -/
def kept (text : List Char) : List Char :=
  (text.zipIdx.filter fun p => !separatorAt text p.2).map Prod.fst

variable {pre : List Char} {c : Char} {i j k : Nat}

/-! ## One more character

What is said of a position depends on the text up to that position only. -/

theorem trailingBackslashes_concat (pre : List Char) (c : Char) :
    trailingBackslashes (pre ++ [c]) = if c = '\\' then trailingBackslashes pre + 1 else 0 := by
  unfold trailingBackslashes
  rw [List.reverse_append, List.reverse_singleton, List.singleton_append]
  by_cases h : c = '\\'
  · simp [h]
  · simp [h]

theorem escapedAt_concat (h : i ≤ pre.length) :
    escapedAt (pre ++ [c]) i = escapedAt pre i := by
  unfold escapedAt
  rw [List.take_append_of_le_length h]

theorem getElem?_concat (h : i < pre.length) : (pre ++ [c])[i]? = pre[i]? :=
  List.getElem?_append_left h

theorem quotesBefore_concat (h : i ≤ pre.length) :
    quotesBefore (pre ++ [c]) i = quotesBefore pre i := by
  unfold quotesBefore
  apply List.countP_congr
  intro j hj
  have hlt : j < pre.length := Nat.lt_of_lt_of_le (List.mem_range.1 hj) h
  rw [getElem?_concat hlt, escapedAt_concat (Nat.le_of_lt hlt)]

theorem separatorAt_concat (h : i < pre.length) :
    separatorAt (pre ++ [c]) i = separatorAt pre i := by
  unfold separatorAt quotedAt
  rw [getElem?_concat h, escapedAt_concat (Nat.le_of_lt h), quotesBefore_concat (Nat.le_of_lt h)]

theorem escapedAt_end_concat (pre : List Char) (c : Char) :
    escapedAt (pre ++ [c]) (pre ++ [c]).length
      = (!escapedAt pre pre.length && c == '\\') := by
  unfold escapedAt
  rw [List.take_length, List.take_length, trailingBackslashes_concat]
  -- One more backslash changes the parity of the run; any other character ends the run.
  by_cases h : c = '\\'
  · have hparity := Nat.mod_two_eq_zero_or_one (trailingBackslashes pre)
    rcases hparity with hparity | hparity
    · simp [h, hparity, Nat.add_mod]
    · simp [h, hparity, Nat.add_mod]
  · simp [h]

theorem quotedAt_end_concat (pre : List Char) (c : Char) :
    quotedAt (pre ++ [c]) (pre ++ [c]).length
      = (quotedAt pre pre.length ^^ (!escapedAt pre pre.length && c == '"')) := by
  have hcount : quotesBefore (pre ++ [c]) (pre ++ [c]).length
      = quotesBefore pre pre.length
        + if (c == '"' && !escapedAt pre pre.length) = true then 1 else 0 := by
    rw [← quotesBefore_concat (c := c) (Nat.le_refl pre.length)]
    unfold quotesBefore
    rw [List.length_append, List.length_singleton, List.range_succ, List.countP_append,
      List.countP_singleton, escapedAt_concat (Nat.le_refl pre.length), List.getElem?_concat_length]
    simp
  unfold quotedAt
  rw [hcount]
  -- The parity changes exactly where the new character is counted.
  have hparity := Nat.mod_two_eq_zero_or_one (quotesBefore pre pre.length)
  cases hquote : c == '"' with
  | false => simp
  | true =>
      cases hesc : escapedAt pre pre.length with
      | true => simp
      | false =>
          rcases hparity with hparity | hparity
          · simp [hparity, Nat.add_mod]
          · simp [hparity, Nat.add_mod]

/-- At the end of a text, the run of backslashes in front is the one that the text ends in. -/
theorem escapedAt_end_iff :
    escapedAt pre pre.length = true ↔ trailingBackslashes pre % 2 = 1 := by
  rw [escapedAt, List.take_length, beq_iff_eq]

theorem escapedAt_end_eq_false_iff :
    escapedAt pre pre.length = false ↔ trailingBackslashes pre % 2 = 0 := by
  rw [← Bool.not_eq_true, escapedAt_end_iff, ← ne_eq, Nat.mod_two_ne_one]

/-! ## The flags of the lexer -/

/-- The flags of the lexer after a text are what the positions say about its end. -/
theorem flags_run (text : List Char) :
    (Lexer.start.run text).escaped = escapedAt text text.length
      ∧ (Lexer.start.run text).quoted = quotedAt text text.length := by
  induction text using List.reverseRecOn with
  | nil => exact ⟨rfl, rfl⟩
  | append_singleton pre c ih =>
      rw [Lexer.run_concat, Lexer.step_escaped, Lexer.step_quoted, ih.1, ih.2,
        escapedAt_end_concat, quotedAt_end_concat]
      exact ⟨rfl, rfl⟩

/-- The lexer ends a token where a separator stands. -/
theorem separatorAt_end (pre : List Char) (c : Char) :
    separatorAt (pre ++ [c]) pre.length = (Lexer.start.run pre).breaksAt c := by
  have hflags := flags_run pre
  unfold separatorAt Lexer.breaksAt
  rw [hflags.1, hflags.2, List.getElem?_concat_length, escapedAt_concat (Nat.le_refl _)]
  unfold quotedAt
  rw [quotesBefore_concat (Nat.le_refl _)]
  rfl

/-! ## Stretches of a prefix -/

/-- A stretch that ends before the end of a text is one of every longer text. -/
theorem isStretch_concat (h : j < pre.length) :
    IsStretch (pre ++ [c]) i j ↔ IsStretch pre i j := by
  have hlen : (pre ++ [c]).length = pre.length + 1 := by simp
  have hsame : ∀ k, k ≤ j → separatorAt (pre ++ [c]) k = separatorAt pre k := by
    intro k hk
    exact separatorAt_concat (Nat.lt_of_le_of_lt hk h)
  constructor
  · intro hs
    refine ⟨hs.nonempty, Nat.le_of_lt h, ?_, ?_, ?_⟩
    · intro k hik hkj
      rw [← hsame k (Nat.le_of_lt hkj)]
      exact hs.unbroken k hik hkj
    · intro k hk
      have hkj : k ≤ j := by have := hs.nonempty; omega
      rw [← hsame k hkj]
      exact hs.left k hk
    · intro hj
      rw [← hsame j (Nat.le_refl j)]
      exact hs.right (by omega)
  · intro hs
    refine ⟨hs.nonempty, by omega, ?_, ?_, ?_⟩
    · intro k hik hkj
      rw [hsame k (Nat.le_of_lt hkj)]
      exact hs.unbroken k hik hkj
    · intro k hk
      have hkj : k ≤ j := by have := hs.nonempty; omega
      rw [hsame k hkj]
      exact hs.left k hk
    · intro _
      rw [hsame j (Nat.le_refl j)]
      exact hs.right h

theorem slice_concat (h : j ≤ pre.length) : slice (pre ++ [c]) (i, j) = slice pre (i, j) := by
  simp only [slice]
  rw [List.take_append_of_le_length h]

/-- How the state of the lexer after a text is told by positions: the finished tokens are the
stretches that ended, and the token being read begins after the last separator. -/
structure Traced (pre : List Char) (s : Lexer) (spans : List (Nat × Nat)) (first : Nat) : Prop where
  emitted : s.emitted.reverse = spans.map (slice pre)
  pending : s.pending.reverse = pre.drop first
  mem : ∀ i j, (i, j) ∈ spans ↔ IsStretch pre i j ∧ j < pre.length
  sorted : spans.Pairwise fun a b => a.2 < b.1
  inside : first ≤ pre.length
  unbroken : ∀ k, first ≤ k → k < pre.length → separatorAt pre k = false
  left : ∀ k, k + 1 = first → separatorAt pre k = true

/-- Every stretch that ended lies before the token being read. -/
theorem Traced.lt_first {s : Lexer} {spans : List (Nat × Nat)} {first : Nat}
    (h : Traced pre s spans first) : ∀ a ∈ spans, a.2 < first := by
  rintro ⟨i, j⟩ ha
  obtain ⟨hs, hj⟩ := (h.mem i j).1 ha
  -- Else the separator that ended it would stand inside the token being read.
  by_contra hle
  have hfree := h.unbroken j (Nat.le_of_not_lt hle) hj
  rw [hs.right hj] at hfree
  cases hfree

/-- A stretch that reaches the end of a text begins with the token being read. -/
theorem Traced.begins {s : Lexer} {spans : List (Nat × Nat)} {first : Nat}
    (h : Traced pre s spans first) (hij : i < pre.length)
    (hfree : ∀ k, i ≤ k → k < pre.length → separatorAt pre k = false)
    (hleft : ∀ k, k + 1 = i → separatorAt pre k = true) : i = first := by
  rcases Nat.lt_trichotomy i first with hlt | heq | hgt
  · -- A separator stands right before the token being read.
    have hsep := h.left (first - 1) (by omega)
    rw [hfree (first - 1) (by omega) (by have := h.inside; omega)] at hsep
    cases hsep
  · exact heq
  · -- A separator stands right before the stretch.
    have hsep := hleft (i - 1) (by omega)
    rw [h.unbroken (i - 1) (by omega) (by omega)] at hsep
    cases hsep

/-- The stretch that the token being read makes, if it has a character. -/
def lastSpan (pre : List Char) (first : Nat) : List (Nat × Nat) :=
  if first < pre.length then [(first, pre.length)] else []

theorem mem_lastSpan {first : Nat} :
    (i, j) ∈ lastSpan pre first ↔ i = first ∧ j = pre.length ∧ first < pre.length := by
  unfold lastSpan
  split
  · rename_i hlt
    simp [hlt]
  · rename_i hle
    simp [hle]

/-- With the token being read made into one, the tokens are all stretches that ended. -/
theorem Traced.flush_emitted {s : Lexer} {spans : List (Nat × Nat)} {first : Nat}
    (h : Traced pre s spans first) :
    s.flush.emitted.reverse = (spans ++ lastSpan pre first).map (slice pre) := by
  have hempty : s.pending = [] ↔ ¬ first < pre.length := by
    rw [← List.reverse_eq_nil_iff, h.pending, List.drop_eq_nil_iff]
    exact Nat.not_lt.symm
  rw [Lexer.flush_emitted, lastSpan]
  by_cases hlt : first < pre.length
  · have hne : s.pending ≠ [] := fun hnil => hempty.1 hnil hlt
    simp [hne, hlt, h.emitted, h.pending, slice]
  · simp [hempty.2 hlt, hlt, h.emitted]

theorem Traced.sorted_append {s : Lexer} {spans : List (Nat × Nat)} {first : Nat}
    (h : Traced pre s spans first) :
    (spans ++ lastSpan pre first).Pairwise fun a b => a.2 < b.1 := by
  rw [List.pairwise_append]
  refine ⟨h.sorted, ?_, ?_⟩
  · unfold lastSpan
    split <;> simp
  · rintro a ha ⟨i, j⟩ hlast
    obtain ⟨rfl, _, _⟩ := mem_lastSpan.1 hlast
    exact h.lt_first a ha

/-! ## Reading one more character -/

theorem traced_start : Traced [] Lexer.start [] 0 where
  emitted := rfl
  pending := rfl
  mem := by
    intro i j
    constructor
    · intro h
      cases h
    · rintro ⟨_, hj⟩
      cases hj
  sorted := List.Pairwise.nil
  inside := Nat.le_refl 0
  unbroken := by
    intro k _ hk
    cases hk
  left := by
    intro k hk
    cases hk

theorem map_slice_concat {spans : List (Nat × Nat)} (h : ∀ a ∈ spans, a.2 ≤ pre.length) :
    spans.map (slice (pre ++ [c])) = spans.map (slice pre) := by
  apply List.map_congr_left
  intro a ha
  exact slice_concat (h a ha)

/-- A separator ends the token being read. -/
theorem Traced.step_separator {s : Lexer} {spans : List (Nat × Nat)} {first : Nat}
    (h : Traced pre s spans first) (hs : (s.step c) = s.flush)
    (hsep : separatorAt (pre ++ [c]) pre.length = true) :
    Traced (pre ++ [c]) (s.step c) (spans ++ lastSpan pre first) (pre.length + 1) := by
  have hlen : (pre ++ [c]).length = pre.length + 1 := by simp
  refine ⟨?_, ?_, ?_, h.sorted_append, by omega, by omega, ?_⟩
  · rw [hs, h.flush_emitted, map_slice_concat]
    rintro ⟨i, j⟩ hspan
    rcases List.mem_append.1 hspan with hended | hlast
    · exact Nat.le_trans (Nat.le_of_lt (h.lt_first _ hended)) h.inside
    · exact Nat.le_of_eq (mem_lastSpan.1 hlast).2.1
  · rw [hs, ← hlen]
    simp
  · -- A stretch that has ended now either had ended before or is the token being read.
    intro i j
    rw [List.mem_append, h.mem, mem_lastSpan, hlen]
    constructor
    · rintro (⟨hstretch, hj⟩ | ⟨rfl, rfl, hlt⟩)
      · exact ⟨(isStretch_concat hj).2 hstretch, by omega⟩
      · refine ⟨⟨hlt, by omega, ?_, ?_, fun _ => hsep⟩, by omega⟩
        · intro k hik hkj
          rw [separatorAt_concat hkj]
          exact h.unbroken k hik hkj
        · intro k hk
          rw [separatorAt_concat (by omega)]
          exact h.left k hk
    · rintro ⟨hstretch, hj⟩
      rcases Nat.lt_or_eq_of_le (Nat.le_of_lt_succ hj) with hlt | rfl
      · exact Or.inl ⟨(isStretch_concat hlt).1 hstretch, hlt⟩
      · right
        have hi := hstretch.nonempty
        have hbegin : i = first := by
          apply h.begins hi
          · intro k hik hk
            rw [← separatorAt_concat (c := c) hk]
            exact hstretch.unbroken k hik hk
          · intro k hk
            rw [← separatorAt_concat (c := c) (by omega)]
            exact hstretch.left k hk
        exact ⟨hbegin, rfl, hbegin ▸ hi⟩
  · intro k hk
    have heq : k = pre.length := by omega
    rw [heq]
    exact hsep

/-- Any other character is added to the token being read. -/
theorem Traced.step_other {s : Lexer} {spans : List (Nat × Nat)} {first : Nat}
    (h : Traced pre s spans first)
    (hs : (s.step c).pending = c :: s.pending ∧ (s.step c).emitted = s.emitted)
    (hsep : separatorAt (pre ++ [c]) pre.length = false) :
    Traced (pre ++ [c]) (s.step c) spans first := by
  have hlen : (pre ++ [c]).length = pre.length + 1 := by simp
  have hinside := h.inside
  refine ⟨?_, ?_, ?_, h.sorted, by omega, ?_, ?_⟩
  · rw [hs.2, h.emitted, map_slice_concat]
    intro a ha
    exact Nat.le_trans (Nat.le_of_lt (h.lt_first a ha)) h.inside
  · rw [hs.1, List.reverse_cons, h.pending, List.drop_append_of_le_length h.inside]
  · intro i j
    rw [h.mem, hlen]
    constructor
    · rintro ⟨hstretch, hj⟩
      exact ⟨(isStretch_concat hj).2 hstretch, by omega⟩
    · rintro ⟨hstretch, hj⟩
      rcases Nat.lt_or_eq_of_le (Nat.le_of_lt_succ hj) with hlt | rfl
      · exact ⟨(isStretch_concat hlt).1 hstretch, hlt⟩
      · -- Such a stretch would have to end at a separator.
        have hend := hstretch.right (by omega)
        rw [hsep] at hend
        cases hend
  · intro k hk hlt
    rcases Nat.lt_or_eq_of_le (Nat.le_of_lt_succ (hlen ▸ hlt)) with hlt | rfl
    · rw [separatorAt_concat hlt]
      exact h.unbroken k hk hlt
    · exact hsep
  · intro k hk
    rw [separatorAt_concat (by omega)]
    exact h.left k hk

/-- One more character ends the token being read or is added to it. -/
theorem Traced.step {spans : List (Nat × Nat)} {first : Nat}
    (h : Traced pre (Lexer.start.run pre) spans first) (c : Char) :
    Traced (pre ++ [c]) (Lexer.start.run (pre ++ [c])) (spans ++ lastSpan pre first) (pre.length + 1)
      ∨ Traced (pre ++ [c]) (Lexer.start.run (pre ++ [c])) spans first := by
  -- The lexer ends a token exactly where a separator stands.
  have hsep := separatorAt_end pre c
  rw [Lexer.run_concat]
  cases hbreak : (Lexer.start.run pre).breaksAt c with
  | true =>
      rw [hbreak] at hsep
      exact Or.inl (h.step_separator (Lexer.step_of_breaksAt hbreak) hsep)
  | false =>
      rw [hbreak] at hsep
      exact Or.inr (h.step_other (Lexer.step_of_not_breaksAt hbreak) hsep)

/-- The state after every text is told by positions. -/
theorem exists_traced (text : List Char) :
    ∃ spans first, Traced text (Lexer.start.run text) spans first := by
  induction text using List.reverseRecOn with
  | nil => exact ⟨[], 0, traced_start⟩
  | append_singleton pre c ih =>
      obtain ⟨spans, first, h⟩ := ih
      rcases h.step c with hended | hadded
      · exact ⟨_, _, hended⟩
      · exact ⟨_, _, hadded⟩

/-- At the end of a text the stretches are those that ended and the token being read. -/
theorem Traced.mem_append {s : Lexer} {spans : List (Nat × Nat)} {first : Nat}
    (h : Traced pre s spans first) :
    ∀ i j, (i, j) ∈ spans ++ lastSpan pre first ↔ IsStretch pre i j := by
  intro i j
  rw [List.mem_append, h.mem, mem_lastSpan]
  constructor
  · rintro (⟨hstretch, _⟩ | ⟨rfl, rfl, hlt⟩)
    · exact hstretch
    · exact ⟨hlt, Nat.le_refl _, h.unbroken, h.left, fun hj => absurd hj (Nat.lt_irrefl _)⟩
  · intro hstretch
    rcases Nat.lt_or_eq_of_le hstretch.inside with hlt | rfl
    · exact Or.inl ⟨hstretch, hlt⟩
    · right
      have hbegin := h.begins hstretch.nonempty hstretch.unbroken hstretch.left
      exact ⟨hbegin, rfl, hbegin ▸ hstretch.nonempty⟩

/-! ## What is kept -/

theorem kept_concat (pre : List Char) (c : Char) :
    kept (pre ++ [c])
      = kept pre ++ if separatorAt (pre ++ [c]) pre.length = true then [] else [c] := by
  have hold : (pre.zipIdx.filter fun p => !separatorAt (pre ++ [c]) p.2)
      = pre.zipIdx.filter fun p => !separatorAt pre p.2 := by
    apply List.filter_congr
    rintro ⟨d, k⟩ hd
    have hk : k < pre.length := by simpa using (List.mem_zipIdx hd).2.1
    rw [separatorAt_concat hk]
  unfold kept
  rw [List.zipIdx_append, List.filter_append, List.map_append, hold]
  cases hsep : separatorAt (pre ++ [c]) pre.length with
  | true => simp [hsep]
  | false => simp [hsep]

/-- The lexer keeps every character that is not at a separator, in order. -/
theorem flatten_run (text : List Char) :
    (Lexer.start.run text).flush.emitted.reverse.flatten = kept text := by
  have hflush : ∀ s : Lexer,
      s.flush.emitted.reverse.flatten = s.emitted.reverse.flatten ++ s.pending.reverse := by
    intro s
    simpa using Lexer.flatten_map_flush id rfl s
  induction text using List.reverseRecOn with
  | nil => rfl
  | append_singleton pre c ih =>
      rw [Lexer.run_concat, kept_concat, separatorAt_end, ← ih, hflush, Lexer.step_pending,
        Lexer.step_emitted]
      cases hbreak : (Lexer.start.run pre).breaksAt c with
      | true => simp
      | false => simp [hflush]

theorem flatten_closeLast {ts : List Token} (h : ts ≠ []) :
    (Lexer.closeLast ts).flatten = ts.flatten ++ ['"'] := by
  obtain ⟨older, last, rfl⟩ := (List.eq_nil_or_concat ts).resolve_left h
  rw [List.concat_eq_append, Lexer.closeLast_concat]
  simp

theorem ne_nil_of_mem_closeLast {ts : List Token} (h : ∀ t ∈ ts, t ≠ []) :
    ∀ t ∈ Lexer.closeLast ts, t ≠ [] := by
  rcases List.eq_nil_or_concat ts with rfl | ⟨older, last, rfl⟩
  · exact h
  · rw [List.concat_eq_append, Lexer.closeLast_concat]
    intro t ht
    rcases List.mem_append.1 ht with ht | ht
    · exact h t (by simp [ht])
    · rw [List.mem_singleton.1 ht]
      simp

/-! ## The tokens of a text -/

/-- The tokens of a text are its maximal stretches without a separator, in order and with their
characters as they stand; only if the number of unescaped double quotes is odd, one more is added to
the last token, and there is a last token then.  So no token is empty, and apart from that quote the
characters of the tokens are exactly those that are not at a separator. -/
theorem tokenize_eq_stretches (text : List Char) :
    ∃ spans : List (Nat × Nat),
      (∀ i j, (i, j) ∈ spans ↔ IsStretch text i j)
        ∧ spans.Pairwise (fun a b => a.2 < b.1)
        ∧ tokenize text
          = (if quotedAt text text.length = true then Lexer.closeLast (spans.map (slice text))
            else spans.map (slice text))
        ∧ (quotedAt text text.length = true → spans ≠ [])
        ∧ (∀ t ∈ tokenize text, t ≠ [])
        ∧ (tokenize text).flatten
          = kept text ++ (if quotedAt text text.length = true then ['"'] else []) := by
  obtain ⟨spans, first, htraced⟩ := exists_traced text
  have hsound := Lexer.sound_run_start text
  have hquoted := (flags_run text).2
  have hstretches := htraced.flush_emitted
  have hnonempty : ∀ t ∈ (spans ++ lastSpan text first).map (slice text), t ≠ [] := by
    intro t ht
    obtain ⟨⟨i, j⟩, hspan, rfl⟩ := List.mem_map.1 ht
    have hstretch := (htraced.mem_append i j).1 hspan
    have hi := hstretch.nonempty
    have hj := hstretch.inside
    intro hnil
    rw [slice, List.drop_eq_nil_iff, List.length_take] at hnil
    omega
  -- The invariant of the lexer says that an open quote has a token to be closed in.
  refine ⟨_, htraced.mem_append, htraced.sorted_append, ?_, ?_, ?_, ?_⟩
  · rw [tokenize, Lexer.tokens_eq, hquoted, hstretches]
  · intro hopen hnil
    apply hsound.flush_emitted_ne_nil (hquoted.trans hopen)
    rw [hstretches, hnil]
    rfl
  · rw [tokenize, Lexer.tokens_eq, hstretches]
    split
    · exact ne_nil_of_mem_closeLast hnonempty
    · exact hnonempty
  · rw [tokenize, Lexer.tokens_eq, ← flatten_run]
    by_cases hopen : quotedAt text text.length = true
    · have hne := hsound.flush_emitted_ne_nil (hquoted.trans hopen)
      simp [hquoted, hopen, flatten_closeLast hne]
    · simp [hquoted, hopen]

end Token
end SearchBox
