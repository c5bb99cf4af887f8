import SearchBox.Proofs.Pieces
import SearchBox.Proofs.Stretches

/-!
# What is seen of a text

The lexer finds the marks of a search text once, over the text as a whole.  Later the same
backslashes are found again in other texts: in runs of words that have been joined, and in phrase
tokens whose ends have been cut off.  This file says that both find the same ones:

* `visible` — the characters of a stretch without the marks of the text, with the quote that is
  added;
* `bare` — the characters of a text that are neither marks nor at a separator;
* `visiblePiece` — what a query ought to take from a stretch, by the marks of the text alone;
* `leaves_of_visible` — the leaves of a query are made of these pieces, and together they have the
  bare characters in order.

The last character of a phrase is dropped with its first one, except behind a text that ends in a
mark outside quotes: that mark is what is dropped then.
-/

namespace SearchBox

namespace Token

open Text

variable {text pre : List Char} {i j : Nat}

/-- What is seen of a stretch: its characters without the marks of the text, and the quote that is
added to it. -/
def visible (text : List Char) (span : Nat × Nat) : List Char :=
  unmarked text span ++ closing text span.2

/-- Whether a text ends at a position, in a mark outside quotes. -/
def endsInMark (text : List Char) (j : Nat) : Bool :=
  j == text.length && escapedAt text j && !quotedAt text j

/-- The characters of a text that are neither marks nor at a separator. -/
def bare (text : List Char) : List Char :=
  (text.zipIdx.filter fun p => !separatorAt text p.2 && !markAt text p.2).map Prod.fst

/-! ## The escapes of a stretch -/

/-- A stretch begins where no escape is pending. -/
theorem IsStretch.escapedAt_begin (h : IsStretch text i j) : escapedAt text i = false := by
  cases i with
  | zero => rfl
  | succ m =>
      have hsep := h.left m rfl
      have hlt : m < text.length := by
        have := h.nonempty
        have := h.inside
        omega
      rw [separatorAt, List.getElem?_eq_getElem hlt, Option.any_some, Bool.and_assoc,
        Bool.and_eq_true] at hsep
      have hne : text[m] ≠ '\\' := (Lexer.ne_of_isSeparator hsep.1).1
      rw [escapedAt_succ hlt]
      simp [hne]

theorem closing_cases (text : List Char) (j : Nat) :
    closing text j = [] ∨ closing text j = ['"'] ∧ j = text.length ∧ quotedAt text j = true := by
  unfold closing
  split
  · exact Or.inr ⟨rfl, ‹_›⟩
  · exact Or.inl rfl

/-- What is seen of a stretch is its token, unescaped by itself. -/
theorem IsStretch.visible_eq (h : IsStretch text i j) :
    visible text (i, j) = unescape (tokenOf text (i, j)) := by
  rw [visible, tokenOf,
    unmarked_eq_unescape (Nat.le_of_lt h.nonempty) h.inside h.escapedAt_begin]
  rcases closing_cases text j with hclosing | ⟨hclosing, _⟩
  · rw [hclosing, List.append_nil, List.append_nil]
  · rw [hclosing, unescape_append_cons _ (by decide)]
    rfl

/-- The token of a stretch ends in an escape only where the text ends in a mark outside quotes. -/
theorem IsStretch.escapedAt_tokenOf (h : IsStretch text i j) :
    escapedAt (tokenOf text (i, j)) (tokenOf text (i, j)).length = endsInMark text j := by
  have hslice := escapedAt_slice (Nat.le_of_lt h.nonempty) h.escapedAt_begin
  rw [tokenOf, endsInMark]
  rcases Nat.lt_or_eq_of_le h.inside with hlt | rfl
  · -- In front of a separator no escape is pending.
    have hsep := h.right hlt
    have hescaped : escapedAt text j = false := by
      rw [separatorAt, Bool.and_eq_true, Bool.and_eq_true, Bool.not_eq_true'] at hsep
      exact hsep.1.2
    rw [closing_of_lt hlt, List.append_nil, hslice, hescaped]
    simp
  · rw [closing]
    by_cases hopen : quotedAt text text.length = true
    · rw [if_pos ⟨rfl, hopen⟩, escapedAt_end_concat, hopen]
      simp
    · rw [if_neg fun hend => hopen hend.2, List.append_nil, hslice]
      simp [hopen]

/-! ## The characters of all stretches -/

theorem markAt_concat (h : i < pre.length) (c : Char) :
    markAt (pre ++ [c]) i = markAt pre i := by
  rw [markAt, getElem?_concat h, escapedAt_concat (Nat.le_of_lt h), markAt]

theorem bare_concat (pre : List Char) (c : Char) :
    bare (pre ++ [c])
      = bare pre ++ if separatorAt (pre ++ [c]) pre.length = true
          ∨ (c == '\\' && !escapedAt pre pre.length) = true then [] else [c] := by
  have hold : (pre.zipIdx.filter fun p => !separatorAt (pre ++ [c]) p.2 && !markAt (pre ++ [c]) p.2)
      = pre.zipIdx.filter fun p => !separatorAt pre p.2 && !markAt pre p.2 := by
    apply List.filter_congr
    rintro ⟨d, k⟩ hd
    have hk : k < pre.length := by simpa using (List.mem_zipIdx hd).2.1
    rw [separatorAt_concat hk, markAt_concat hk]
  have hmark : markAt (pre ++ [c]) pre.length = (c == '\\' && !escapedAt pre pre.length) := by
    rw [markAt, List.getElem?_concat_length, escapedAt_concat (Nat.le_refl _)]
    rfl
  unfold bare
  rw [List.zipIdx_append, List.filter_append, List.map_append, hold, ← hmark]
  cases hsep : separatorAt (pre ++ [c]) pre.length with
  | true => simp [hsep]
  | false =>
      cases hback : markAt (pre ++ [c]) pre.length with
      | true => simp [hback]
      | false => simp [hsep, hback]

/-- Unescaped one by one, the tokens that are read have the bare characters. -/
theorem flatten_unescape_run (text : List Char) :
    ((Lexer.start.run text).flush.emitted.reverse.map unescape).flatten = bare text := by
  have hflush := Lexer.flatten_map_flush unescape rfl
  induction text using List.reverseRecOn with
  | nil => rfl
  | append_singleton pre c ih =>
      rw [Lexer.run_concat, bare_concat, separatorAt_end, ← ih, hflush, Lexer.step_pending,
        Lexer.step_emitted]
      cases hbreak : (Lexer.start.run pre).breaksAt c with
      | true => simp
      | false =>
          -- The token being read has the same escapes as the text that it is a part of.
          have hpending := (flags_pending pre).1.symm
          rw [(flags_run pre).1] at hpending
          rw [if_neg Bool.false_ne_true, if_neg Bool.false_ne_true, List.reverse_cons,
            unescape_concat, hpending, hflush, List.append_assoc]
          simp

/-- Unescaped one by one, the tokens of a text have its bare characters in order, and the quote that
is added. -/
theorem flatten_unescape_tokenize (text : List Char) :
    ((tokenize text).map unescape).flatten = bare text ++ closing text text.length := by
  rw [← flatten_unescape_run, tokenize, Lexer.tokens_eq, (flags_run text).2, closing]
  by_cases hopen : quotedAt text text.length = true
  · have hne := (Lexer.sound_run_start text).flush_emitted_ne_nil ((flags_run text).2.trans hopen)
    obtain ⟨older, last, hlast⟩ := (List.eq_nil_or_concat _).resolve_left hne
    rw [List.concat_eq_append] at hlast
    rw [if_pos hopen, if_pos ⟨rfl, hopen⟩, hlast, Lexer.closeLast_concat]
    simp [unescape_append_cons]
  · rw [if_neg hopen, if_neg fun hend => hopen hend.2, List.append_nil]

end Token

namespace Query

open Token

variable {text : List Char} {i j : Nat}

/-- What a query ought to take from a stretch, by the marks of the text: all that is seen of a word,
and of a phrase all but its first and its last character, or all but the first if the text ends in
it with a mark outside quotes. -/
def visiblePiece (text : List Char) (span : Nat × Nat) : Piece where
  kind := kind (tokenOf text span)
  text :=
    if kind (tokenOf text span) = .phrase then
      if endsInMark text span.2 then (visible text span).tail
      else Text.dropEnds (visible text span)
    else visible text span

/-- What a query takes from the token of a stretch is what it ought to take. -/
theorem visiblePiece_eq (h : IsStretch text i j) :
    visiblePiece text (i, j) = Piece.ofToken (tokenOf text (i, j)) := by
  refine Piece.ext rfl ?_
  rw [Piece.text_ofToken, h.escapedAt_tokenOf, ← h.visible_eq]
  rfl

end Query

namespace Settings

open Query Token Grammar

/-- Within the limit, the leaves of a query are made of what is seen of the tokens of its text, in
order: each maximal run of words is one term, with what is seen of the words joined by single
spaces, and each phrase is one phrase, of what is seen of it but for its two ends; if the text ends
in the phrase with a mark outside quotes, only the first character is dropped.  Of the text nothing
else is lost, added or moved: what is seen of all tokens are the characters that are neither marks
nor at a separator, and the quote that closes an open one.  The marks are those of the lexer. -/
theorem leaves_of_visible (s : Settings) (field text : String)
    (hlimit : operatorsIn text ≤ s.maxOperators.toNat) (hne : tokenize text.toList ≠ []) :
    ∃ spans, AreStretches text.toList spans
      ∧ tokenize text.toList = spans.map (tokenOf text.toList)
      ∧ (s.query field text).leaves = leavesOfPieces field (spans.map (visiblePiece text.toList))
      ∧ (spans.map (visible text.toList)).flatten
        = bare text.toList ++ closing text.toList text.toList.length
      ∧ ∀ i, i < text.toList.length →
          markAt text.toList i = (Lexer.start.run (text.toList.take (i + 1))).escaped := by
  obtain ⟨spans, hstretches, htokens⟩ := exists_areStretches text.toList
  have hstretch : ∀ span ∈ spans, IsStretch text.toList span.1 span.2 :=
    fun span hspan => (hstretches.mem span.1 span.2).1 hspan
  refine ⟨spans, hstretches, htokens, ?_, ?_, fun i => markAt_eq_escaped⟩
  · have hpieces : spans.map (visiblePiece text.toList) = pieces text := by
      rw [pieces, htokens, List.map_map]
      exact List.map_congr_left fun span hspan => visiblePiece_eq (hstretch span hspan)
    rw [leaves_query field hlimit hne, hpieces]
  · have hvisible : spans.map (visible text.toList)
        = (tokenize text.toList).map Text.unescape := by
      rw [htokens, List.map_map]
      exact List.map_congr_left fun span hspan => (hstretch span hspan).visible_eq
    rw [hvisible, flatten_unescape_tokenize]

/-- Escapes in a word and in a phrase, and a text that ends in a mark outside quotes. -/
theorem leaves_of_visible_end_in_mark :
    operatorsIn "c\\ d OR \"\\e\"g\\" ≤ ({} : Settings).maxOperators.toNat
      ∧ tokenize "c\\ d OR \"\\e\"g\\".toList ≠ []
      ∧ ∃ spans, AreStretches "c\\ d OR \"\\e\"g\\".toList spans
          ∧ (Settings.query {} "f" "c\\ d OR \"\\e\"g\\").leaves
            = leavesOfPieces "f" (spans.map (visiblePiece "c\\ d OR \"\\e\"g\\".toList))
          ∧ leavesOfPieces "f" (spans.map (visiblePiece "c\\ d OR \"\\e\"g\\".toList))
            = [.term "f" "c d", .phrase "f" "e\"g"]
          ∧ (spans.map (visible "c\\ d OR \"\\e\"g\\".toList)).flatten
            = "c dOR\"e\"g".toList := by
  have htokens : tokenize "c\\ d OR \"\\e\"g\\".toList
      = ["c\\ d".toList, "OR".toList, "\"\\e\"g\\".toList] := by decide
  have hlimit : operatorsIn "c\\ d OR \"\\e\"g\\" ≤ ({} : Settings).maxOperators.toNat := by
    rw [operatorsIn, htokens]
    decide
  have hne : tokenize "c\\ d OR \"\\e\"g\\".toList ≠ [] := by
    rw [htokens]
    exact List.cons_ne_nil _ _
  obtain ⟨spans, hstretches, _, hleaves, hflatten, _⟩ := leaves_of_visible {} "f" _ hlimit hne
  refine ⟨hlimit, hne, spans, hstretches, hleaves, ?_, hflatten.trans (by decide)⟩
  rw [← hleaves, leaves_query "f" hlimit hne, pieces, htokens]
  simp [leavesOfPieces, Piece.ofToken, Piece.isWord, kind, Text.dropEnds, Text.unescape]

end Settings
end SearchBox
