import SearchBox.Proofs.Yaml.Layout
import SearchBox.Yaml.Style

/-!
# Plain values are read back

A value of letters, numbers and most marks is written as it is.  This file shows

* `Folding.joined_add` — a character that is added to a text without a break in its gap is not lost;
* `spells_plain` — a text that is allowed plain is spelled by itself;
* `allowsPlain_of_isOrdinary` — words and numbers are allowed plain.

The proof follows the characters that are left.  A mark is no mark where it stands inside a word, so
what has to be known of the characters before is only the last one.
-/

namespace SearchBox
namespace Yaml

variable {c p : Char} {rest u t : List Char}

/-! ## Texts with a gap -/

namespace Folding

variable {f : Folding}

/-- Adds a character as a quoted text does, where white space is kept apart. -/
def add (f : Folding) (c : Char) : Folding :=
  if isBlank c || isBreak c then f.space c else f.push c

theorem add_of_space (hc : (isBlank c || isBreak c) = true) : f.add c = f.space c := by
  simp only [add, hc, if_true]

theorem add_of_not_space (hblank : isBlank c = false) (hbreak : isBreak c = false) :
    f.add c = f.push c := by
  simp [add, hblank, hbreak]

@[simp] theorem joined_push : (f.push c).joined = c :: f.joined := rfl

/-- A gap without a break holds the blanks as they are. -/
theorem joined_add (hgap : f.gap.hasBreak = false) (hc : isBreak c = false) :
    (f.add c).joined = c :: f.joined := by
  cases hblank : isBlank c with
  | false =>
      rw [add_of_not_space hblank hc, joined_push]
  | true =>
      rw [add_of_space (by simp [hblank])]
      cases hg : f.gap with
      | none => simp [joined, space, Gap.push, Gap.text, hg, hc]
      | blanks bs => simp [joined, space, Gap.push, Gap.text, hg, hc]
      | breaks first later => simp [hg, Gap.hasBreak] at hgap

theorem hasBreak_add (hgap : f.gap.hasBreak = false) (hc : isBreak c = false) :
    (f.add c).gap.hasBreak = false := by
  cases hblank : isBlank c with
  | false =>
      rw [add_of_not_space hblank hc]
      rfl
  | true =>
      rw [add_of_space (by simp [hblank])]
      cases hg : f.gap with
      | none => simp [space, Gap.push, Gap.hasBreak, hg, hc]
      | blanks bs => simp [space, Gap.push, Gap.hasBreak, hg, hc]
      | breaks first later => simp [hg, Gap.hasBreak] at hgap

/-- Only white space opens a gap. -/
theorem isBlank_of_gap_add (hc : isBreak c = false) (hgap : (f.add c).gap ≠ .none) :
    isBlank c = true := by
  cases hblank : isBlank c with
  | true => rfl
  | false =>
      rw [add_of_not_space hblank hc] at hgap
      exact absurd rfl hgap

theorem joined_of_gap_none (hgap : f.gap = .none) : f.joined = f.text := by
  simp [joined, hgap, Gap.text]

end Folding

/-! ## Classes of characters -/

theorem eq_space_of_isBlank (hprint : isPrintable c = true) (hblank : isBlank c = true) :
    c = ' ' := by
  simp only [isBlank, Bool.or_eq_true, beq_iff_eq] at hblank
  rcases hblank with rfl | rfl
  · rfl
  · exact absurd hprint (by decide)

/-! ## Plain texts -/

/-- What a plain text keeps when its first characters are taken away. -/
structure PlainTail (t : List Char) : Prop where
  printable : ∀ c ∈ t, isPrintable c = true
  no_break : ∀ c ∈ t, isBreak c = false
  last : t.getLast?.any isSpace = false
  mark : hasMark t = false

theorem plainTail_of_allowsPlain (h : allowsPlain t = true) : PlainTail t := by
  simp only [allowsPlain, Bool.and_eq_true, Bool.not_eq_true', List.all_eq_true,
    List.any_eq_false] at h
  obtain ⟨⟨⟨⟨⟨hprintable, hbreak⟩, _⟩, hlast⟩, _⟩, hmark⟩ := h
  exact ⟨hprintable, fun c hc => by simpa using hbreak c hc, hlast, hmark⟩

/-- A plain text begins with no mark. -/
theorem plainHead_of_allowsPlain (h : allowsPlain (c :: u) = true) :
    c ≠ ' ' ∧ isIndicator c = false ∧ (endsWord u = true → c ≠ '-' ∧ c ≠ '?' ∧ c ≠ ':') := by
  simp only [allowsPlain, Bool.and_eq_true, Bool.not_eq_true', beginsSpecial,
    Bool.or_eq_false_iff] at h
  obtain ⟨⟨⟨⟨_, hhead⟩, _⟩, hindicator, hspecial⟩, _⟩ := h
  refine ⟨by simpa [isSpace] using hhead, hindicator, fun hends => ?_⟩
  simp only [hends, Bool.and_true, Bool.or_eq_false_iff, beq_eq_false_iff_ne] at hspecial
  exact ⟨hspecial.2, hspecial.1.1, hspecial.1.2⟩

namespace PlainTail

theorem tail (h : PlainTail (p :: c :: u)) : PlainTail (c :: u) where
  printable d hd := h.printable d (List.mem_cons_of_mem p hd)
  no_break d hd := h.no_break d (List.mem_cons_of_mem p hd)
  last := by simpa using h.last
  mark := by
    have hmark := h.mark
    simp only [hasMark, hasPair, List.getLast?_cons_cons, Bool.or_eq_false_iff] at hmark ⊢
    exact ⟨⟨hmark.1.1.2, hmark.1.2.2⟩, hmark.2⟩

/-- No comment begins after a blank. -/
theorem ne_hash (h : PlainTail (p :: c :: u)) (hp : isBlank p = true) : c ≠ '#' := by
  rintro rfl
  have hmark := h.mark
  simp [hasMark, hasPair, hp] at hmark

/-- No value begins after a colon. -/
theorem endsWord_colon (h : PlainTail (':' :: u)) : endsWord u = false := by
  have hmark := h.mark
  cases u with
  | nil => simp [hasMark] at hmark
  | cons c u =>
      simp only [hasMark, hasPair, beq_self_eq_true, Bool.true_and, Bool.or_eq_false_iff] at hmark
      simpa [endsWord] using hmark.1.2.1

end PlainTail

/-- A line feed ends a word like the end of the text does. -/
theorem endsWord_append_newline (u rest : List Char) :
    endsWord (u ++ '\n' :: rest) = endsWord u := by
  cases u with
  | nil => rfl
  | cons c u => rfl

theorem any_isBlank_of_endsWord (h : endsWord u = false) : u.head?.any isBlank = false := by
  cases u with
  | nil => rfl
  | cons c u =>
      simp only [endsWord, Bool.or_eq_false_iff] at h
      simpa using h.1

namespace Lexer

variable {f : Folding} {column : Nat}
variable (line offset : Nat) (emitted : List Lexeme)

/-- A character inside a plain text is added to it. -/
theorem run_plain_char (hcolumn : column ≠ 0) (hgap : f.gap.hasBreak = false)
    (hprev : f.gap ≠ .none → isBlank p = true) (h : PlainTail (p :: c :: u)) (rest : List Char) :
    (inEntry line column offset false emitted (.plain f)).run (c :: (u ++ '\n' :: rest))
      = (inEntry line (column + 1) (offset + c.utf8Size) false emitted (.plain (f.add c))).run
          (u ++ '\n' :: rest) := by
  have hc : isPrintable c = true := h.printable c (by simp)
  have hbreak : isBreak c = false := h.no_break c (by simp)
  refine run_inEntry hbreak ?_
  change (inEntry line column offset false emitted (.plain f)).readPlain f c
    (u ++ '\n' :: rest) = _
  cases hblank : isBlank c with
  | true =>
      have hspace : c = ' ' := eq_space_of_isBlank hc hblank
      have htab : c ≠ '\t' := by rw [hspace]; decide
      rw [Folding.add_of_space (by simp [hblank])]
      simp [inEntry, readPlain, hbreak, hblank, htab]
  | false =>
      -- A colon is a mark only before white space, and a hash only behind it.
      have hcolon : (c == ':' && endsWord (u ++ '\n' :: rest)) = false := by
        rw [endsWord_append_newline]
        cases hc : c == ':' with
        | false => rfl
        | true =>
            rw [beq_iff_eq] at hc
            subst hc
            exact h.tail.endsWord_colon
      have hcomment : (f.gap != .none && c == '#') = false := by
        by_cases hg : f.gap = .none
        · simp [hg]
        · simp [h.ne_hash (hprev hg)]
      have hends : (inEntry line column offset false emitted (.plain f)).plainEnds f c
          (u ++ '\n' :: rest) = false := by
        have hdoc : (inEntry line column offset false emitted (.plain f)).documentMark? c
            (u ++ '\n' :: rest) = none := documentMark?_of_column hcolumn _ _
        simp [plainEnds, hcolon, hcomment, hgap, hdoc]
      rw [Folding.add_of_not_space hblank hbreak]
      simp only [readPlain, hbreak, hblank, isCrowdedColon, inFlow_inEntry, hends,
        Bool.false_and, Bool.false_eq_true, if_false]
      rfl

/-- The characters after the first one of a plain text are added to it one after the other. -/
theorem run_plain_chars (hcolumn : column ≠ 0) (hgap : f.gap.hasBreak = false)
    (hprev : f.gap ≠ .none → isBlank p = true) (h : PlainTail (p :: u)) (rest : List Char) :
    ∃ column' offset', (inEntry line column offset false emitted (.plain f)).run (u ++ '\n' :: rest)
      = (inEntry line column' offset' false emitted (.plain ⟨u.reverse ++ f.joined, .none⟩)).run
          ('\n' :: rest) := by
  induction u generalizing p f column offset with
  | nil =>
      -- The last character is no blank, so no gap is open.
      have hlast : isBlank p = false := by
        cases hblank : isBlank p with
        | false => rfl
        | true =>
            have hspace : p = ' ' := eq_space_of_isBlank (h.printable p (by simp)) hblank
            have hnot := h.last
            simp [hspace, isSpace] at hnot
      have hnone : f.gap = .none := by
        by_cases hg : f.gap = .none
        · exact hg
        · rw [hprev hg] at hlast
          cases hlast
      refine ⟨column, offset, ?_⟩
      have hf : f = ⟨f.joined, .none⟩ := by
        rw [Folding.joined_of_gap_none hnone, ← hnone]
      rw [List.reverse_nil, List.nil_append, List.nil_append, ← hf]
  | cons c u ih =>
      have hbreak : isBreak c = false := h.no_break c (by simp)
      obtain ⟨column', offset', hrest⟩ :=
        ih (offset + c.utf8Size) (Nat.succ_ne_zero column) (Folding.hasBreak_add hgap hbreak)
          (Folding.isBlank_of_gap_add hbreak) h.tail
      refine ⟨column', offset', ?_⟩
      rw [List.cons_append, run_plain_char line offset emitted hcolumn hgap hprev h, hrest,
        Folding.joined_add hgap hbreak, List.reverse_cons, List.append_assoc,
        List.singleton_append]

/-- The end of the line ends a plain text, since the next entry begins to the left of it. -/
theorem run_plain_end (text : List Char) (hrest : BeginsEntry rest) :
    (inEntry line column offset false emitted (.plain ⟨text, .none⟩)).run ('\n' :: rest)
      = (lineStart (line + 1) [0] (.scalar true text.reverse :: emitted)).run rest := by
  have hread : (inEntry line column offset false emitted (.plain ⟨text, .none⟩)).read '\n' rest
      = some (inEntry line column offset false emitted (.plain ⟨text, .breaks (some '\n') []⟩)) :=
    rfl
  rw [run_cons_of_read hread, advance_inEntry_break rfl]
  cases rest with
  | nil => rfl
  | cons c rest =>
      have hc : isWordChar c = true := hrest c rfl
      -- The key begins left of the margin, so the text ends before it.
      apply run_congr
      change (inEntry (line + 1) 0 0 false emitted (.plain ⟨text, .breaks (some '\n') []⟩)).readPlain
        ⟨text, .breaks (some '\n') []⟩ c rest = _
      have hends : (inEntry (line + 1) 0 0 false emitted
          (.plain ⟨text, .breaks (some '\n') []⟩)).plainEnds
            ⟨text, .breaks (some '\n') []⟩ c rest = true := by
        simp [plainEnds, Gap.hasBreak, margin, inEntry, inFlow]
      simp only [readPlain, isBreak_of_isWordChar hc, isBlank_of_isWordChar hc, isCrowdedColon,
        inFlow_inEntry, hends, Bool.false_and, Bool.false_eq_true, if_false, if_true]
      rfl

/-- The first character of a plain text begins a scalar. -/
theorem run_plain_first (h : allowsPlain (c :: u) = true) (rest : List Char) :
    (inEntry line (column + 1) offset false emitted .between).run (c :: (u ++ '\n' :: rest))
      = (inEntry line (column + 2) (offset + c.utf8Size) false emitted (.plain ⟨[c], .none⟩)).run
          (u ++ '\n' :: rest) := by
  have hc : isPrintable c = true := (plainTail_of_allowsPlain h).printable c (by simp)
  have hbreak : isBreak c = false := (plainTail_of_allowsPlain h).no_break c (by simp)
  obtain ⟨hspace, hindicator, halone⟩ := plainHead_of_allowsPlain h
  have hblank : isBlank c = false := by
    simp [isBlank, hspace, ne_of_class hc (d := '\t') (by decide)]
  have hne : ∀ d, isIndicator d = true → c ≠ d := fun d hd => (ne_of_class hd hindicator).symm
  have hflow : isFlowIndicator c = false := by
    cases hflow : isFlowIndicator c with
    | false => rfl
    | true => simp [isIndicator, hflow] at hindicator
  have hword : endsWord (u ++ '\n' :: rest) = true → c ≠ '-' ∧ c ≠ '?' ∧ c ≠ ':' := by
    rw [endsWord_append_newline]
    exact halone
  -- What follows matters only as to whether the first character stands alone.
  generalize u ++ '\n' :: rest = w at hword ⊢
  let start : Lexer := inEntry line (column + 1) offset false emitted .between
  have hplain : start.beginsPlain c w = true := by
    cases hends : endsWord w with
    | true =>
        have hmarks := hword hends
        simp [beginsPlain, hmarks, hindicator, hblank, hbreak]
    | false =>
        have hhead : w.head?.any isBlank = false := any_isBlank_of_endsWord hends
        simp [beginsPlain, hends, hhead, hindicator, hblank, hbreak, start]
  have hmark : start.readMark c w
      = start.readScalar (.plain ⟨[c], .none⟩) := by
    have hdoc : start.documentMark? c w = none :=
      documentMark?_of_column (Nat.succ_ne_zero column) _ _
    rw [readMark_of_not_flow hdoc hflow (hne '\'' (by decide)) (hne '"' (by decide))]
    cases hends : endsWord w with
    | true =>
        have hmarks := hword hends
        simp [hmarks, hne '|' (by decide), hne '>' (by decide), hplain]
    | false =>
        simp [hne '|' (by decide), hne '>' (by decide), hplain, start]
  have hread : start.read c w
      = some (inEntry line (column + 1) offset false emitted (.plain ⟨[c], .none⟩)) := by
    calc
      start.read c w = start.readMark c w :=
        readBetween_of_mark hspace (ne_of_class hc (by decide))
          (ne_of_class hc (by decide)) (hne '#' (by decide)) hbreak rfl rfl
      _ = start.readScalar (.plain ⟨[c], .none⟩) := hmark
      _ = some (inEntry line (column + 1) offset false emitted (.plain ⟨[c], .none⟩)) := rfl
  exact run_inEntry hbreak hread

end Lexer

/-- A plain text that is not empty is spelled by itself. -/
theorem spells_plain (hne : t ≠ []) (h : allowsPlain t = true) : Spells (t ++ ['\n']) true t := by
  intro line column emitted rest hrest
  cases t with
  | nil => exact absurd rfl hne
  | cons c u =>
      obtain ⟨column', offset', hchars⟩ := Lexer.run_plain_chars line
        (column + 1 + c.utf8Size) emitted (f := ⟨[c], .none⟩) (Nat.succ_ne_zero (column + 1)) rfl
        (fun hg => absurd rfl hg) (plainTail_of_allowsPlain h) rest
      refine ⟨line + 1, ?_⟩
      rw [List.append_assoc, List.cons_append, List.singleton_append,
        Lexer.run_plain_first line (column + 1) emitted h, hchars,
        Lexer.run_plain_end line offset' emitted _ hrest]
      simp [Folding.joined, Gap.text]

/-! ## Words and numbers -/

theorem hasPair_of_left {p q : Char → Bool} (ht : ∀ c ∈ t, p c = false) : hasPair p q t = false := by
  induction t with
  | nil => rfl
  | cons c t ih =>
      have hrest : hasPair p q t = false := ih fun d hd => ht d (by simp [hd])
      cases t with
      | nil => rfl
      | cons d t => simp [hasPair, ht c (by simp), hrest]

theorem isPrintable_of_isWordChar (hc : isWordChar c = true) : isPrintable c = true := by
  have hrange := toNat_of_isWordChar hc
  simp [isPrintable, hrange]

/-- A character that has no meaning of its own anywhere in a plain scalar. -/
structure IsOrdinary (c : Char) : Prop where
  printable : isPrintable c = true
  not_blank : isBlank c = false
  not_break : isBreak c = false
  not_indicator : isIndicator c = false
  ne_colon : c ≠ ':'
  ne_question : c ≠ '?'
  ne_dash : c ≠ '-'

theorem isOrdinary_of_isWordChar (hc : isWordChar c = true) : IsOrdinary c where
  printable := isPrintable_of_isWordChar hc
  not_blank := isBlank_of_isWordChar hc
  not_break := isBreak_of_isWordChar hc
  not_indicator := isIndicator_of_isWordChar hc
  ne_colon := ne_of_class hc (by decide)
  ne_question := ne_of_class hc (by decide)
  ne_dash := ne_of_class hc (by decide)

/-- A plus sign is ordinary, although it is no part of a word. -/
theorem isOrdinary_plus : IsOrdinary '+' := by
  constructor <;> decide

/-- A text of ordinary characters is allowed plain. -/
theorem allowsPlain_of_isOrdinary (ht : ∀ c ∈ t, IsOrdinary c) : allowsPlain t = true := by
  have hprintable : t.all isPrintable = true :=
    List.all_eq_true.mpr fun c hc => (ht c hc).printable
  have hbreak : t.any isBreak = false :=
    List.any_eq_false.mpr fun c hc => by simp [(ht c hc).not_break]
  have hspace : ∀ c ∈ t, isSpace c = false := fun c hc => by
    simpa [isSpace] using ne_of_class (p := fun c => !isBlank c) (d := ' ')
      (by simp [(ht c hc).not_blank]) (by decide)
  have hhead : t.head?.any isSpace = false := by
    cases hfirst : t.head? with
    | none => rfl
    | some c => exact hspace c (List.mem_of_head? hfirst)
  have hlast : t.getLast?.any isSpace = false := by
    cases hend : t.getLast? with
    | none => rfl
    | some c => exact hspace c (List.mem_of_getLast? hend)
  have hspecial : beginsSpecial t = false := by
    cases t with
    | nil => rfl
    | cons c t =>
        have hc : IsOrdinary c := ht c (by simp)
        simp [beginsSpecial, hc.not_indicator, hc.ne_question, hc.ne_colon, hc.ne_dash]
  have hmark : hasMark t = false := by
    have hcomment : hasPair isBlank (· == '#') t = false :=
      hasPair_of_left fun c hc => (ht c hc).not_blank
    have hcolon : ∀ c ∈ t, (c == ':') = false := fun c hc => by
      simpa using (ht c hc).ne_colon
    have hvalue : hasPair (· == ':') (fun c => isBlank c || isBreak c) t = false :=
      hasPair_of_left hcolon
    have hend : t.getLast? ≠ some ':' := fun hend =>
      absurd (hcolon ':' (List.mem_of_getLast? hend)) (by decide)
    simp [hasMark, hcomment, hvalue, hend]
  simp [allowsPlain, hprintable, hbreak, hhead, hlast, hspecial, hmark]

/-! ## Entries with a plain value -/

/-- The entry of a plain scalar. -/
def Entry.plain (key text : List Char) : Entry where
  key := key
  written := text ++ ['\n']
  isPlain := true
  text := text

/-- A word and ordinary characters make an entry. -/
theorem Entry.legible_plain {key text : List Char} (hne : key ≠ [])
    (hkey : ∀ c ∈ key, isWordChar c = true) (hlength : key.length ≤ maxKeyLength)
    (htext : text ≠ []) (hordinary : ∀ c ∈ text, IsOrdinary c) : (Entry.plain key text).Legible where
  key_ne := hne
  key_char := hkey
  key_length := hlength
  spells := spells_plain htext (allowsPlain_of_isOrdinary hordinary)

/-- A line of ordinary characters is printable. -/
theorem isPrintable_of_mem_line (ht : ∀ c ∈ t, IsOrdinary c) (hc : c ∈ t ++ ['\n']) :
    isPrintable c = true := by
  rcases List.mem_append.mp hc with hc | hc
  · exact (ht c hc).printable
  · rw [List.mem_singleton.mp hc]
    decide

end Yaml
end SearchBox
