import SearchBox.Proofs.Yaml.Plain

/-!
# Values with line feeds are read back

A text with a line feed is written below its key, as a literal block.  The reader keeps the text, the
end of its last line and the empty lines after it apart, since only the mark of the block tells what
becomes of them.  This file shows

* `Lexer.run_literal_chars` — together the three parts are what was written;
* `spells_literal` — with the mark that the writer chooses, the block stands for the text.

The characters are followed with the one before them at hand: it tells whether a line has just begun.
-/

namespace SearchBox
namespace Yaml

variable {c p : Char} {u v t w rest : List Char} {m : Chomping} {b : Block}

/-! ## Blocks in progress -/

/-- A literal block whose characters so far are `read`, newest first, and whose last one is `p`. -/
structure Reads (b : Block) (m : Chomping) (p : Char) (read : List Char) : Prop where
  literal : b.folded = false
  chomping : b.chomping = m
  whole : b.empty ++ b.lineEnd.toList ++ b.text = read
  in_line : b.inLine = !isBreak p
  no_end : isBreak p = false → b.empty = [] ∧ b.lineEnd = none

/-- The lines of a block are known to begin at the second column, or the next character shows it. -/
def ShowsIndent (b : Block) (u : List Char) : Prop :=
  b.indent = some 2
    ∨ b.indent = none ∧ b.deepest = 0 ∧ b.inLine = false
      ∧ ∃ c, u.head? = some c ∧ c ≠ ' ' ∧ isBreak c = false

namespace Reads

variable {read : List Char}

theorem text_eq (h : Reads b m p read) (hp : isBreak p = false) : b.text = read := by
  obtain ⟨hempty, hend⟩ := h.no_end hp
  have hwhole := h.whole
  simpa [hempty, hend] using hwhole

/-- A character that goes on with a line. -/
theorem line_char (h : Reads b m p read) (hp : isBreak p = false) (hc : isBreak c = false) :
    Reads { b with text := c :: b.text } m c (c :: read) where
  literal := h.literal
  chomping := h.chomping
  whole := by
    obtain ⟨hempty, hend⟩ := h.no_end hp
    simp [hempty, hend, h.text_eq hp]
  in_line := by simp [h.in_line, hp, hc]
  no_end _ := h.no_end hp

/-- A break that ends a line. -/
theorem line_break (h : Reads b m p read) (hp : isBreak p = false) (hc : isBreak c = true) :
    Reads { b with lineEnd := some c, inLine := false } m c (c :: read) where
  literal := h.literal
  chomping := h.chomping
  whole := by
    obtain ⟨hempty, _⟩ := h.no_end hp
    simp [hempty, h.text_eq hp]
  in_line := by simp [hc]
  no_end hfalse := by
    rw [hc] at hfalse
    cases hfalse

/-- A break that makes an empty line. -/
theorem empty_line (h : Reads b m p read) (deepest : Nat) (hp : isBreak p = true)
    (hc : isBreak c = true) :
    Reads { b with deepest := deepest, empty := c :: b.empty } m c (c :: read) where
  literal := h.literal
  chomping := h.chomping
  whole := by simp [← h.whole]
  in_line := by simp [h.in_line, hp, hc]
  no_end hfalse := by
    rw [hc] at hfalse
    cases hfalse

/-- A character that begins a line. -/
theorem begin_line (h : Reads b m p read) (column : Nat) (hc : isBreak c = false) :
    Reads (b.beginLine column c) m c (c :: read) where
  literal := h.literal
  chomping := h.chomping
  whole := by simp [Block.beginLine, h.literal, ← h.whole]
  in_line := by simp [Block.beginLine, hc]
  no_end _ := ⟨rfl, rfl⟩

end Reads

namespace Lexer

variable (line column offset : Nat) (emitted : List Lexeme)

/-- A character that goes on with a line of a block. -/
theorem run_block_char (hb : b.inLine = true) (hc : isBreak c = false) (w : List Char) :
    (inEntry line column offset true emitted (.block b)).run (c :: w)
      = (inEntry line (column + 1) (offset + c.utf8Size) true emitted
          (.block { b with text := c :: b.text })).run w := by
  refine run_inEntry hc ?_
  change (inEntry line column offset true emitted (.block b)).readBlock b c w = _
  simp only [readBlock, hb, hc, Bool.false_eq_true, if_false, if_true]
  rfl

/-- A break that ends a line of a block. -/
theorem run_block_break (hb : b.inLine = true) (hc : isBreak c = true) (w : List Char) :
    (inEntry line column offset true emitted (.block b)).run (c :: w)
      = (inEntry (line + 1) 0 0 true emitted
          (.block { b with lineEnd := some c, inLine := false })).run w := by
  have hread : (inEntry line column offset true emitted (.block b)).read c w
      = some (inEntry line column offset true emitted
          (.block { b with lineEnd := some c, inLine := false })) := by
    change (inEntry line column offset true emitted (.block b)).readBlock b c w = _
    simp only [readBlock, hb, hc, if_true]
    rfl
  rw [run_cons_of_read hread, advance_inEntry_break hc]

/-- The indentation of a line is no part of it. -/
theorem run_block_margin (hb : b.inLine = false) (hindent : ShowsIndent b u) (w : List Char) :
    (inEntry line 0 0 true emitted (.block b)).run (indentation ++ w)
      = (inEntry line 2 2 true emitted (.block b)).run w := by
  have hread : ∀ column offset w, column < 2 →
      (inEntry line column offset true emitted (.block b)).read ' ' w
        = some (inEntry line column offset true emitted (.block b)) := by
    intro column offset w hcolumn
    change (inEntry line column offset true emitted (.block b)).readBlock b ' ' w = _
    have houtside : b.indent.all (column < ·) = true := by
      rcases hindent with hsome | ⟨hnone, _⟩
      · simp [hsome, hcolumn]
      · simp [hnone]
    have hcol : (inEntry line column offset true emitted (.block b)).column = column := rfl
    simp [readBlock, readMargin, hb, hcol, houtside]
  calc
    (inEntry line 0 0 true emitted (.block b)).run (' ' :: ' ' :: w)
        = (inEntry line 1 1 true emitted (.block b)).run (' ' :: w) :=
          run_inEntry (by decide) (hread 0 0 _ (by decide))
    _ = (inEntry line 2 2 true emitted (.block b)).run w :=
          run_inEntry (by decide) (hread 1 1 _ (by decide))

/-- A character behind the indentation begins a line. -/
theorem read_block_begin (hb : b.inLine = false) (hc : isBreak c = false) (htab : c ≠ '\t')
    (hindent : ShowsIndent b (c :: u)) (w : List Char) :
    (inEntry line 2 offset true emitted (.block b)).read c w
      = some (inEntry line 2 offset true emitted (.block (b.beginLine 2 c))) := by
  change (inEntry line 2 offset true emitted (.block b)).readBlock b c w = _
  have hcol : (inEntry line 2 offset true emitted (.block b)).column = 2 := rfl
  have hmargin : (inEntry line 2 offset true emitted (.block b)).margin = 1 := rfl
  rcases hindent with hsome | ⟨hnone, hdeepest, _, d, hd, hspace, _⟩
  · simp only [readBlock, readMargin, hb, hc, hsome, hcol]
    simp
    rfl
  · cases hd
    simp only [readBlock, readMargin, hb, hc, hnone, hcol, hdeepest, hmargin]
    simp [hspace, htab]
    rfl

/-- A break where a line could begin makes an empty line. -/
theorem read_block_empty (hb : b.inLine = false) (hc : isBreak c = true) (w : List Char) :
    (inEntry line 0 offset true emitted (.block b)).read c w
      = some (inEntry line 0 offset true emitted
          (.block { b with deepest := max b.deepest 0, empty := c :: b.empty })) := by
  change (inEntry line 0 offset true emitted (.block b)).readBlock b c w = _
  have hspace : c ≠ ' ' := ne_of_class hc (by decide)
  have htab : c ≠ '\t' := ne_of_class hc (by decide)
  have hcol : (inEntry line 0 offset true emitted (.block b)).column = 0 := rfl
  simp only [readBlock, readMargin, hb, hc, hcol]
  simp [hspace, htab]
  rfl

/-- One character of a literal block is read, with the indentation that is written before it. -/
theorem run_literal_char {read : List Char} (hb : Reads b m p read)
    (hindent : ShowsIndent b (c :: v)) (hcolumn : isBreak p = true → column = 0 ∧ offset = 0)
    (hc : isPrintable c = true) (w : List Char) :
    ∃ line' column' offset' b', Reads b' m c (c :: read) ∧ b'.indent = some 2
      ∧ (isBreak c = true → column' = 0 ∧ offset' = 0)
      ∧ (inEntry line column offset true emitted (.block b)).run
          (writeLiteral (isBreak p) (c :: v) ++ w)
        = (inEntry line' column' offset' true emitted (.block b')).run
            (writeLiteral (isBreak c) v ++ w) := by
  cases hp : isBreak p with
  | false =>
      -- A line is being read, so the indentation is known and nothing is written before the character.
      have hline : b.inLine = true := by simp [hb.in_line, hp]
      have hsome : b.indent = some 2 := by
        rcases hindent with hsome | ⟨_, _, hout, _⟩
        · exact hsome
        · rw [hline] at hout
          cases hout
      cases hbreak : isBreak c with
      | true =>
          refine ⟨line + 1, 0, 0, _, hb.line_break hp hbreak, hsome, fun _ => ⟨rfl, rfl⟩, ?_⟩
          simp only [writeLiteral, hbreak, if_true, List.cons_append]
          exact run_block_break line column offset emitted hline hbreak _
      | false =>
          refine ⟨line, column + 1, offset + c.utf8Size, _, hb.line_char hp hbreak, hsome,
            fun hfalse => Bool.noConfusion hfalse, ?_⟩
          simp only [writeLiteral, hbreak, Bool.false_eq_true, if_false, List.nil_append,
            List.cons_append]
          exact run_block_char line column offset emitted hline hbreak _
  | true =>
      have hout : b.inLine = false := by simp [hb.in_line, hp]
      rcases hcolumn hp with ⟨rfl, rfl⟩
      cases hbreak : isBreak c with
      | true =>
          -- An empty line at the beginning is written only if the indentation is marked.
          have hsome : b.indent = some 2 := by
            rcases hindent with hsome | ⟨_, _, _, d, hd, _, hnot⟩
            · exact hsome
            · cases hd
              rw [hbreak] at hnot
              cases hnot
          refine ⟨line + 1, 0, 0, _, hb.empty_line (max b.deepest 0) hp hbreak, hsome, fun _ => ⟨rfl, rfl⟩, ?_⟩
          simp only [writeLiteral, hbreak, if_true, List.cons_append]
          rw [run_cons_of_read (read_block_empty line 0 emitted hout hbreak _),
            advance_inEntry_break hbreak]
      | false =>
          have htab : c ≠ '\t' := ne_of_class hc (by decide)
          refine ⟨line, 3, 2 + c.utf8Size, _, hb.begin_line 2 hbreak, rfl,
            fun hfalse => Bool.noConfusion hfalse, ?_⟩
          simp only [writeLiteral, hbreak, Bool.false_eq_true, if_false, if_true, List.append_assoc,
            List.cons_append]
          rw [run_block_margin line emitted hout hindent]
          exact run_inEntry hbreak (read_block_begin line 2 emitted hout hbreak htab hindent _)

/-- The characters of a literal block are read one after the other, whatever comes after them. -/
theorem run_literal_chars {read : List Char} (u : List Char) (d : Char) (hb : Reads b m p read)
    (hindent : ShowsIndent b (u ++ d :: v))
    (hcolumn : isBreak p = true → column = 0 ∧ offset = 0)
    (hu : ∀ c ∈ u ++ [d], isPrintable c = true) (w : List Char) :
    ∃ line' column' offset' b', Reads b' m d (d :: (u.reverse ++ read)) ∧ b'.indent = some 2
      ∧ (isBreak d = true → column' = 0 ∧ offset' = 0)
      ∧ (inEntry line column offset true emitted (.block b)).run
          (writeLiteral (isBreak p) (u ++ d :: v) ++ w)
        = (inEntry line' column' offset' true emitted (.block b')).run
            (writeLiteral (isBreak d) v ++ w) := by
  induction u generalizing p b read line column offset with
  | nil =>
      exact run_literal_char line column offset emitted hb hindent hcolumn (hu d (by simp)) w
  | cons c u ih =>
      rw [List.cons_append] at hindent
      obtain ⟨line₁, column₁, offset₁, b₁, hb₁, hsome, hcolumn₁, hchar⟩ := run_literal_char line
        column offset emitted hb hindent hcolumn (hu c (by simp)) w
      obtain ⟨line', column', offset', b', hb', hsome', hcolumn', hrest⟩ :=
        ih line₁ column₁ offset₁ hb₁ (Or.inl hsome) hcolumn₁ fun e he => hu e (by simp [he])
      refine ⟨line', column', offset', b', ?_, hsome', hcolumn', ?_⟩
      · simpa using hb'
      · rw [List.cons_append, hchar, hrest]

/-- The next entry ends a block, since it begins to the left of its lines. -/
theorem run_block_end (hb : b.inLine = false) (hindent : b.indent = some 2)
    (hrest : BeginsEntry rest) :
    (inEntry line 0 0 true emitted (.block b)).run rest
      = (lineStart line [0] (.scalar false b.result :: emitted)).run rest := by
  cases rest with
  | nil => rfl
  | cons c rest =>
      have hc : isWordChar c = true := hrest c rfl
      have hspace : c ≠ ' ' := ne_of_class hc (by decide)
      have htab : c ≠ '\t' := ne_of_class hc (by decide)
      have hcol : (inEntry line 0 0 true emitted (.block b)).column = 0 := rfl
      -- The key stands where no line of the block can begin.
      apply run_congr
      change (inEntry line 0 0 true emitted (.block b)).readBlock b c rest = _
      simp only [readBlock, readMargin, hb, isBreak_of_isWordChar hc, hindent, hcol]
      simp [hspace, htab]
      rfl

end Lexer

/-! ## The first line -/

/-- The mark that asks for what becomes of the line ends. -/
def markOf : Chomping → List Char
  | .strip => ['-']
  | .clip => []
  | .keep => ['+']

/-- The block that is read after the first line. -/
def blockFor (t : List Char) (m : Chomping) : Block :=
  { folded := false
    chomping := m
    indent := if indentationMark t = [] then none else some 2 }

theorem indentationMark_eq (t : List Char) : indentationMark t = [] ∨ indentationMark t = ['2'] := by
  unfold indentationMark
  split
  · exact Or.inr rfl
  · exact Or.inl rfl

/-- The first line of a block says how its lines are to be read. -/
theorem Lexer.run_literal_header (line column : Nat) (emitted : List Lexeme) (t : List Char)
    (m : Chomping) (w : List Char) :
    (inEntry line (column + 1) (column + 1) false emitted .between).run
        ('|' :: (indentationMark t ++ (markOf m ++ '\n' :: w)))
      = (inEntry (line + 1) 0 0 true emitted (.block (blockFor t m))).run w := by
  unfold blockFor
  rcases indentationMark_eq t with hmark | hmark
  · rw [hmark]
    cases m with
    | strip => rfl
    | clip => rfl
    | keep => rfl
  · rw [hmark]
    cases m with
    | strip => rfl
    | clip => rfl
    | keep => rfl

/-! ## The line ends at the end -/

namespace Reads

variable {read : List Char}

/-- If all line ends are kept, the block stands for what was read. -/
theorem result_keep (h : Reads b .keep p read) : b.result = read.reverse := by
  simp only [Block.result, h.chomping, h.whole]

/-- If none is kept, the end of the last line is lost. -/
theorem result_strip (h : Reads b .strip p read) (hp : isBreak p = false) (c : Char) :
    Block.result { b with lineEnd := some c, inLine := false } = read.reverse := by
  simp [Block.result, h.chomping, h.text_eq hp]

/-- If the first one is kept, the end of the last line is. -/
theorem result_clip (h : Reads b .clip p read) (hp : isBreak p = false) (c : Char) :
    Block.result { b with lineEnd := some c, inLine := false } = (c :: read).reverse := by
  simp [Block.result, h.chomping, h.text_eq hp]

end Reads

theorem reads_blockFor (t : List Char) (m : Chomping) : Reads (blockFor t m) m '\n' [] where
  literal := rfl
  chomping := rfl
  whole := rfl
  in_line := rfl
  no_end hfalse := Bool.noConfusion hfalse

/-- Where the indentation has no mark, the first character shows it. -/
theorem showsIndent_blockFor (hne : t ≠ []) (m : Chomping) : ShowsIndent (blockFor t m) t := by
  cases t with
  | nil => exact absurd rfl hne
  | cons c u =>
      cases hc : isSpace c || isBreak c with
      | true => exact Or.inl (by simp [blockFor, indentationMark, hc])
      | false =>
          have hboth : c ≠ ' ' ∧ isBreak c = false := by simpa [isSpace] using hc
          exact Or.inr ⟨by simp [blockFor, indentationMark, hc], rfl, rfl, c, rfl, hboth⟩

/-- How a text ends decides what becomes of its line ends. -/
theorem chompingMark_cases (hne : t ≠ []) :
    (∃ u d, t = u ++ [d] ∧ isBreak d = false ∧ chompingMark t = markOf .strip)
      ∨ (∃ u d c, t = u ++ [d, c] ∧ isBreak d = false ∧ isBreak c = true
          ∧ chompingMark t = markOf .clip)
      ∨ (∃ u d, t = u ++ [d] ∧ isBreak d = true ∧ chompingMark t = markOf .keep) := by
  rcases List.eq_nil_or_concat t with rfl | ⟨v, c, rfl⟩
  · exact absurd rfl hne
  · cases hc : isBreak c with
    | false => exact Or.inl ⟨v, c, by simp, hc, by simp [chompingMark, hc, markOf]⟩
    | true =>
        rcases List.eq_nil_or_concat v with rfl | ⟨u, d, rfl⟩
        · exact Or.inr (Or.inr ⟨[], c, rfl, hc, by simp [chompingMark, hc, markOf]⟩)
        · cases hd : isBreak d with
          | false =>
              exact Or.inr (Or.inl ⟨u, d, c, by simp, hd, hc, by simp [chompingMark, hc, hd, markOf]⟩)
          | true =>
              exact Or.inr (Or.inr ⟨u ++ [d], c, by simp, hc, by simp [chompingMark, hc, hd, markOf]⟩)

namespace Lexer

variable (line : Nat) (emitted : List Lexeme)

/-- With the mark that is chosen for it, a block stands for the text it was written for. -/
theorem run_literal (hprint : ∀ c ∈ t, isPrintable c = true) (hne : t ≠ []) (w : List Char) :
    ∃ m line' b', chompingMark t = markOf m ∧ b'.inLine = false ∧ b'.indent = some 2
      ∧ b'.result = t
      ∧ (inEntry line 0 0 true emitted (.block (blockFor t m))).run (writeLiteral true t ++ w)
        = (inEntry line' 0 0 true emitted (.block b')).run w := by
  have hindent := showsIndent_blockFor hne
  rcases chompingMark_cases hne with
    ⟨u, d, rfl, hd, hmark⟩ | ⟨u, d, c, rfl, hd, hc, hmark⟩ | ⟨u, d, rfl, hd, hmark⟩
  · obtain ⟨line', column', offset', b', hb', hsome, _, hrun⟩ := run_literal_chars line 0 0 emitted
      u d (reads_blockFor _ .strip) (hindent .strip) (fun _ => ⟨rfl, rfl⟩) hprint w
    have hline : b'.inLine = true := by simp [hb'.in_line, hd]
    -- The last line has no end, so one is written.
    have hend : writeLiteral (isBreak d) [] = ['\n'] := by simp [writeLiteral, hd]
    refine ⟨.strip, line' + 1, { b' with lineEnd := some '\n', inLine := false }, hmark, rfl, hsome,
      ?_, ?_⟩
    · rw [hb'.result_strip hd]
      simp
    · rw [hend] at hrun
      exact hrun.trans (run_block_break line' column' offset' emitted hline (by decide) w)
  · -- The only line end at the end is that of the last line.
    have hprint' : ∀ e ∈ u ++ [d], isPrintable e = true := by
      intro e he
      apply hprint
      rw [List.append_cons]
      exact List.mem_append_left _ he
    obtain ⟨line', column', offset', b', hb', hsome, _, hrun⟩ := run_literal_chars line 0 0 emitted
      u d (reads_blockFor _ .clip) (hindent .clip) (fun _ => ⟨rfl, rfl⟩) hprint' w
    have hline : b'.inLine = true := by simp [hb'.in_line, hd]
    have hend : writeLiteral (isBreak d) [c] = [c] := by simp [writeLiteral, hc]
    refine ⟨.clip, line' + 1, { b' with lineEnd := some c, inLine := false }, hmark, rfl, hsome,
      ?_, ?_⟩
    · rw [hb'.result_clip hd]
      simp
    · rw [hend] at hrun
      exact hrun.trans (run_block_break line' column' offset' emitted hline hc w)
  · obtain ⟨line', column', offset', b', hb', hsome, hzero, hrun⟩ := run_literal_chars line 0 0
      emitted u d (reads_blockFor _ .keep) (hindent .keep) (fun _ => ⟨rfl, rfl⟩) hprint w
    -- The last line has an end, and perhaps empty lines follow it; all of them are written.
    have hout : b'.inLine = false := by simp [hb'.in_line, hd]
    have hend : writeLiteral (isBreak d) [] = [] := by simp [writeLiteral, hd]
    refine ⟨.keep, line', b', hmark, hout, hsome, ?_, ?_⟩
    · rw [hb'.result_keep]
      simp
    · rw [hend] at hrun
      rcases hzero hd with ⟨rfl, rfl⟩
      exact hrun

end Lexer

/-- A printable text with a line feed is spelled by itself in a literal block. -/
theorem spells_literal (hprint : ∀ c ∈ t, isPrintable c = true) (hne : t ≠ []) :
    Spells ('|' :: indentationMark t ++ chompingMark t ++ '\n' :: writeLiteral true t) false t := by
  intro line column emitted rest hrest
  obtain ⟨m, line', b', hmark, hout, hsome, hresult, hrun⟩ :=
    Lexer.run_literal (line + 1) emitted hprint hne rest
  refine ⟨line', ?_⟩
  calc
    (Lexer.inEntry line (column + 1) (column + 1) false emitted .between).run _
        = (Lexer.inEntry line (column + 1) (column + 1) false emitted .between).run
            ('|' :: (indentationMark t ++ (markOf m ++ '\n' :: (writeLiteral true t ++ rest)))) := by
          rw [hmark]
          simp
    _ = (Lexer.inEntry (line + 1) 0 0 true emitted (.block (blockFor t m))).run
          (writeLiteral true t ++ rest) := Lexer.run_literal_header line column emitted t m _
    _ = (Lexer.inEntry line' 0 0 true emitted (.block b')).run rest := hrun
    _ = (Lexer.lineStart line' [0] (.scalar false t :: emitted)).run rest := by
          rw [Lexer.run_block_end line' emitted hout hsome hrest, hresult]

end Yaml
end SearchBox
