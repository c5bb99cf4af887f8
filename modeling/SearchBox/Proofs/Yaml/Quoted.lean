import Mathlib.Algebra.Group.Nat.Defs
import SearchBox.Proofs.Yaml.Plain

/-!
# Quoted values are read back

* `spells_single` — a text that is allowed in single quotes and has no line feed in it;
* `spells_double` — any text, in double quotes.

Between single quotes the two Unicode separators break a line, and the writer indents what follows
them.  `GapAfter` says which gap the reader has open then.  Between double quotes every break is
escaped, and the reader never leaves the line of the key.
-/

namespace SearchBox
namespace Yaml

variable {c p : Char} {u t w rest : List Char}

/-! ## Gaps with breaks -/

/-- Which gap is open behind a character that was read between single quotes. -/
def GapAfter (p : Char) : Gap → Prop
  | .none => isBreak p = false
  | .blanks _ => isBreak p = false ∧ p = ' '
  | .breaks first _ => isBreak p = true ∧ ∃ b, first = some b ∧ b ≠ '\n'

namespace Folding

variable {f : Folding}

/-- Breaks are kept if the first one is no line feed. -/
theorem text_breaks_of_ne {b : Char} (hb : b ≠ '\n') (later : List Char) :
    (Gap.breaks (some b) later).text = b :: later.reverse := by
  simp [Gap.text, hb]

/-- A break is kept if no blanks come before it and it is no line feed. -/
theorem joined_add_break (hgap : GapAfter p f.gap) (hp : p ≠ ' ') (hc : isBreak c = true)
    (hne : c ≠ '\n') : (f.add c).joined = c :: f.joined ∧ GapAfter c (f.add c).gap := by
  rw [add_of_space (by simp [hc])]
  cases hg : f.gap with
  | none =>
      have hnone : Gap.none.text = [] := rfl
      refine ⟨?_, ?_⟩
      · simp [joined, space, Gap.push, hg, hc, hnone, text_breaks_of_ne hne]
      · simp [space, Gap.push, hg, hc, GapAfter, hne]
  | blanks bs =>
      rw [hg] at hgap
      exact absurd hgap.2 hp
  | breaks first later =>
      rw [hg] at hgap
      rcases hgap with ⟨_, b, rfl, hb⟩
      refine ⟨?_, ?_⟩
      · simp [joined, space, Gap.push, hg, hc, text_breaks_of_ne hb]
      · simp [space, Gap.push, hg, hc, GapAfter, hb]

/-- Any other character is kept if it is no space behind a break. -/
theorem joined_add_text (hgap : GapAfter p f.gap) (hc : isBreak c = false)
    (hblank : isBlank c = true → c = ' ') (hp : isBreak p = true → c ≠ ' ') :
    (f.add c).joined = c :: f.joined ∧ GapAfter c (f.add c).gap := by
  cases hb : isBlank c with
  | false =>
      rw [add_of_not_space hb hc]
      exact ⟨rfl, hc⟩
  | true =>
      have hspace := hblank hb
      cases hg : f.gap with
      | none =>
          refine ⟨joined_add (by simp [hg, Gap.hasBreak]) hc, ?_⟩
          rw [add_of_space (by simp [hb])]
          simpa [space, Gap.push, hg, hc, GapAfter] using hspace
      | blanks bs =>
          refine ⟨joined_add (by simp [hg, Gap.hasBreak]) hc, ?_⟩
          rw [add_of_space (by simp [hb])]
          simpa [space, Gap.push, hg, hc, GapAfter] using hspace
      | breaks first later =>
          rw [hg] at hgap
          exact absurd hspace (hp hgap.1)

end Folding

/-! ## Single quotes -/

/-- What a text in single quotes keeps when its first characters are taken away. -/
structure SingleTail (t : List Char) : Prop where
  printable : ∀ c ∈ t, isPrintable c = true
  no_newline : '\n' ∉ t
  before_break : hasPair isSpace isBreak t = false
  after_break : hasPair isBreak isSpace t = false

namespace SingleTail

theorem tail (h : SingleTail (p :: c :: u)) : SingleTail (c :: u) where
  printable d hd := h.printable d (List.mem_cons_of_mem p hd)
  no_newline hn := h.no_newline (List.mem_cons_of_mem p hn)
  before_break := by
    have hpair := h.before_break
    simp only [hasPair, Bool.or_eq_false_iff] at hpair
    exact hpair.2
  after_break := by
    have hpair := h.after_break
    simp only [hasPair, Bool.or_eq_false_iff] at hpair
    exact hpair.2

theorem ne_space_before (h : SingleTail (p :: c :: u)) (hc : isBreak c = true) : p ≠ ' ' := by
  rintro rfl
  have hpair := h.before_break
  simp [hasPair, isSpace, hc] at hpair

theorem ne_space_after (h : SingleTail (p :: c :: u)) (hp : isBreak p = true) : c ≠ ' ' := by
  rintro rfl
  have hpair := h.after_break
  simp [hasPair, isSpace, hp] at hpair

theorem ne_newline (h : SingleTail (p :: u)) : p ≠ '\n' := by
  rintro rfl
  exact h.no_newline (by simp)

end SingleTail

namespace Lexer

variable {f : Folding} {column : Nat}
variable (line offset : Nat) (emitted : List Lexeme)

/-- A character between single quotes that is no quote. -/
theorem read_single (hquote : c ≠ '\'') (hcolumn : column ≠ 0 ∨ (c ≠ '-' ∧ c ≠ '.'))
    (w : List Char) :
    (inEntry line column offset false emitted (.single f false)).read c w
      = some (inEntry line column offset false emitted (.single (f.add c) false)) := by
  have hdoc : (inEntry line column offset false emitted (.single f false)).documentMark? c w
      = none := by
    rcases hcolumn with hcolumn | ⟨hdash, hdot⟩
    · exact documentMark?_of_column hcolumn c w
    · exact documentMark?_of_ne hdash hdot w
  change (inEntry line column offset false emitted (.single f false)).readSingle f false c w = _
  have hsame : (c == '\'') = false := by simpa using hquote
  cases hspace : isBlank c || isBreak c with
  | true =>
      rw [Folding.add_of_space hspace]
      simp only [readSingle, hdoc, hsame, hspace, Option.isSome_none, Bool.false_eq_true, if_false,
        if_true]
      rfl
  | false =>
      have hadd : f.add c = f.push c := by simp [Folding.add, hspace]
      rw [hadd]
      simp only [readSingle, hdoc, hsame, hspace, Option.isSome_none, Bool.false_eq_true, if_false]
      rfl

/-- The indentation of a line is no part of the text. -/
theorem run_single_margin (hgap : GapAfter p f.gap) (hcolumn : isBreak p = false → column ≠ 0)
    (w : List Char) :
    ∃ column' offset', column' ≠ 0
      ∧ (inEntry line column offset false emitted (.single f false)).run
          ((if isBreak p then indentation else []) ++ w)
        = (inEntry line column' offset' false emitted (.single f false)).run w := by
  cases hp : isBreak p with
  | false => exact ⟨column, offset, hcolumn hp, rfl⟩
  | true =>
      have hadd : f.add ' ' = f := by
        cases hg : f.gap with
        | none => simp [hg, GapAfter, hp] at hgap
        | blanks bs => simp [hg, GapAfter, hp] at hgap
        | breaks first later =>
            rw [Folding.add_of_space (by decide)]
            cases f
            simp only at hg
            subst hg
            rfl
      have hspace : ∀ column offset w,
          (inEntry line column offset false emitted (.single f false)).run (' ' :: w)
            = (inEntry line (column + 1) (offset + 1) false emitted (.single f false)).run w := by
        intro column offset w
        have hread : (inEntry line column offset false emitted (.single f false)).read ' ' w
            = some (inEntry line column offset false emitted (.single (f.add ' ') false)) :=
          read_single line offset emitted (by decide) (Or.inr ⟨by decide, by decide⟩) w
        rw [hadd] at hread
        exact run_inEntry (by decide) hread
      refine ⟨column + 2, offset + 2, Nat.succ_ne_zero _, ?_⟩
      simp only [if_true, indentation, List.cons_append, List.nil_append, hspace]

/-- A character that is no break is added to the text; a quote is written twice. -/
theorem run_single_char (hc : isBreak c = false) (hcolumn : column ≠ 0) (w : List Char) :
    ∃ column' offset', column' ≠ 0
      ∧ (inEntry line column offset false emitted (.single f false)).run
          ((if c == '\'' then ['\'', '\''] else [c]) ++ w)
        = (inEntry line column' offset' false emitted (.single (f.add c) false)).run w := by
  by_cases hquote : c = '\''
  · subst hquote
    refine ⟨column + 2, offset + 2, Nat.succ_ne_zero _, ?_⟩
    have hdoc : (inEntry line column offset false emitted (.single f false)).documentMark? '\''
        ('\'' :: w) = none := documentMark?_of_column hcolumn _ _
    have hfirst : (inEntry line column offset false emitted (.single f false)).read '\'' ('\'' :: w)
        = some (inEntry line column offset false emitted (.single f true)) := by
      change (inEntry line column offset false emitted (.single f false)).readSingle f false _ _ = _
      simp only [readSingle, hdoc, Option.isSome_none, Bool.false_eq_true, if_false]
      rfl
    calc
      (inEntry line column offset false emitted (.single f false)).run ('\'' :: '\'' :: w)
          = (inEntry line (column + 1) (offset + 1) false emitted (.single f true)).run
              ('\'' :: w) := run_inEntry (by decide) hfirst
      _ = (inEntry line (column + 2) (offset + 2) false emitted (.single (f.add '\'') false)).run
            w := run_inEntry (by decide) rfl
  · have hsame : (c == '\'') = false := by simpa using hquote
    refine ⟨column + 1, offset + c.utf8Size, Nat.succ_ne_zero _, ?_⟩
    simp only [hsame, Bool.false_eq_true, if_false]
    exact run_inEntry hc (read_single line offset emitted hquote (Or.inl hcolumn) w)

/-- The characters between single quotes are added to the text one after the other. -/
theorem run_single_chars (h : SingleTail (p :: u)) (hgap : GapAfter p f.gap)
    (hcolumn : isBreak p = false → column ≠ 0) (w : List Char) :
    ∃ line' column' offset' g, g.joined = u.reverse ++ f.joined ∧ column' ≠ 0
      ∧ (inEntry line column offset false emitted (.single f false)).run
          (writeSingle (isBreak p) u ++ w)
        = (inEntry line' column' offset' false emitted (.single g false)).run w := by
  induction u generalizing p f line column offset with
  | nil =>
      obtain ⟨column', offset', hne, hrun⟩ := run_single_margin line offset emitted hgap hcolumn w
      exact ⟨line, column', offset', f, rfl, hne, hrun⟩
  | cons c u ih =>
      cases hc : isBreak c with
      | true =>
          -- A break is no line feed and follows no space, so nothing is folded or lost.
          have hnewline : c ≠ '\n' := h.tail.ne_newline
          have hquote : c ≠ '\'' := ne_of_class hc (by decide)
          obtain ⟨hjoined, hgap'⟩ :=
            Folding.joined_add_break hgap (h.ne_space_before hc) hc hnewline
          obtain ⟨line', column', offset', g, hg, hne, hrun⟩ :=
            ih (line + 1) 0 h.tail hgap' fun hfalse =>
              (by simp [hc] at hfalse : (0 : Nat) ≠ 0)
          refine ⟨line', column', offset', g, ?_, hne, ?_⟩
          · rw [hg, hjoined, List.reverse_cons, List.append_assoc, List.singleton_append]
          · have hread : (inEntry line column offset false emitted (.single f false)).read c
                (writeSingle (isBreak c) u ++ w)
                = some (inEntry line column offset false emitted (.single (f.add c) false)) :=
              read_single line offset emitted hquote
                (Or.inr ⟨ne_of_class hc (by decide), ne_of_class hc (by decide)⟩) _
            rw [hc] at hrun hread
            simp only [writeSingle, hc, if_true, List.cons_append]
            rw [run_cons_of_read hread, advance_inEntry_break hc, hrun]
      | false =>
          -- Where a line has just begun, the indentation comes first.
          have hblank : isBlank c = true → c = ' ' :=
            eq_space_of_isBlank (h.printable c (by simp))
          obtain ⟨hjoined, hgap'⟩ := Folding.joined_add_text hgap hc hblank h.ne_space_after
          obtain ⟨column₁, offset₁, hne₁, hmargin⟩ := run_single_margin line offset emitted hgap
            hcolumn ((if c == '\'' then ['\'', '\''] else [c]) ++ (writeSingle false u ++ w))
          obtain ⟨column₂, offset₂, hne₂, hchar⟩ :=
            run_single_char (f := f) line offset₁ emitted hc hne₁ (writeSingle false u ++ w)
          obtain ⟨line', column', offset', g, hg, hne, hrun⟩ :=
            ih line offset₂ h.tail hgap' (fun _ => hne₂)
          refine ⟨line', column', offset', g, ?_, hne, ?_⟩
          · rw [hg, hjoined, List.reverse_cons, List.append_assoc, List.singleton_append]
          · rw [hc] at hrun
            simp only [writeSingle, hc, Bool.false_eq_true, if_false, List.append_assoc]
            rw [hmargin, hchar, hrun]

/-- The closing quote and the end of the line end a text in single quotes. -/
theorem run_single_end (hcolumn : column ≠ 0) (rest : List Char) :
    (inEntry line column offset false emitted (.single f false)).run ('\'' :: '\n' :: rest)
      = (lineStart (line + 1) [0] (.scalar false f.joined.reverse :: emitted)).run rest := by
  have hquote : (inEntry line column offset false emitted (.single f false)).read '\''
      ('\n' :: rest) = some (inEntry line column offset false emitted (.single f true)) := by
    have hdoc : (inEntry line column offset false emitted (.single f false)).documentMark? '\''
        ('\n' :: rest) = none := documentMark?_of_column hcolumn _ _
    change (inEntry line column offset false emitted (.single f false)).readSingle f false _ _ = _
    simp only [readSingle, hdoc, Option.isSome_none, Bool.false_eq_true, if_false]
    rfl
  -- The text ends before the line feed, which is read like one between lexemes.
  have hend : (inEntry line (column + 1) (offset + 1) false emitted (.single f true)).read '\n' rest
      = (inEntry line (column + 1) (offset + 1) false
          (.scalar false f.joined.reverse :: emitted) .between).read '\n' rest := rfl
  calc
    (inEntry line column offset false emitted (.single f false)).run ('\'' :: '\n' :: rest)
        = (inEntry line (column + 1) (offset + 1) false emitted (.single f true)).run
            ('\n' :: rest) := run_inEntry (by decide) hquote
    _ = (lineStart (line + 1) [0] (.scalar false f.joined.reverse :: emitted)).run rest := by
          rw [run_congr hend, run_line_end]

end Lexer

/-- A text without line feeds that is allowed in single quotes is spelled by itself in them. -/
theorem spells_single (hnewline : '\n' ∉ t) (h : allowsSingle t = true) :
    Spells ('\'' :: writeSingle false t ++ ['\'', '\n']) false t := by
  intro line column emitted rest _
  simp only [allowsSingle, Bool.and_eq_true, Bool.not_eq_true', List.all_eq_true] at h
  -- The opening quote takes the part of the character before the text.
  have htail : SingleTail ('\'' :: t) := by
    refine ⟨?_, ?_, ?_, ?_⟩
    · intro c hc
      rcases List.mem_cons.mp hc with rfl | hc
      · decide
      · exact h.1.1 c hc
    · simpa using hnewline
    · cases t with
      | nil => rfl
      | cons c u => simpa [hasPair, isSpace] using h.1.2
    · cases t with
      | nil => rfl
      | cons c u => simpa [hasPair, isBreak, nextLine, lineSeparator, paragraphSeparator] using h.2
  obtain ⟨line', column', offset', g, hg, hne, hrun⟩ := Lexer.run_single_chars (f := {}) line
    (column + 2) emitted htail
    (rfl : isBreak '\'' = false)
    (fun _ => Nat.succ_ne_zero (column + 1)) ('\'' :: '\n' :: rest)
  refine ⟨line' + 1, ?_⟩
  -- The opening quote is read between lexemes and begins a scalar with nothing in it.
  have hfirst : (Lexer.inEntry line (column + 1) (column + 1) false emitted .between).run
      ('\'' :: (writeSingle false t ++ '\'' :: '\n' :: rest))
      = (Lexer.inEntry line (column + 2) (column + 2) false emitted (.single {} false)).run
          (writeSingle false t ++ '\'' :: '\n' :: rest) := Lexer.run_inEntry (by decide) rfl
  have htext : g.joined.reverse = t := by
    rw [hg]
    simp [Folding.joined, Gap.text]
  simp only [List.cons_append, List.append_assoc, List.nil_append]
  rw [hfirst]
  exact hrun.trans (by rw [Lexer.run_single_end line' offset' emitted hne rest, htext])

/-! ## Double quotes -/

theorem of_ite_eq_some {b : Bool} {x y : Char} {o : Option Char}
    (h : (if b then some x else o) = some y) : b = true ∧ x = y ∨ o = some y := by
  cases b with
  | true => exact Or.inl ⟨rfl, Option.some.inj h⟩
  | false => exact Or.inr h

/-- The letter after a backslash stands for the character it was written for, and no digits follow
it. -/
theorem unescapeLetter_of_escapeLetter {letter : Char} (h : escapeLetter c = some letter) :
    unescapeLetter letter = some c ∧ escapeWidth letter = none ∧ isBreak letter = false
      ∧ isPrintable letter = true := by
  unfold escapeLetter at h
  -- One case for each letter, in the order of the table.
  iterate 14
    rcases of_ite_eq_some h with ⟨hc, rfl⟩ | h
    · rw [eq_of_beq hc]
      decide
  cases h

/-- A character without a letter of its own is no quote, no backslash and no break. -/
theorem of_escapeLetter_eq_none (h : escapeLetter c = none) :
    c ≠ '"' ∧ c ≠ '\\' ∧ isBreak c = false := by
  have hne : ∀ d, escapeLetter d ≠ none → c ≠ d := by
    rintro d hd rfl
    exact hd h
  refine ⟨hne '"' (by decide), hne '\\' (by decide), ?_⟩
  simp [isBreak, hne '\n' (by decide), hne '\r' (by decide), hne nextLine (by decide),
    hne lineSeparator (by decide), hne paragraphSeparator (by decide)]

/-- An upper-case digit has the value it was written for. -/
theorem hexValue_toUpper_digitChar {n : Nat} (h : n < 16) :
    Text.hexValue (Nat.digitChar n).toUpper = some n
      ∧ isBreak (Nat.digitChar n).toUpper = false
      ∧ isPrintable (Nat.digitChar n).toUpper = true := by
  have all : ∀ m : Fin 16, Text.hexValue (Nat.digitChar m).toUpper = some m.val
      ∧ isBreak (Nat.digitChar m).toUpper = false
      ∧ isPrintable (Nat.digitChar m).toUpper = true := by decide
  exact all ⟨n, h⟩

/-- A character that is neither printable nor has a letter is written with the least width that can
hold its code point. -/
theorem writeDoubleChar_eq_writeCode (hletter : escapeLetter c = none)
    (hprint : isPrintable c = false) :
    ∃ letter width, writeDoubleChar c = writeCode letter (width + 1) c.toNat
      ∧ escapeWidth letter = some (width + 1) ∧ isBreak letter = false
      ∧ c.toNat < 16 ^ (width + 1) := by
  by_cases hbyte : c.toNat ≤ 0xFF
  · refine ⟨'x', 1, ?_, rfl, by decide, Nat.lt_succ_of_le hbyte⟩
    simp [writeDoubleChar, hletter, hprint, hbyte]
  · by_cases hplane : c.toNat ≤ 0xFFFF
    · refine ⟨'u', 3, ?_, rfl, by decide, Nat.lt_succ_of_le hplane⟩
      simp [writeDoubleChar, hletter, hprint, hbyte, hplane]
    · refine ⟨'U', 7, ?_, rfl, by decide, ?_⟩
      · simp [writeDoubleChar, hletter, hprint, hbyte, hplane]
      · exact Nat.lt_of_lt_of_le c.val.toNat_lt (by decide)

theorem charOfCode_toNat (c : Char) : charOfCode c.toNat = some c := by
  have hvalid : c.toNat.isValidChar := c.valid
  simp [charOfCode, hvalid]

namespace Lexer

variable {f : Folding} {column : Nat}
variable (line offset : Nat) (emitted : List Lexeme)

/-- Away from the beginning of a line a character between double quotes does what it does to the
escape. -/
theorem run_double {e : Escape} {g : Folding} {e' : Escape} (hcolumn : column ≠ 0)
    (hbreak : isBreak c = false) (hquote : e = .none → c ≠ '"')
    (h : readEscaped f e c = some (g, e')) (w : List Char) :
    (inEntry line column offset false emitted (.double f e)).run (c :: w)
      = (inEntry line (column + 1) (offset + c.utf8Size) false emitted (.double g e')).run w := by
  have hdoc : (inEntry line column offset false emitted (.double f e)).documentMark? c w = none :=
    documentMark?_of_column hcolumn c w
  have hopen : (e == .none && c == '"') = false := by
    cases e with
    | none => simpa using hquote rfl
    | backslash => rfl
    | digits left code => rfl
  refine run_inEntry hbreak ?_
  change (inEntry line column offset false emitted (.double f e)).readDouble f e c w = _
  simp only [readDouble, hopen, hdoc, h, Option.isSome_none, Bool.false_eq_true, if_false]
  rfl

theorem run_backslash (hcolumn : column ≠ 0) (w : List Char) :
    (inEntry line column offset false emitted (.double f .none)).run ('\\' :: w)
      = (inEntry line (column + 1) (offset + 1) false emitted (.double f .backslash)).run w := by
  have hread : readEscaped f .none '\\' = some (f, .backslash) := rfl
  exact run_double line offset emitted hcolumn (by decide) (fun _ => by decide) hread w

/-- All digits of a code but the last `left` are taken into account. -/
theorem run_digits (width n code left : Nat) (hn : n < 16 ^ width) (hcolumn : column ≠ 0)
    (w : List Char) :
    ∃ column' offset', column' ≠ 0
      ∧ (inEntry line column offset false emitted
          (.double f (.digits (width + left + 1) code))).run
            ((Text.hexDigits width n).map Char.toUpper ++ w)
        = (inEntry line column' offset' false emitted
            (.double f (.digits (left + 1) (code * 16 ^ width + n)))).run w := by
  induction width generalizing n left w with
  | zero =>
      have hzero : n = 0 := by simpa using hn
      refine ⟨column, offset, hcolumn, ?_⟩
      simp [Text.hexDigits, hzero]
  | succ width ih =>
      -- The digits grow at their end, so the last one is read after those of `n / 16`.
      have hdigit : n % 16 < 16 := Nat.mod_lt n (by decide)
      have hn' : n / 16 < 16 ^ width := by
        rw [Nat.pow_succ] at hn
        exact Nat.div_lt_of_lt_mul (by rwa [Nat.mul_comm] at hn)
      have hcode : (code * 16 ^ width + n / 16) * 16 + n % 16 = code * 16 ^ (width + 1) + n := by
        calc
          (code * 16 ^ width + n / 16) * 16 + n % 16
              = code * 16 ^ (width + 1) + (n / 16 * 16 + n % 16) := by
                rw [Nat.add_mul, Nat.mul_assoc, ← Nat.pow_succ, Nat.add_assoc]
          _ = code * 16 ^ (width + 1) + n := by rw [Nat.div_add_mod']
      obtain ⟨hvalue, hbreak, _⟩ := hexValue_toUpper_digitChar hdigit
      obtain ⟨column', offset', hne, hrun⟩ :=
        ih (n / 16) (left + 1) hn' ((Nat.digitChar (n % 16)).toUpper :: w)
      have hread : readEscaped f (.digits (left + 1 + 1) (code * 16 ^ width + n / 16))
          (Nat.digitChar (n % 16)).toUpper
          = some (f, .digits (left + 1) (code * 16 ^ (width + 1) + n)) := by
        simp [readEscaped, hvalue, hcode]
      refine ⟨column' + 1, offset' + (Nat.digitChar (n % 16)).toUpper.utf8Size,
        Nat.succ_ne_zero _, ?_⟩
      have hleft : width + 1 + left + 1 = width + (left + 1) + 1 := by omega
      rw [hleft, Text.hexDigits, List.map_append, List.append_assoc, List.map_singleton,
        List.singleton_append, hrun]
      exact run_double line offset' emitted hne hbreak (by simp) hread w

/-- A character that is written as a letter is added to the text. -/
theorem run_letter {letter : Char} (hletter : escapeLetter c = some letter) (hcolumn : column ≠ 0)
    (w : List Char) :
    ∃ column' offset', column' ≠ 0
      ∧ (inEntry line column offset false emitted (.double f .none)).run ('\\' :: letter :: w)
        = (inEntry line column' offset' false emitted (.double (f.push c) .none)).run w := by
  obtain ⟨hunescape, hwidth, hbreak, _⟩ := unescapeLetter_of_escapeLetter hletter
  have hread : readEscaped f .backslash letter = some (f.push c, .none) := by
    simp [readEscaped, hbreak, hwidth, hunescape]
  refine ⟨column + 2, offset + 1 + letter.utf8Size, Nat.succ_ne_zero _, ?_⟩
  calc
    (inEntry line column offset false emitted (.double f .none)).run ('\\' :: letter :: w)
        = (inEntry line (column + 1) (offset + 1) false emitted (.double f .backslash)).run
            (letter :: w) :=
          run_backslash line offset emitted hcolumn _
    _ = (inEntry line (column + 2) (offset + 1 + letter.utf8Size) false emitted
          (.double (f.push c) .none)).run w :=
          run_double line (offset + 1) emitted (Nat.succ_ne_zero _) hbreak
            (fun hnone => by cases hnone) hread w

/-- A character that is written as a code is added to the text. -/
theorem run_code (letter : Char) (width : Nat) (hletter : escapeWidth letter = some (width + 1))
    (hbreak : isBreak letter = false) (hc : c.toNat < 16 ^ (width + 1)) (hcolumn : column ≠ 0)
    (w : List Char) :
    ∃ column' offset', column' ≠ 0
      ∧ (inEntry line column offset false emitted (.double f .none)).run
          (writeCode letter (width + 1) c.toNat ++ w)
        = (inEntry line column' offset' false emitted (.double (f.push c) .none)).run w := by
  have hdigit : c.toNat % 16 < 16 := Nat.mod_lt _ (by decide)
  have hhigh : c.toNat / 16 < 16 ^ width := by
    rw [Nat.pow_succ] at hc
    exact Nat.div_lt_of_lt_mul (by rwa [Nat.mul_comm] at hc)
  obtain ⟨hvalue, hlow, _⟩ := hexValue_toUpper_digitChar hdigit
  -- All digits but the last one leave the escape open; the last one closes it.
  obtain ⟨column', offset', hne, hdigits⟩ := run_digits line (offset + 1 + letter.utf8Size) emitted
    (f := f) width (c.toNat / 16) 0 0 hhigh (Nat.succ_ne_zero (column + 1))
    ((Nat.digitChar (c.toNat % 16)).toUpper :: w)
  have hcode : (0 * 16 ^ width + c.toNat / 16) * 16 + c.toNat % 16 = c.toNat := by
    rw [Nat.zero_mul, Nat.zero_add, Nat.div_add_mod']
  have hlast : readEscaped f (.digits 1 (0 * 16 ^ width + c.toNat / 16))
      (Nat.digitChar (c.toNat % 16)).toUpper = some (f.push c, .none) := by
    simp only [readEscaped, hvalue, Option.bind_some, hcode, charOfCode_toNat]
    rfl
  have hopens : readEscaped f .backslash letter = some (f, .digits (width + 1) 0) := by
    simp [readEscaped, hbreak, hletter]
  refine ⟨column' + 1, offset' + (Nat.digitChar (c.toNat % 16)).toUpper.utf8Size,
    Nat.succ_ne_zero _, ?_⟩
  simp only [writeCode, Text.hexDigits, List.map_append, List.map_singleton, List.cons_append,
    List.append_assoc, List.nil_append]
  calc
    (inEntry line column offset false emitted (.double f .none)).run _
        = (inEntry line (column + 1) (offset + 1) false emitted (.double f .backslash)).run _ :=
          run_backslash line offset emitted hcolumn _
    _ = (inEntry line (column + 2) (offset + 1 + letter.utf8Size) false emitted
          (.double f (.digits (width + 1) 0))).run _ :=
          run_double line (offset + 1) emitted (Nat.succ_ne_zero _) hbreak
            (fun hnone => by cases hnone) hopens _
    _ = (inEntry line column' offset' false emitted
          (.double f (.digits 1 (0 * 16 ^ width + c.toNat / 16)))).run _ := hdigits
    _ = (inEntry line (column' + 1) (offset' + (Nat.digitChar (c.toNat % 16)).toUpper.utf8Size)
          false emitted (.double (f.push c) .none)).run w :=
          run_double line offset' emitted hne hlow (fun hnone => by cases hnone) hlast w

/-- A character between double quotes is added to the text, however it is written. -/
theorem run_double_char (hgap : f.gap.hasBreak = false) (hcolumn : column ≠ 0) (w : List Char) :
    ∃ column' offset' g, column' ≠ 0 ∧ g.joined = c :: f.joined ∧ g.gap.hasBreak = false
      ∧ (inEntry line column offset false emitted (.double f .none)).run (writeDoubleChar c ++ w)
        = (inEntry line column' offset' false emitted (.double g .none)).run w := by
  cases hletter : escapeLetter c with
  | some letter =>
      obtain ⟨column', offset', hne, hrun⟩ := run_letter (f := f) line offset emitted hletter
        hcolumn w
      have hwritten : writeDoubleChar c = ['\\', letter] := by simp [writeDoubleChar, hletter]
      exact ⟨column', offset', f.push c, hne, rfl, rfl, by rw [hwritten]; exact hrun⟩
  | none =>
      obtain ⟨hquote, hslash, hbreak⟩ := of_escapeLetter_eq_none hletter
      cases hprint : isPrintable c with
      | true =>
          -- The character stands for itself; a space may open a gap.
          have hread : readEscaped f .none c = some (f.add c, .none) := by
            cases hblank : isBlank c with
            | true =>
                rw [Folding.add_of_space (by simp [hblank])]
                simp [readEscaped, hslash, hblank]
            | false =>
                rw [Folding.add_of_not_space hblank hbreak]
                simp [readEscaped, hslash, hblank, hbreak]
          refine ⟨column + 1, offset + c.utf8Size, f.add c, Nat.succ_ne_zero _,
            Folding.joined_add hgap hbreak, Folding.hasBreak_add hgap hbreak, ?_⟩
          simp only [writeDoubleChar, hletter, hprint, if_true, List.singleton_append]
          exact run_double line offset emitted hcolumn hbreak (fun _ => hquote) hread w
      | false =>
          obtain ⟨letter, width, hwritten, hwidth, hletterBreak, hsmall⟩ :=
            writeDoubleChar_eq_writeCode hletter hprint
          obtain ⟨column', offset', hne, hrun⟩ := run_code (f := f) line offset emitted letter width
            hwidth hletterBreak hsmall hcolumn w
          exact ⟨column', offset', f.push c, hne, rfl, rfl, by rw [hwritten, hrun]⟩

/-- The characters between double quotes are added to the text one after the other. -/
theorem run_double_chars (u : List Char) (hgap : f.gap.hasBreak = false) (hcolumn : column ≠ 0)
    (w : List Char) :
    ∃ column' offset' g, column' ≠ 0 ∧ g.joined = u.reverse ++ f.joined
      ∧ (inEntry line column offset false emitted (.double f .none)).run
          (u.flatMap writeDoubleChar ++ w)
        = (inEntry line column' offset' false emitted (.double g .none)).run w := by
  induction u generalizing f column offset with
  | nil => exact ⟨column, offset, f, hcolumn, rfl, rfl⟩
  | cons c u ih =>
      obtain ⟨column₁, offset₁, g₁, hne₁, hjoined, hgap₁, hchar⟩ := run_double_char (c := c) line
        offset emitted hgap hcolumn (u.flatMap writeDoubleChar ++ w)
      obtain ⟨column', offset', g, hne, hg, hrun⟩ := ih offset₁ hgap₁ hne₁
      refine ⟨column', offset', g, hne, ?_, ?_⟩
      · rw [hg, hjoined, List.reverse_cons, List.append_assoc, List.singleton_append]
      · rw [List.flatMap_cons, List.append_assoc, hchar, hrun]

end Lexer

/-- Every text is spelled by itself in double quotes. -/
theorem spells_double (t : List Char) :
    Spells ('"' :: t.flatMap writeDoubleChar ++ ['"', '\n']) false t := by
  intro line column emitted rest _
  obtain ⟨column', offset', g, hne, hg, hrun⟩ := Lexer.run_double_chars (f := {}) line (column + 2)
    emitted t rfl (Nat.succ_ne_zero (column + 1)) ('"' :: '\n' :: rest)
  have hfirst : (Lexer.inEntry line (column + 1) (column + 1) false emitted .between).run
      ('"' :: (t.flatMap writeDoubleChar ++ '"' :: '\n' :: rest))
      = (Lexer.inEntry line (column + 2) (column + 2) false emitted (.double {} .none)).run
          (t.flatMap writeDoubleChar ++ '"' :: '\n' :: rest) := Lexer.run_inEntry (by decide) rfl
  have htext : g.joined.reverse = t := by
    rw [hg]
    simp [Folding.joined, Gap.text]
  have hclose : (Lexer.inEntry line column' offset' false emitted (.double g .none)).read '"'
      ('\n' :: rest) = some (Lexer.inEntry line column' offset' false
        (.scalar false g.joined.reverse :: emitted) .between) := rfl
  have hquote : (Lexer.inEntry line column' offset' false emitted (.double g .none)).run
      ('"' :: '\n' :: rest)
      = (Lexer.inEntry line (column' + 1) (offset' + 1) false
          (.scalar false g.joined.reverse :: emitted) .between).run ('\n' :: rest) := by
    rw [Lexer.run_cons_of_read hclose, Lexer.advance_inEntry (by decide)]
    rfl
  refine ⟨line + 1, ?_⟩
  simp only [List.cons_append, List.append_assoc, List.nil_append]
  rw [hfirst, hrun, hquote, Lexer.run_line_end, htext]

end Yaml
end SearchBox
