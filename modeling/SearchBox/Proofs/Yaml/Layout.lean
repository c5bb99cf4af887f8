import SearchBox.Yaml.Lexer

/-!
# The lexer between the entries of a mapping

A document of settings is a block mapping at the left margin, one entry after the other.  This file
follows the lexer through a key and its colon, and says what a value has to do for the next entry to
be read:

* `Lexer.lineStart`, `Lexer.inEntry` — the states at the beginning of an entry and inside one;
* `Spells` — some characters are the value of an entry, up to and with the end of its line;
* `run_entries` — the lexemes of entries whose values are spelled;
* `run_document_late` — a key that is too long, which makes the whole document unreadable.

How each style spells a value is shown in the files after this one.
-/

namespace SearchBox
namespace Yaml

/-! ## Characters of words -/

/-- The letters, the digits and the underscore, which keys and numbers are made of. -/
def isWordChar (c : Char) : Bool :=
  c.isAlphanum || c == '_'

variable {c d : Char} {rest : List Char}

/-- A character of a class is none outside it. -/
theorem ne_of_class {p : Char → Bool} (hc : p c = true) (hd : p d = false) : c ≠ d := by
  rintro rfl
  rw [hc] at hd
  cases hd

theorem isBreak_of_isWordChar (h : isWordChar c = true) : isBreak c = false := by
  have hne : ∀ d, isWordChar d = false → c ≠ d := fun d hd => ne_of_class h hd
  simp [isBreak, hne '\n' (by decide), hne '\r' (by decide), hne nextLine (by decide),
    hne lineSeparator (by decide), hne paragraphSeparator (by decide)]

theorem isBlank_of_isWordChar (h : isWordChar c = true) : isBlank c = false := by
  have hne : ∀ d, isWordChar d = false → c ≠ d := fun d hd => ne_of_class h hd
  simp [isBlank, hne ' ' (by decide), hne '\t' (by decide)]

theorem isFlowIndicator_of_isWordChar (h : isWordChar c = true) : isFlowIndicator c = false := by
  have hne : ∀ d, isWordChar d = false → c ≠ d := fun d hd => ne_of_class h hd
  simp [isFlowIndicator, hne ',' (by decide), hne '[' (by decide), hne ']' (by decide),
    hne '\x7b' (by decide), hne '\x7d' (by decide)]

theorem isIndicator_of_isWordChar (h : isWordChar c = true) : isIndicator c = false := by
  have hne : ∀ d, isWordChar d = false → c ≠ d := fun d hd => ne_of_class h hd
  simp [isIndicator, isFlowIndicator_of_isWordChar h, hne '#' (by decide), hne '&' (by decide),
    hne '*' (by decide), hne '!' (by decide), hne '|' (by decide), hne '>' (by decide),
    hne '\'' (by decide), hne '"' (by decide), hne '%' (by decide), hne '@' (by decide),
    hne '\x60' (by decide)]

/-- Word characters lie among the visible characters of ASCII. -/
theorem toNat_of_isWordChar (h : isWordChar c = true) : 0x20 ≤ c.toNat ∧ c.toNat ≤ 0x7E := by
  have hbounds : ∀ low high : Nat, low ≤ c.toNat ∧ c.toNat ≤ high → 0x20 ≤ low → high ≤ 0x7E →
      0x20 ≤ c.toNat ∧ c.toNat ≤ 0x7E :=
    fun low high hc hlow hhigh => ⟨Nat.le_trans hlow hc.1, Nat.le_trans hc.2 hhigh⟩
  rcases Bool.or_eq_true_iff.mp h with halphanum | hunderscore
  · rcases Bool.or_eq_true_iff.mp halphanum with halpha | hdigit
    · rcases Bool.or_eq_true_iff.mp halpha with hupper | hlower
      · have hrange : 'A'.val ≤ c.val ∧ c.val ≤ 'Z'.val := of_decide_eq_true hupper
        exact hbounds 65 90 hrange (by decide) (by decide)
      · have hrange := Bool.and_eq_true_iff.mp hlower
        exact hbounds 97 122 ⟨of_decide_eq_true hrange.1, of_decide_eq_true hrange.2⟩ (by decide)
          (by decide)
    · exact hbounds 48 57 (Char.isDigit_iff_toNat.mp hdigit) (by decide) (by decide)
  · rw [eq_of_beq hunderscore]
    decide

theorem utf8Size_of_isWordChar (h : isWordChar c = true) : c.utf8Size = 1 := by
  have hsmall : c.toNat ≤ 0x7F := Nat.le_succ_of_le (toNat_of_isWordChar h).2
  exact Char.utf8Size_eq_one_iff.mpr hsmall

/-- Whether a text is at its end or goes on with the key of another entry. -/
def BeginsEntry (rest : List Char) : Prop :=
  ∀ c, rest.head? = some c → isWordChar c = true

/-! ## States -/

namespace Lexer

/-- The state at the beginning of a line where an entry may begin. -/
def lineStart (line : Nat) (indents : List Nat) (emitted : List Lexeme) : Lexer :=
  { line := line, indents := indents, emitted := emitted, count := emitted.length }

/-- A state inside an entry of a mapping at the left margin, after its colon. -/
def inEntry (line column offset : Nat) (keyAllowed : Bool) (emitted : List Lexeme) (mode : Mode) :
    Lexer :=
  { line := line, column := column, offset := offset, indents := [0], keyAllowed := keyAllowed,
    emitted := emitted, count := emitted.length, mode := mode }

variable {s s' : Lexer} {line column offset : Nat} {keyAllowed : Bool} {emitted : List Lexeme}
variable {mode : Mode} {k w t : List Char} {isPlain : Bool}

theorem inEntry_between (line : Nat) (emitted : List Lexeme) :
    inEntry line 0 0 true emitted .between = lineStart line [0] emitted := rfl

/-! ## One character -/

theorem run_cons_of_read (h : s.read c rest = some s') :
    s.run (c :: rest) = (s'.advance c).run rest := by
  simp [run, step, h]

theorem advance_inEntry (h : isBreak c = false) :
    (inEntry line column offset keyAllowed emitted mode).advance c
      = inEntry line (column + 1) (offset + c.utf8Size) keyAllowed emitted mode := by
  simp [advance, h, inEntry]

theorem advance_inEntry_break (h : isBreak c = true) :
    (inEntry line column offset keyAllowed emitted mode).advance c
      = inEntry (line + 1) 0 0 keyAllowed emitted mode := by
  simp [advance, h, inEntry]

/-- One character inside an entry that only changes what is being read. -/
theorem run_inEntry {mode' : Mode} (hbreak : isBreak c = false)
    (h : (inEntry line column offset keyAllowed emitted mode).read c rest
      = some (inEntry line column offset keyAllowed emitted mode')) :
    (inEntry line column offset keyAllowed emitted mode).run (c :: rest)
      = (inEntry line (column + 1) (offset + c.utf8Size) keyAllowed emitted mode').run rest := by
  rw [run_cons_of_read h, advance_inEntry hbreak]

/-- Two states that read a character alike go on alike. -/
theorem run_congr (h : s.read c rest = s'.read c rest) : s.run (c :: rest) = s'.run (c :: rest) := by
  simp [run, step, h]

/-- The end of a line after a value. -/
theorem run_line_end :
    (inEntry line column offset keyAllowed emitted .between).run ('\n' :: rest)
      = (lineStart (line + 1) [0] emitted).run rest := by
  have hread : (inEntry line column offset keyAllowed emitted .between).read '\n' rest
      = some (inEntry line column offset true emitted .between) := rfl
  rw [run_cons_of_read hread, advance_inEntry_break rfl, inEntry_between]

theorem documentMark?_of_column (h : s.column ≠ 0) (c : Char) (rest : List Char) :
    s.documentMark? c rest = none := by
  simp [documentMark?, h]

theorem documentMark?_of_ne (hdash : c ≠ '-') (hdot : c ≠ '.') (rest : List Char) :
    s.documentMark? c rest = none := by
  unfold documentMark?
  split
  · split
    · exact absurd rfl hdash
    · exact absurd rfl hdot
    · rfl
  · rfl

/-- A character that is none of the marks of a flow collection or of a quoted scalar. -/
theorem readMark_of_not_flow (hdoc : s.documentMark? c rest = none)
    (hflow : isFlowIndicator c = false) (hsingle : c ≠ '\'') (hdouble : c ≠ '"') :
    s.readMark c rest =
      if c == '-' && endsWord rest then s.readDash
      else if c == '?' && (s.inFlow || endsWord rest) then s.readQuestion
      else if c == ':' && (s.inFlow || endsWord rest) then s.readColon
      else if c == '|' && !s.inFlow then s.readBlockMark false
      else if c == '>' && !s.inFlow then s.readBlockMark true
      else if s.beginsPlain c rest then s.readScalar (.plain ⟨[c], .none⟩)
      else none := by
  simp only [readMark, hdoc]
  split
  · simp [isFlowIndicator] at hflow
  · simp [isFlowIndicator] at hflow
  · simp [isFlowIndicator] at hflow
  · simp [isFlowIndicator] at hflow
  · simp [isFlowIndicator] at hflow
  · exact absurd rfl hsingle
  · exact absurd rfl hdouble
  · rfl

/-- A character between lexemes that is no white space and begins no comment, where nothing has to
be given up or closed. -/
theorem readBetween_of_mark (hspace : c ≠ ' ') (htab : c ≠ '\t') (hbom : c ≠ byteOrderMark)
    (hcomment : c ≠ '#') (hbreak : isBreak c = false) (hstale : s.dropAllStale = some s)
    (hclose : s.closeBlocks s.column = s) :
    s.readBetween c rest = s.readMark c rest := by
  simp [readBetween, hspace, htab, hbom, hcomment, hbreak, hstale, hclose]

/-! ## Keys -/

/-- A state inside the key of an entry, which has begun at the left margin. -/
def inKey (line column : Nat) (indents : List Nat) (emitted : List Lexeme) (text : List Char) :
    Lexer :=
  { line := line, column := column, offset := column, indents := indents,
    candidate := some ⟨emitted.length, line, 0, 0, indents.head? == some 0⟩,
    keyAllowed := false, emitted := emitted, count := emitted.length, mode := .plain ⟨text, .none⟩ }

/-- The lexemes read before the first lexeme of an entry, newest first: the first entry of all opens
the mapping. -/
def opened (indents : List Nat) (emitted : List Lexeme) : List Lexeme :=
  if indents = [] then .blockMappingStart :: emitted else emitted

@[simp] theorem inFlow_inKey {indents : List Nat} {text : List Char} :
    (inKey line column indents emitted text).inFlow = false := rfl

@[simp] theorem inFlow_inEntry :
    (inEntry line column offset keyAllowed emitted mode).inFlow = false := rfl

theorem run_key_first {indents : List Nat} (hI : indents = [] ∨ indents = [0])
    (hc : isWordChar c = true) (rest : List Char) :
    (lineStart line indents emitted).run (c :: rest)
      = (inKey line 1 indents emitted [c]).run rest := by
  have hne : ∀ d, isWordChar d = false → c ≠ d := fun d hd => ne_of_class hc hd
  have hbreak := isBreak_of_isWordChar hc
  have hblank := isBlank_of_isWordChar hc
  have hclose : (lineStart line indents emitted).closeBlocks 0 = lineStart line indents emitted := by
    rcases hI with rfl | rfl
    · rfl
    · rfl
  have hplain : (lineStart line indents emitted).beginsPlain c rest = true := by
    simp [beginsPlain, isIndicator_of_isWordChar hc, hblank, hbreak, hne '-' (by decide),
      hne '?' (by decide), hne ':' (by decide)]
  have hscalar : (lineStart line indents emitted).readScalar (.plain ⟨[c], .none⟩)
      = some (inKey line 0 indents emitted [c]) := rfl
  have hread : (lineStart line indents emitted).read c rest
      = some (inKey line 0 indents emitted [c]) := by
    have hdoc : (lineStart line indents emitted).documentMark? c rest = none :=
      documentMark?_of_ne (hne '-' (by decide)) (hne '.' (by decide)) rest
    calc
      (lineStart line indents emitted).read c rest
          = (lineStart line indents emitted).readMark c rest :=
            readBetween_of_mark (hne ' ' (by decide)) (hne '\t' (by decide))
              (hne byteOrderMark (by decide)) (hne '#' (by decide)) hbreak rfl hclose
      _ = some (inKey line 0 indents emitted [c]) := by
            rw [readMark_of_not_flow hdoc (isFlowIndicator_of_isWordChar hc) (hne '\'' (by decide))
              (hne '"' (by decide))]
            simp [hne '-' (by decide), hne '?' (by decide), hne ':' (by decide),
              hne '|' (by decide), hne '>' (by decide), hplain, hscalar]
  rw [run_cons_of_read hread]
  simp [advance, hbreak, inKey, utf8Size_of_isWordChar hc]

theorem run_key_next {indents : List Nat} {text : List Char} (hc : isWordChar c = true)
    (rest : List Char) :
    (inKey line (column + 1) indents emitted text).run (c :: rest)
      = (inKey line (column + 2) indents emitted (c :: text)).run rest := by
  have hne : ∀ d, isWordChar d = false → c ≠ d := fun d hd => ne_of_class hc hd
  have hbreak := isBreak_of_isWordChar hc
  have hdoc : (inKey line (column + 1) indents emitted text).documentMark? c rest = none :=
    documentMark?_of_ne (hne '-' (by decide)) (hne '.' (by decide)) rest
  have hends : (inKey line (column + 1) indents emitted text).plainEnds ⟨text, .none⟩ c rest
      = false := by
    simp [plainEnds, hdoc, hne ':' (by decide), Gap.hasBreak]
  have hread : (inKey line (column + 1) indents emitted text).read c rest
      = some (inKey line (column + 1) indents emitted (c :: text)) := by
    change (inKey line (column + 1) indents emitted text).readPlain ⟨text, .none⟩ c rest = _
    simp only [readPlain, hbreak, isBlank_of_isWordChar hc, isCrowdedColon, inFlow_inKey, hends,
      Bool.false_and, Bool.false_eq_true, if_false]
    rfl
  rw [run_cons_of_read hread]
  simp [advance, hbreak, inKey, utf8Size_of_isWordChar hc]

theorem run_key_rest {indents : List Nat} {text : List Char} (hk : ∀ c ∈ k, isWordChar c = true)
    (rest : List Char) :
    (inKey line (column + 1) indents emitted text).run (k ++ rest)
      = (inKey line (column + 1 + k.length) indents emitted (k.reverse ++ text)).run rest := by
  induction k generalizing column text with
  | nil => rfl
  | cons c k ih =>
      have hc : isWordChar c = true := hk c (by simp)
      have hrest : ∀ d ∈ k, isWordChar d = true := fun d hd => hk d (by simp [hd])
      rw [List.cons_append, run_key_next hc, ih hrest]
      have hcolumn : column + 1 + 1 + k.length = column + 1 + (c :: k).length := by
        rw [List.length_cons]
        omega
      rw [hcolumn, List.reverse_cons, List.append_assoc, List.singleton_append]

/-- A colon and a space end the scalar before them, which is still a candidate for a key. -/
theorem read_colon (indents : List Nat) (text rest : List Char) :
    (inKey line column indents emitted text).read ':' (' ' :: rest)
      = ((inKey line column indents emitted text).endScalar true text.reverse).readBetween ':'
          (' ' :: rest) := by
  change (inKey line column indents emitted text).readPlain ⟨text, .none⟩ ':' (' ' :: rest) = _
  simp [readPlain, isBreak, nextLine, lineSeparator, paragraphSeparator, isBlank, isCrowdedColon,
    plainEnds, endsWord, endPlain, Gap.hasBreak]

/-- Between lexemes, a colon before a space is read as a colon. -/
theorem readMark_colon (s : Lexer) (rest : List Char) :
    s.readMark ':' (' ' :: rest) = s.readColon := by
  have hdoc : s.documentMark? ':' (' ' :: rest) = none :=
    documentMark?_of_ne (by decide) (by decide) _
  rw [readMark_of_not_flow hdoc (by decide) (by decide) (by decide)]
  simp [endsWord, isBlank]

/-- A colon and a space make the scalar before them the key of an entry. -/
theorem run_colon {indents : List Nat} {text : List Char} (hI : indents = [] ∨ indents = [0])
    (hcolumn : column + 1 ≤ maxKeyLength) (rest : List Char) :
    (inKey line (column + 1) indents emitted text).run (':' :: ' ' :: rest)
      = (inEntry line (column + 3) (column + 3) false
          (.value :: .scalar true text.reverse :: .key :: opened indents emitted) .between).run
          rest := by
  let ended : Lexer := (inKey line (column + 1) indents emitted text).endScalar true text.reverse
  -- The colon comes on the same line and near enough.
  have hstale : ended.dropAllStale = some ended := by
    have hnear : ¬ maxKeyLength < column + 1 := Nat.not_lt.mpr hcolumn
    simp [dropAllStale, dropStale, isStale, hnear, ended, endScalar, emit, inKey]
  have hclose : ended.closeBlocks ended.column = ended := by
    rcases hI with rfl | rfl
    · rfl
    · rfl
  -- The mark of the key is put before it, and for the first entry the beginning of the mapping too.
  have hvalue : ended.readColon
      = some (inEntry line (column + 1) (column + 1) false
          (.value :: .scalar true text.reverse :: .key :: opened indents emitted) .between) := by
    rcases hI with rfl | rfl
    · have hafter : emitted.length + 1 + 1 - emitted.length = 2 := by omega
      simp [readColon, insert, openBlock, inFlow, margin, emit, ended, endScalar, inKey, inEntry,
        opened, hafter]
    · simp [readColon, insert, openBlock, inFlow, margin, emit, ended, endScalar, inKey, inEntry,
        opened]
  have hread : (inKey line (column + 1) indents emitted text).read ':' (' ' :: rest)
      = some (inEntry line (column + 1) (column + 1) false
          (.value :: .scalar true text.reverse :: .key :: opened indents emitted) .between) := by
    have hbetween : ended.readBetween ':' (' ' :: rest) = ended.readMark ':' (' ' :: rest) :=
      readBetween_of_mark (by decide) (by decide) (by decide) (by decide) (by decide) hstale hclose
    rw [read_colon, hbetween, readMark_colon, hvalue]
  rw [run_cons_of_read hread, advance_inEntry (by decide)]
  exact run_inEntry (by decide) rfl

/-- A colon that comes too late after a word is not read at all. -/
theorem run_colon_late {indents : List Nat} {text : List Char} (hI : indents = [] ∨ indents = [0])
    (hcolumn : maxKeyLength < column) (rest : List Char) :
    (inKey line column indents emitted text).run (':' :: ' ' :: rest) = none := by
  let ended : Lexer := (inKey line column indents emitted text).endScalar true text.reverse
  have hread : ended.readBetween ':' (' ' :: rest) = none := by
    have hmark : ended.readBetween ':' (' ' :: rest)
        = ended.dropAllStale.bind fun s => (s.closeBlocks s.column).readMark ':' (' ' :: rest) := by
      simp [readBetween, byteOrderMark, isBreak, nextLine, lineSeparator, paragraphSeparator]
    rw [hmark]
    rcases hI with rfl | rfl
    · -- The word is given up as a key, and no key may begin where the colon stands.
      have hstale : ended.dropAllStale = some { ended with candidate := none } := by
        simp [dropAllStale, dropStale, isStale, hcolumn, ended, endScalar, emit, inKey]
      rw [hstale, Option.bind_some]
      exact readMark_colon _ rest
    · -- Inside the mapping the word had to become a key.
      have hstale : ended.dropAllStale = none := by
        simp [dropAllStale, dropStale, isStale, hcolumn, ended, endScalar, emit, inKey]
      rw [hstale, Option.bind_none]
  simp [run, step, read_colon, hread, ended]

end Lexer

/-! ## Values -/

/-- Some characters spell a scalar as the value of an entry: after the colon and a space they are
read as it, and the next entry begins behind them. -/
def Spells (w : List Char) (isPlain : Bool) (t : List Char) : Prop :=
  ∀ line column emitted rest, BeginsEntry rest →
    ∃ line', (Lexer.inEntry line (column + 1) (column + 1) false emitted .between).run (w ++ rest)
      = (Lexer.lineStart line' [0] (.scalar isPlain t :: emitted)).run rest

/-- An entry of a mapping as it is written, with the scalar that its value stands for. -/
structure Entry where
  key : List Char
  written : List Char
  isPlain : Bool
  text : List Char

namespace Entry

/-- The characters of an entry. -/
def chars (e : Entry) : List Char :=
  e.key ++ ':' :: ' ' :: e.written

/-- The lexemes of an entry. -/
def lexemes (e : Entry) : List Lexeme :=
  [.key, .scalar true e.key, .value, .scalar e.isPlain e.text]

/-- An entry is legible if its key is a word that is not too long and its value is spelled. -/
structure Legible (e : Entry) : Prop where
  key_ne : e.key ≠ []
  key_char : ∀ c ∈ e.key, isWordChar c = true
  key_length : e.key.length ≤ maxKeyLength
  spells : Spells e.written e.isPlain e.text

variable {e : Entry} {indents : List Nat} {rest : List Char}

theorem Legible.beginsEntry (h : e.Legible) (rest : List Char) :
    BeginsEntry (e.chars ++ rest) := by
  intro c hc
  cases hkey : e.key with
  | nil => exact absurd hkey h.key_ne
  | cons d k =>
      rw [chars, hkey] at hc
      cases hc
      exact h.key_char _ (by simp [hkey])

/-- One entry is read, and the next one begins behind it. -/
theorem Legible.run (h : e.Legible) (hI : indents = [] ∨ indents = [0]) (line : Nat)
    (emitted : List Lexeme) (hrest : BeginsEntry rest) :
    ∃ line', (Lexer.lineStart line indents emitted).run (e.chars ++ rest)
      = (Lexer.lineStart line' [0]
          (e.lexemes.reverse ++ Lexer.opened indents emitted)).run rest := by
  cases hkey : e.key with
  | nil => exact absurd hkey h.key_ne
  | cons c k =>
      have hc : isWordChar c = true := h.key_char c (by simp [hkey])
      have hk : ∀ d ∈ k, isWordChar d = true := fun d hd => h.key_char d (by simp [hkey, hd])
      have hlength : k.length + 1 ≤ maxKeyLength := by
        have hle := h.key_length
        simpa [hkey] using hle
      have htext : (k.reverse ++ [c]).reverse = e.key := by simp [hkey]
      have hcolumn : 0 + 1 + k.length = k.length + 1 := by omega
      obtain ⟨line', hvalue⟩ := h.spells line (k.length + 2)
        (.value :: .scalar true e.key :: .key :: Lexer.opened indents emitted) rest hrest
      refine ⟨line', ?_⟩
      -- The first character begins a scalar, the colon makes it a key, and the value follows.
      have hchars : e.chars ++ rest = c :: (k ++ ':' :: ' ' :: (e.written ++ rest)) := by
        simp [chars, hkey]
      rw [hchars, Lexer.run_key_first hI hc, ← Nat.zero_add 1, Lexer.run_key_rest hk, hcolumn,
        Lexer.run_colon hI hlength, htext, hvalue]
      rfl

end Entry

theorem beginsEntry_entries {es : List Entry} {rest : List Char} (hes : ∀ e ∈ es, e.Legible)
    (hrest : BeginsEntry rest) : BeginsEntry (es.flatMap Entry.chars ++ rest) := by
  cases es with
  | nil => exact hrest
  | cons e es =>
      rw [List.flatMap_cons, List.append_assoc]
      exact (hes e (by simp)).beginsEntry _

/-- Entries are read one after the other. -/
theorem run_entries (es : List Entry) (hes : ∀ e ∈ es, e.Legible) (line : Nat)
    (emitted : List Lexeme) {rest : List Char} (hrest : BeginsEntry rest) :
    ∃ line', (Lexer.lineStart line [0] emitted).run (es.flatMap Entry.chars ++ rest)
      = (Lexer.lineStart line' [0]
          ((es.flatMap Entry.lexemes).reverse ++ emitted)).run rest := by
  induction es generalizing line emitted with
  | nil => exact ⟨line, rfl⟩
  | cons e es ih =>
      have he : e.Legible := hes e (by simp)
      have hothers : ∀ f ∈ es, f.Legible := fun f hf => hes f (by simp [hf])
      obtain ⟨line₁, hfirst⟩ :=
        he.run (Or.inr rfl) line emitted (beginsEntry_entries hothers hrest)
      obtain ⟨line₂, hlater⟩ := ih hothers line₁ (e.lexemes.reverse ++ Lexer.opened [0] emitted)
      refine ⟨line₂, ?_⟩
      rw [List.flatMap_cons, List.append_assoc, hfirst, hlater, List.flatMap_cons,
        List.reverse_append, List.append_assoc]
      rfl

/-- The first entries of a text open a mapping. -/
theorem run_first_entries (e : Entry) (es : List Entry) (hes : ∀ f ∈ e :: es, f.Legible)
    {rest : List Char} (hrest : BeginsEntry rest) :
    ∃ line', Lexer.run {} ((e :: es).flatMap Entry.chars ++ rest)
      = (Lexer.lineStart line' [0]
          (((e :: es).flatMap Entry.lexemes).reverse ++ [.blockMappingStart])).run rest := by
  have he : e.Legible := hes e (by simp)
  have hothers : ∀ f ∈ es, f.Legible := fun f hf => hes f (by simp [hf])
  obtain ⟨line₁, hfirst⟩ := he.run (Or.inl rfl) 0 [] (beginsEntry_entries hothers hrest)
  obtain ⟨line₂, hlater⟩ := run_entries es hothers line₁
    (e.lexemes.reverse ++ [.blockMappingStart]) hrest
  have hstart : ({} : Lexer) = Lexer.lineStart 0 [] [] := rfl
  have hopened : Lexer.opened [] [] = [Lexeme.blockMappingStart] := rfl
  rw [hopened] at hfirst
  refine ⟨line₂, ?_⟩
  rw [List.flatMap_cons, List.append_assoc, hstart, hfirst, hlater, List.flatMap_cons,
    List.reverse_append, List.append_assoc]

/-- The lexemes of a document of entries. -/
theorem run_document (e : Entry) (es : List Entry) (hes : ∀ f ∈ e :: es, f.Legible) :
    Lexer.run {} ((e :: es).flatMap Entry.chars)
      = some (.blockMappingStart :: ((e :: es).flatMap Entry.lexemes ++ [.blockEnd])) := by
  have hrest : BeginsEntry [] := fun c hc => by cases hc
  obtain ⟨line, hentries⟩ := run_first_entries e es hes hrest
  rw [List.append_nil] at hentries
  rw [hentries]
  -- The end of the text closes the mapping.
  simp [Lexer.run, Lexer.finish, Lexer.endText, Lexer.lineStart, Lexer.dropCandidate,
    Lexer.closeAllBlocks, Lexer.inFlow, Lexer.emitEnds, Lexer.emit]

/-! ## Keys that are too long -/

/-- A word before a colon is no key if it is too long for one. -/
theorem Lexer.run_key_late {indents : List Nat} {k : List Char} {line : Nat} {emitted : List Lexeme}
    (hI : indents = [] ∨ indents = [0]) (hk : ∀ c ∈ k, isWordChar c = true)
    (hlate : maxKeyLength < k.length) (rest : List Char) :
    (Lexer.lineStart line indents emitted).run (k ++ ':' :: ' ' :: rest) = none := by
  cases k with
  | nil => exact absurd hlate (Nat.not_lt_zero _)
  | cons c k =>
      have hc : isWordChar c = true := hk c (by simp)
      have htail : ∀ d ∈ k, isWordChar d = true := fun d hd => hk d (by simp [hd])
      have hcolumn : maxKeyLength < 0 + 1 + k.length := by
        rw [List.length_cons] at hlate
        omega
      rw [List.cons_append, run_key_first hI hc, ← Nat.zero_add 1, run_key_rest htail]
      exact run_colon_late hI hcolumn rest

/-- A document with an entry whose key is too long cannot be read, wherever that entry stands. -/
theorem run_document_late (es : List Entry) (hes : ∀ e ∈ es, e.Legible) {k : List Char}
    (hk : ∀ c ∈ k, isWordChar c = true) (hlate : maxKeyLength < k.length) (rest : List Char) :
    Lexer.run {} (es.flatMap Entry.chars ++ (k ++ ':' :: ' ' :: rest)) = none := by
  have hrest : BeginsEntry (k ++ ':' :: ' ' :: rest) := by
    intro c hc
    cases k with
    | nil => exact absurd hlate (Nat.not_lt_zero _)
    | cons d k =>
        cases hc
        exact hk _ (by simp)
  cases es with
  | nil => exact Lexer.run_key_late (Or.inl rfl) hk hlate rest
  | cons e es =>
      obtain ⟨line, hentries⟩ := run_first_entries e es hes hrest
      rw [hentries]
      exact Lexer.run_key_late (Or.inr rfl) hk hlate rest

end Yaml
end SearchBox
