import SearchBox.Proofs.Yaml.Literal
import SearchBox.Proofs.Yaml.Quoted
import SearchBox.Yaml.Node

/-!
# Documents of entries are read back

The four styles together, and the document around them:

* `spells_writeValue` — every text is spelled by what is written for it;
* `isPrintable_of_mem_writeValue` — whatever the text, only printable characters are written;
* `Node.ofText?_entries` — a document of entries is read as the mapping of their keys to their texts;
* `Node.ofText?_late` — with a key that is too long among them it is not read at all.
-/

namespace SearchBox
namespace Yaml

variable {c : Char} {t : List Char}

/-! ## The choice of a style -/

/-- A style is only chosen for a text that it can hold. -/
theorem styleOf_cases (t : List Char) :
    (styleOf t = .literal ∧ '\n' ∈ t ∧ allowsLiteral t = true)
      ∨ (styleOf t = .plain ∧ t ≠ [] ∧ allowsPlain t = true)
      ∨ (styleOf t = .single ∧ '\n' ∉ t ∧ allowsSingle t = true)
      ∨ styleOf t = .double := by
  -- The cases are those of the definition.
  by_cases hnewline : '\n' ∈ t
  · cases hliteral : allowsLiteral t with
    | true => exact Or.inl ⟨by simp [styleOf, hnewline, hliteral], hnewline, rfl⟩
    | false => exact Or.inr (Or.inr (Or.inr (by simp [styleOf, hnewline, hliteral])))
  · cases hplain : !isAmbiguous t && allowsPlain t with
    | true =>
        simp only [Bool.and_eq_true, Bool.not_eq_true'] at hplain
        have hne : t ≠ [] := by
          rintro rfl
          exact absurd hplain.1 (by decide)
        exact Or.inr (Or.inl ⟨by simp [styleOf, hnewline, hplain], hne, hplain.2⟩)
    | false =>
        cases hsingle : allowsSingle t with
        | true =>
            exact Or.inr (Or.inr (Or.inl ⟨by simp [styleOf, hnewline, hplain, hsingle], hnewline, rfl⟩))
        | false =>
            exact Or.inr (Or.inr (Or.inr (by simp [styleOf, hnewline, hplain, hsingle])))

theorem printable_of_allowsLiteral (h : allowsLiteral t = true) : ∀ c ∈ t, isPrintable c = true := by
  simp only [allowsLiteral, Bool.and_eq_true, List.all_eq_true] at h
  exact h.1.1

theorem printable_of_allowsSingle (h : allowsSingle t = true) : ∀ c ∈ t, isPrintable c = true := by
  simp only [allowsSingle, Bool.and_eq_true, List.all_eq_true] at h
  exact h.1.1

/-- Every text is spelled by what is written for it. -/
theorem spells_writeValue (t : List Char) : ∃ isPlain, Spells (writeValue t) isPlain t := by
  rcases styleOf_cases t with ⟨hstyle, hnewline, hallows⟩ | ⟨hstyle, hne, hallows⟩
    | ⟨hstyle, hnewline, hallows⟩ | hstyle
  · refine ⟨false, ?_⟩
    simp only [writeValue, hstyle]
    exact spells_literal (printable_of_allowsLiteral hallows) (List.ne_nil_of_mem hnewline)
  · refine ⟨true, ?_⟩
    simp only [writeValue, hstyle]
    exact spells_plain hne hallows
  · refine ⟨false, ?_⟩
    simp only [writeValue, hstyle]
    exact spells_single hnewline hallows
  · refine ⟨false, ?_⟩
    simp only [writeValue, hstyle]
    exact spells_double t

/-! ## Only printable characters are written -/

theorem isPrintable_of_mem_indentation (hc : c ∈ indentation) : isPrintable c = true := by
  simp only [indentation, List.mem_cons, List.not_mem_nil, or_false, or_self] at hc
  rw [hc]
  decide

theorem isPrintable_of_mem_writeSingle (ht : ∀ c ∈ t, isPrintable c = true) (fresh : Bool)
    (hc : c ∈ writeSingle fresh t) : isPrintable c = true := by
  induction t generalizing fresh with
  | nil =>
      cases fresh with
      | true => exact isPrintable_of_mem_indentation hc
      | false => cases hc
  | cons d t ih =>
      have hd : isPrintable d = true := ht d (by simp)
      have hrest : ∀ e ∈ t, isPrintable e = true := fun e he => ht e (by simp [he])
      cases hbreak : isBreak d with
      | true =>
          simp only [writeSingle, hbreak, if_true, List.mem_cons] at hc
          rcases hc with rfl | hc
          · exact hd
          · exact ih hrest true hc
      | false =>
          simp only [writeSingle, hbreak, Bool.false_eq_true, if_false, List.mem_append] at hc
          rcases hc with (hmargin | hchar) | hc
          · cases fresh with
            | true => exact isPrintable_of_mem_indentation hmargin
            | false => cases hmargin
          · split at hchar
            · simp only [List.mem_cons, List.not_mem_nil, or_false, or_self] at hchar
              rw [hchar]
              decide
            · rw [List.mem_singleton.mp hchar]
              exact hd
          · exact ih hrest false hc

theorem isPrintable_of_mem_writeLiteral (ht : ∀ c ∈ t, isPrintable c = true) (fresh : Bool)
    (hc : c ∈ writeLiteral fresh t) : isPrintable c = true := by
  induction t generalizing fresh with
  | nil =>
      cases fresh with
      | true => cases hc
      | false =>
          rw [List.mem_singleton.mp hc]
          decide
  | cons d t ih =>
      have hd : isPrintable d = true := ht d (by simp)
      have hrest : ∀ e ∈ t, isPrintable e = true := fun e he => ht e (by simp [he])
      cases hbreak : isBreak d with
      | true =>
          simp only [writeLiteral, hbreak, if_true, List.mem_cons] at hc
          rcases hc with rfl | hc
          · exact hd
          · exact ih hrest true hc
      | false =>
          simp only [writeLiteral, hbreak, Bool.false_eq_true, if_false, List.mem_append,
            List.mem_cons] at hc
          rcases hc with hmargin | rfl | hc
          · cases fresh with
            | true => exact isPrintable_of_mem_indentation hmargin
            | false => cases hmargin
          · exact hd
          · exact ih hrest false hc

theorem isPrintable_of_mem_hexDigits (width n : Nat)
    (hc : c ∈ (Text.hexDigits width n).map Char.toUpper) : isPrintable c = true := by
  induction width generalizing n with
  | zero => cases hc
  | succ width ih =>
      rw [Text.hexDigits, List.map_append, List.mem_append] at hc
      rcases hc with hc | hc
      · exact ih (n / 16) hc
      · have hdigit : n % 16 < 16 := Nat.mod_lt n (by decide)
        rw [List.mem_singleton.mp hc]
        exact (hexValue_toUpper_digitChar hdigit).2.2

theorem isPrintable_of_mem_writeCode {letter : Char} (hletter : isPrintable letter = true)
    (width n : Nat) (hc : c ∈ writeCode letter width n) : isPrintable c = true := by
  simp only [writeCode, List.mem_cons] at hc
  rcases hc with rfl | rfl | hc
  · decide
  · exact hletter
  · exact isPrintable_of_mem_hexDigits width n hc

theorem isPrintable_of_mem_writeDoubleChar {d : Char} (hc : c ∈ writeDoubleChar d) :
    isPrintable c = true := by
  unfold writeDoubleChar at hc
  cases hletter : escapeLetter d with
  | some letter =>
      simp only [hletter, List.mem_cons, List.not_mem_nil, or_false] at hc
      rcases hc with rfl | rfl
      · decide
      · exact (unescapeLetter_of_escapeLetter hletter).2.2.2
  | none =>
      simp only [hletter] at hc
      split at hc
      · rw [List.mem_singleton.mp hc]
        assumption
      · split at hc
        · exact isPrintable_of_mem_writeCode (by decide) _ _ hc
        · split at hc
          · exact isPrintable_of_mem_writeCode (by decide) _ _ hc
          · exact isPrintable_of_mem_writeCode (by decide) _ _ hc

theorem isPrintable_of_mem_marks (hc : c ∈ indentationMark t ∨ c ∈ chompingMark t) :
    isPrintable c = true := by
  rcases hc with hc | hc
  · rcases indentationMark_eq t with hmark | hmark
    · rw [hmark] at hc
      cases hc
    · rw [hmark, List.mem_singleton] at hc
      rw [hc]
      decide
  · unfold chompingMark at hc
    split at hc
    · rw [List.mem_singleton.mp hc]
      decide
    · split at hc
      · rw [List.mem_singleton.mp hc]
        decide
      · split at hc
        · rw [List.mem_singleton.mp hc]
          decide
        · split at hc
          · rw [List.mem_singleton.mp hc]
            decide
          · cases hc

/-- Whatever the text, only printable characters are written for it. -/
theorem isPrintable_of_mem_writeValue (hc : c ∈ writeValue t) : isPrintable c = true := by
  unfold writeValue at hc
  rcases styleOf_cases t with ⟨hstyle, _, hallows⟩ | ⟨hstyle, _, hallows⟩ | ⟨hstyle, _, hallows⟩
    | hstyle
  · simp only [hstyle, List.mem_append, List.mem_cons] at hc
    rcases hc with ((rfl | hc) | hc) | rfl | hc
    · decide
    · exact isPrintable_of_mem_marks (Or.inl hc)
    · exact isPrintable_of_mem_marks (Or.inr hc)
    · decide
    · exact isPrintable_of_mem_writeLiteral (printable_of_allowsLiteral hallows) true hc
  · simp only [hstyle, List.mem_append, List.mem_singleton] at hc
    rcases hc with hc | rfl
    · exact (plainTail_of_allowsPlain hallows).printable c hc
    · decide
  · simp only [hstyle, List.mem_append, List.mem_cons, List.not_mem_nil, or_false] at hc
    rcases hc with (rfl | hc) | rfl | rfl
    · decide
    · exact isPrintable_of_mem_writeSingle (printable_of_allowsSingle hallows) false hc
    · decide
    · decide
  · simp only [hstyle, List.mem_append, List.mem_cons, List.not_mem_nil, or_false,
      List.mem_flatMap] at hc
    rcases hc with (rfl | ⟨d, _, hc⟩) | rfl | rfl
    · decide
    · exact isPrintable_of_mem_writeDoubleChar hc
    · decide
    · decide

/-! ## Printable texts are readable as they are -/

theorem isReadable_of_isPrintable (h : isPrintable c = true) : isReadable c = true := by
  simp only [isPrintable, Bool.or_eq_true, Bool.and_eq_true, beq_iff_eq, decide_eq_true_eq] at h
  simp only [isReadable, Bool.or_eq_true, Bool.and_eq_true, beq_iff_eq, decide_eq_true_eq]
  rcases h with ((h | h) | h) | h
  · exact Or.inl (Or.inl (Or.inl (Or.inl (Or.inl (Or.inr h)))))
  · exact Or.inl (Or.inl (Or.inr h))
  · exact Or.inl (Or.inr h.1)
  · exact Or.inr h

/-- The line ends of a printable text are uniform already. -/
theorem lines_of_printable (ht : ∀ c ∈ t, isPrintable c = true) : lines t = t := by
  induction t with
  | nil => rfl
  | cons c t ih =>
      have hc : isPrintable c = true := ht c (by simp)
      have hreturn : c ≠ '\r' := ne_of_class hc (by decide)
      have hnext : c ≠ nextLine := ne_of_class hc (by decide)
      have hrest : lines t = t := ih fun d hd => ht d (by simp [hd])
      have hcons : lines (c :: t) = (if c == '\r' || c == nextLine then '\n' else c) :: lines t :=
        lines.eq_3 c t fun _ hfalse => absurd hfalse hreturn
      rw [hcons, hrest]
      simp [hreturn, hnext]

/-- A printable text is admitted as it is. -/
theorem Lexeme.ofText?_of_printable (ht : ∀ c ∈ t, isPrintable c = true) :
    Lexeme.ofText? t = Lexer.run {} t := by
  have hreadable : t.all isReadable = true :=
    List.all_eq_true.mpr fun c hc => isReadable_of_isPrintable (ht c hc)
  rw [Lexeme.ofText?, if_pos hreadable, lines_of_printable ht]

/-- Entries are printable if their keys are words and their values are printable. -/
theorem isPrintable_of_mem_entries {es : List Entry}
    (hkey : ∀ e ∈ es, ∀ c ∈ e.key, isWordChar c = true)
    (hwritten : ∀ e ∈ es, ∀ c ∈ e.written, isPrintable c = true)
    (hc : c ∈ es.flatMap Entry.chars) : isPrintable c = true := by
  obtain ⟨e, he, hc⟩ := List.mem_flatMap.mp hc
  simp only [Entry.chars, List.mem_append, List.mem_cons] at hc
  rcases hc with hc | rfl | rfl | hc
  · exact isPrintable_of_isWordChar (hkey e he c hc)
  · decide
  · decide
  · exact hwritten e he c hc

/-! ## The mapping -/

/-- The key of an entry and the text that its value stands for, as nodes. -/
def Entry.node (e : Entry) : Node × Node :=
  (.scalar true e.key, .scalar e.isPlain e.text)

/-- The lexemes of an entry add it to the mapping around it. -/
theorem Builder.run_entry (e : Entry) (acc : List (Node × Node)) (xs : List Lexeme) :
    Builder.run { frames := [.blockMapping acc .keyMark] } (e.lexemes ++ xs)
      = Builder.run { frames := [.blockMapping (e.node :: acc) .keyMark] } xs := rfl

/-- The lexemes of entries are built into a mapping with the entries in their order. -/
theorem Builder.run_entries (es : List Entry) (acc : List (Node × Node)) :
    Builder.run { frames := [.blockMapping acc .keyMark] } (es.flatMap Entry.lexemes ++ [.blockEnd])
      = some { progress := .complete (.mapping (acc.reverse ++ es.map Entry.node)) } := by
  induction es generalizing acc with
  | nil =>
      rw [List.map_nil, List.append_nil]
      rfl
  | cons e es ih =>
      rw [List.flatMap_cons, List.append_assoc, Builder.run_entry, ih, List.reverse_cons,
        List.append_assoc, List.singleton_append, List.map_cons]

/-- A document of legible entries is read as the mapping of their keys to their texts. -/
theorem Node.ofText?_entries (e : Entry) (es : List Entry) (hes : ∀ f ∈ e :: es, f.Legible)
    (hwritten : ∀ f ∈ e :: es, ∀ c ∈ f.written, isPrintable c = true) :
    Node.ofText? ((e :: es).flatMap Entry.chars) = some (.mapping ((e :: es).map Entry.node)) := by
  have hchars : ∀ c ∈ (e :: es).flatMap Entry.chars, isPrintable c = true := fun c hc =>
    isPrintable_of_mem_entries (fun f hf => (hes f hf).key_char) hwritten hc
  -- The text is cut into the lexemes of its entries.
  have hlexemes : Lexeme.ofText? ((e :: es).flatMap Entry.chars)
      = some (.blockMappingStart :: ((e :: es).flatMap Entry.lexemes ++ [.blockEnd])) := by
    rw [Lexeme.ofText?_of_printable hchars, run_document e es hes]
  have hbuilt : Builder.run {} (.blockMappingStart :: ((e :: es).flatMap Entry.lexemes ++ [.blockEnd]))
      = some { progress := .complete (.mapping ((e :: es).map Entry.node)) } :=
    Builder.run_entries (e :: es) []
  calc
    Node.ofText? ((e :: es).flatMap Entry.chars)
        = Node.ofLexemes? (.blockMappingStart :: ((e :: es).flatMap Entry.lexemes ++ [.blockEnd])) := by
          rw [Node.ofText?, hlexemes, Option.bind_some]
    _ = some (.mapping ((e :: es).map Entry.node)) := by
          rw [Node.ofLexemes?, hbuilt, Option.bind_some]
          rfl

/-- A document of entries is no node if one of their keys is too long. -/
theorem Node.ofText?_late {es later : List Entry} {e : Entry} (hes : ∀ f ∈ es, f.Legible)
    (hkey : ∀ f ∈ es ++ e :: later, ∀ c ∈ f.key, isWordChar c = true)
    (hwritten : ∀ f ∈ es ++ e :: later, ∀ c ∈ f.written, isPrintable c = true)
    (hlate : maxKeyLength < e.key.length) :
    Node.ofText? ((es ++ e :: later).flatMap Entry.chars) = none := by
  have hlexemes : Lexeme.ofText? ((es ++ e :: later).flatMap Entry.chars) = none := by
    rw [Lexeme.ofText?_of_printable fun c hc => isPrintable_of_mem_entries hkey hwritten hc,
      List.flatMap_append, List.flatMap_cons, Entry.chars, List.append_assoc]
    exact run_document_late es hes (hkey e (by simp)) hlate (e.written ++ later.flatMap Entry.chars)
  rw [Node.ofText?, hlexemes, Option.bind_none]

end Yaml
end SearchBox
