import SearchBox.Proofs.Settings

/-!
# Settings that are written by hand

A document of settings need not be one that the search box has written.  People spell the limit in
other ways, leave an entry out, put entries in another order, and add some of their own.

* `ofText_withLimit` — a limit is read exactly or refused, however it is spelled;
* `ofText_document` — entries in any order are read with defaults for those that are left out, unless
  a known key stands there twice;
* `document_long_key` — a key that is no concern of the search box can still be too long.
-/

namespace SearchBox
namespace Settings

open Yaml

/-! ## Other spellings of the limit -/

/-- A limit is read exactly or refused.  Up to the largest number of 64 bits it is the number that
is spelled; zero is refused for what it is, and what is larger is malformed. -/
theorem ofText_withLimit {field : String} {spelling : List Char} {n : Nat}
    (hfield : Text.isBlank field = false) (hn : IsSpelling spelling n) :
    (1 ≤ n → n ≤ 2 ^ 64 - 1 →
        ∃ s, ofText (withLimit field spelling) = .ok s
          ∧ s.defaultField = field ∧ s.maxOperators.toNat = n)
      ∧ (n = 0 →
        ∃ e, ofText (withLimit field spelling) = .error e
          ∧ e.message = "max_operators must be greater than 0")
      ∧ (2 ^ 64 ≤ n → ofText (withLimit field spelling) = .error .malformed) := by
  have hsize : UInt64.size = 2 ^ 64 := rfl
  have hdecode := decode_withLimit field hn
  refine ⟨fun hpos hle => ?_, fun hzero => ?_, fun hlarge => ?_⟩
  · have hlt : n < UInt64.size := by omega
    have hvalue : (UInt64.ofNat n).toNat = n := UInt64.toNat_ofNat_of_lt hlt
    have hlimit : UInt64.ofNat n ≠ 0 := by
      intro hfalse
      rw [hfalse, UInt64.toNat_zero] at hvalue
      omega
    refine ⟨⟨field, UInt64.ofNat n⟩, ?_, rfl, hvalue⟩
    rw [ofText, hdecode, if_pos hlt]
    simp [checked, validate, hfield, hlimit, Except.map]
  · subst hzero
    refine ⟨.noOperators, ?_, rfl⟩
    rw [ofText, hdecode, if_pos (by decide)]
    simp [checked, validate, hfield, Except.map]
  · have hge : ¬ n < UInt64.size := by omega
    rw [ofText, hdecode, if_neg hge]

/-- A sign, a mark and digits of either case. -/
theorem ofText_withLimit_hexadecimal :
    Text.isBlank "a" = false ∧ IsSpelling "+0x0fF".toList 255
      ∧ ∃ s, ofText (withLimit "a" "+0x0fF".toList) = .ok s
          ∧ s.defaultField = "a" ∧ s.maxOperators.toNat = 255 := by
  have hfield : Text.isBlank "a" = false := by decide
  have hspelling : IsSpelling "+0x0fF".toList 255 := by
    refine .plus (.hexadecimal ⟨List.cons_ne_nil _ _, [0, 15, 15], ?_, by decide⟩)
    exact .cons ⟨by decide, by decide⟩
      (.cons ⟨by decide, by decide⟩ (.cons ⟨by decide, by decide⟩ .nil))
  exact ⟨hfield, hspelling,
    (ofText_withLimit hfield hspelling).1 (by decide) (by decide)⟩

/-! ## Entries in any order -/

/-- An entry that is no concern of the search box. -/
structure Further where
  key : List Char
  value : List Char
  key_ne : key ≠ []
  key_char : ∀ c ∈ key, (c.isAlpha || c == '_') = true
  key_unknown : key ≠ fieldKey ∧ key ≠ limitKey
  value_ne : value ≠ []
  value_char : ∀ c ∈ value, c.isAlphanum = true
  deriving DecidableEq

/-- What an entry is about. -/
inductive Item where
  | field
  | limit
  | further (e : Further)
  deriving DecidableEq

namespace Item

def key : Item → List Char
  | field => fieldKey
  | limit => limitKey
  | further e => e.key

/-- The value of an entry as it is written, with the end of its last line.  The known values are
those of settings, as they are saved. -/
def written (s : Settings) : Item → List Char
  | field => writeValue s.defaultField.toList
  | limit => Nat.toDigits 10 s.maxOperators.toNat ++ ['\n']
  | further e => e.value ++ ['\n']

end Item

/-- A document with the values of settings in some entries, one after the other. -/
def document (s : Settings) (items : List Item) : String :=
  String.ofList (items.flatMap fun i => i.key ++ ':' :: ' ' :: i.written s)

/-- The settings that are given by entries, with defaults where there is no entry. -/
def given (s : Settings) (items : List Item) : Settings where
  defaultField := if .field ∈ items then s.defaultField else "description"
  maxOperators := if .limit ∈ items then s.maxOperators else 512

variable {s : Settings} {isPlain : Bool} {items : List Item}

/-! ### Their characters -/

namespace Item

/-- An entry with what its value stands for. -/
def entry (s : Settings) (isPlain : Bool) : Item → Entry
  | field => s.fieldEntry isPlain
  | limit => s.limitEntry
  | further e => Entry.plain e.key e.value

theorem chars_entry (i : Item) :
    (i.entry s isPlain).chars = i.key ++ ':' :: ' ' :: i.written s := by
  cases i with
  | field => rfl
  | limit => rfl
  | further e => rfl

theorem key_entry (i : Item) : (i.entry s isPlain).key = i.key := by
  cases i with
  | field => rfl
  | limit => rfl
  | further e => rfl

theorem isWordChar_of_mem_key (i : Item) : ∀ c ∈ i.key, isWordChar c = true := by
  cases i with
  | field => exact isWordChar_of_mem_fieldKey
  | limit => exact isWordChar_of_mem_limitKey
  | further e =>
      intro c hc
      have hchar := e.key_char c hc
      simp only [Bool.or_eq_true] at hchar
      simp only [isWordChar, Char.isAlphanum, Bool.or_eq_true]
      exact hchar.imp_left Or.inl

theorem isOrdinary_of_mem_value (e : Further) : ∀ c ∈ e.value, IsOrdinary c := fun c hc =>
  isOrdinary_of_isWordChar (by simp [isWordChar, e.value_char c hc])

theorem isPrintable_of_mem_written (i : Item) :
    ∀ c ∈ (i.entry s isPlain).written, isPrintable c = true := by
  cases i with
  | field => exact fun c hc => isPrintable_of_mem_writeValue hc
  | limit => exact isPrintable_of_mem_spelling (isSpelling_toDigits s.maxOperators.toNat)
  | further e => exact fun c hc => isPrintable_of_mem_line (isOrdinary_of_mem_value e) hc

/-- An entry can be read if its key is not too long. -/
theorem legible_entry (i : Item)
    (hspells : Spells (writeValue s.defaultField.toList) isPlain s.defaultField.toList)
    (hlength : i.key.length ≤ maxKeyLength) : (i.entry s isPlain).Legible := by
  cases i with
  | field => exact s.legible_fieldEntry hspells
  | limit => exact legible_spelling (isSpelling_toDigits s.maxOperators.toNat)
  | further e =>
      exact Entry.legible_plain e.key_ne (isWordChar_of_mem_key (.further e)) hlength e.value_ne
        (isOrdinary_of_mem_value e)

end Item

theorem document_eq (s : Settings) (items : List Item) (isPlain : Bool) :
    (document s items).toList = (items.map (Item.entry s isPlain)).flatMap Entry.chars := by
  rw [document, String.toList_ofList, List.flatMap_map]
  simp only [Item.chars_entry]

/-! ### What they say -/

/-- Whether something has been said that an entry is about. -/
def Partial.has (p : Partial) : Item → Bool
  | .field => p.field.isSome
  | .limit => p.limit.isSome
  | .further _ => false

/-- What is said with one more entry. -/
def Partial.take (s : Settings) (p : Partial) : Item → Partial
  | .field => { p with field := some s.defaultField }
  | .limit => { p with limit := some s.maxOperators }
  | .further _ => p

/-- An entry is taken into account unless it repeats what has been said. -/
theorem add_entry (p : Partial) (i : Item) :
    p.add (i.entry s isPlain).node = if p.has i then none else some (p.take s i) := by
  cases i with
  | field =>
      have hvalue : fieldOf? (s.fieldEntry isPlain).node.2 = some s.defaultField :=
        fieldOf?_scalar isPlain s.defaultField
      refine (add_scalar p true fieldKey (s.fieldEntry isPlain).node.2).trans ?_
      rw [hvalue, if_pos rfl]
      rfl
  | limit =>
      have hvalue : limitOf? s.limitEntry.node.2 = some s.maxOperators :=
        limitOf?_toDigits s.maxOperators
      refine (add_scalar p true limitKey s.limitEntry.node.2).trans ?_
      rw [hvalue, if_neg (by decide), if_pos rfl]
      rfl
  | further e =>
      refine (add_scalar p true e.key (.scalar true e.value)).trans ?_
      rw [if_neg e.key_unknown.1, if_neg e.key_unknown.2]
      rfl

/-- Entries are taken into account one by one.  What they say is said if none of them repeats what
another one says or what has been said before. -/
theorem addAll_items (s : Settings) (isPlain : Bool) (items : List Item) (p : Partial) :
    p.addAll (items.map fun i => (i.entry s isPlain).node)
      = if p.field.toList.length + items.count .field ≤ 1
          ∧ p.limit.toList.length + items.count .limit ≤ 1 then
          some ⟨if .field ∈ items then some s.defaultField else p.field,
            if .limit ∈ items then some s.maxOperators else p.limit⟩
        else none := by
  induction items generalizing p with
  | nil =>
      have hfield : p.field.toList.length ≤ 1 := Option.length_toList_le
      have hlimit : p.limit.toList.length ≤ 1 := Option.length_toList_le
      simp [Partial.addAll, hfield, hlimit]
  | cons i items ih =>
      rw [List.map_cons, Partial.addAll, add_entry]
      cases i with
      | field =>
          cases hfield : p.field with
          | some f => simp [Partial.has, hfield]
          | none => simp [Partial.has, Partial.take, hfield, ih]
      | limit =>
          cases hlimit : p.limit with
          | some n => simp [Partial.has, hlimit]
          | none => simp [Partial.has, Partial.take, hlimit, ih]
      | further e => simp [Partial.has, Partial.take, ih]

/-! ### What is read -/

/-- With keys that are not too long, a document is decoded unless it repeats a known key. -/
theorem decode_document (hshort : ∀ i ∈ items, i.key.length ≤ maxKeyLength) :
    decode (document s items)
      = if items.count .field ≤ 1 ∧ items.count .limit ≤ 1 then some (given s items) else none := by
  obtain ⟨isPlain, hspells⟩ := spells_writeValue s.defaultField.toList
  have hlegible : ∀ e ∈ items.map (Item.entry s isPlain), e.Legible := by
    intro e he
    obtain ⟨i, hi, rfl⟩ := List.mem_map.mp he
    exact i.legible_entry hspells (hshort i hi)
  have hwritten : ∀ e ∈ items.map (Item.entry s isPlain), ∀ c ∈ e.written,
      isPrintable c = true := by
    intro e he
    obtain ⟨i, _, rfl⟩ := List.mem_map.mp he
    exact i.isPrintable_of_mem_written
  have hall := addAll_items s isPlain items {}
  rw [decode_entries (document_eq s items isPlain) hlegible hwritten, List.map_map]
  refine (congrArg (Option.map Partial.fill) hall).trans ?_
  simp only [Option.toList_none, List.length_nil, Nat.zero_add]
  split
  · -- What is said by no entry is filled in.
    simp only [Option.map_some, Partial.fill, given, apply_ite_left Option.getD, Option.getD_some,
      Option.getD_none]
  · rfl

/-- A key that is too long spoils the document, whatever else is in it. -/
theorem decode_document_late {i : Item} (hi : i ∈ items) (hlate : maxKeyLength < i.key.length) :
    decode (document s items) = none := by
  obtain ⟨isPlain, hspells⟩ := spells_writeValue s.defaultField.toList
  -- Up to the first key that is too long the entries are read.
  have hsome : (items.find? fun i => maxKeyLength < i.key.length).isSome :=
    List.find?_isSome.mpr ⟨i, hi, by simpa using hlate⟩
  obtain ⟨first, hfirst⟩ := Option.isSome_iff_exists.mp hsome
  obtain ⟨hlong, before, after, rfl, hbefore⟩ := List.find?_eq_some_iff_append.mp hfirst
  have hlegible : ∀ e ∈ before.map (Item.entry s isPlain), e.Legible := by
    intro e he
    obtain ⟨j, hj, rfl⟩ := List.mem_map.mp he
    have hshort := hbefore j hj
    exact j.legible_entry hspells (by simpa using hshort)
  have hentries : ∀ e ∈ before.map (Item.entry s isPlain)
      ++ first.entry s isPlain :: after.map (Item.entry s isPlain),
      (∀ c ∈ e.key, isWordChar c = true) ∧ ∀ c ∈ e.written, isPrintable c = true := by
    intro e he
    rw [← List.map_cons, ← List.map_append] at he
    obtain ⟨j, _, rfl⟩ := List.mem_map.mp he
    refine ⟨?_, j.isPrintable_of_mem_written⟩
    rw [j.key_entry]
    exact j.isWordChar_of_mem_key
  have hkey : maxKeyLength < (first.entry s isPlain).key.length := by
    rw [first.key_entry]
    simpa using hlong
  rw [decode, document_eq s _ isPlain, List.map_append, List.map_cons,
    Node.ofText?_late hlegible (fun e he => (hentries e he).1) (fun e he => (hentries e he).2) hkey,
    Option.bind_none]

/-- Entries stand in any order, among others that are no concern of the search box.  What they give
is answered as settings are, with defaults for what is left out.  But a known key must stand there
only once, and no key may be longer than the distance from which a colon can follow it. -/
theorem ofText_document (s : Settings) (items : List Item) :
    (items.count .field ≤ 1 → items.count .limit ≤ 1 →
        (∀ i ∈ items, i.key.length ≤ maxKeyLength) →
        ofText (document s items) = match validate (given s items) with
          | .ok () => .ok (given s items)
          | .error e => .error e)
      ∧ (2 ≤ items.count .field ∨ 2 ≤ items.count .limit →
        ofText (document s items) = .error .malformed)
      ∧ ((∃ i ∈ items, maxKeyLength < i.key.length) →
        ofText (document s items) = .error .malformed) := by
  have hspoilt : (∃ i ∈ items, maxKeyLength < i.key.length) →
      ofText (document s items) = .error .malformed := by
    rintro ⟨i, hi, hlate⟩
    rw [ofText, decode_document_late hi hlate]
  refine ⟨fun hfield hlimit hshort => ?_, fun hrepeated => ?_, hspoilt⟩
  · rw [ofText, decode_document hshort, if_pos ⟨hfield, hlimit⟩]
    cases hvalid : validate (given s items) with
    | ok _ => simp [checked, hvalid, Except.map]
    | error e => simp [checked, hvalid, Except.map]
  · by_cases hlong : ∃ i ∈ items, maxKeyLength < i.key.length
    · exact hspoilt hlong
    · have hshort : ∀ i ∈ items, i.key.length ≤ maxKeyLength := fun i hi =>
        Nat.le_of_not_lt fun hlate => hlong ⟨i, hi, hlate⟩
      have hnot : ¬ (items.count .field ≤ 1 ∧ items.count .limit ≤ 1) := by omega
      rw [ofText, decode_document hshort, if_neg hnot]

/-- An entry whose key is one character too long. -/
def longEntry : Further where
  key := List.replicate 1025 'a'
  value := ['1']
  key_ne := List.cons_ne_nil _ _
  key_char := by
    intro c hc
    rw [List.eq_of_mem_replicate hc]
    decide
  key_unknown := by
    have hne : ∀ k : List Char, k.length ≠ 1025 → List.replicate 1025 'a' ≠ k := by
      rintro _ hk rfl
      exact hk List.length_replicate
    exact ⟨hne fieldKey (by decide), hne limitKey (by decide)⟩
  value_ne := List.cons_ne_nil _ _
  value_char := by
    intro c hc
    rw [List.mem_singleton.mp hc]
    decide

/-- Not every document is read that repeats no known key: a longer key than a colon can follow is
malformed, even if the entry is no concern of the search box. -/
theorem document_long_key :
    ¬ ∀ (s : Settings) (items : List Item), items.count .field ≤ 1 → items.count .limit ≤ 1 →
      ofText (document s items) = match validate (given s items) with
        | .ok () => .ok (given s items)
        | .error e => .error e := by
  intro hread
  have hlate : maxKeyLength < (Item.further longEntry).key.length := by
    have hlength : (Item.further longEntry).key.length = 1025 := List.length_replicate
    rw [hlength]
    decide
  have hmalformed : ofText (document {} [.further longEntry]) = .error .malformed := by
    rw [ofText, decode_document_late (List.mem_singleton_self _) hlate]
  -- The entry says nothing, and the defaults are accepted.
  have hgiven : given {} [.further longEntry] = {} := by
    simp [given]
  have hanswer := hread {} [.further longEntry] (by simp) (by simp)
  rw [hmalformed, hgiven, validate_default] at hanswer
  cases hanswer

end Settings
end SearchBox
