import SearchBox.Proofs.Yaml.Document
import SearchBox.Proofs.Yaml.Integer
import SearchBox.Settings.Text

/-!
# Settings are read back as they were written

Settings are written as a document of two entries.  This file puts together what is known of such
documents:

* `Settings.decode_entries` — what is decoded from a document of entries is what they say;
* `Settings.decode_withLimit` — of a field and a limit, the limit may be spelled in other ways too;
* `Settings.decode_toText` — settings are decoded from their text;
* `Settings.ofText_toText` — the text of settings is answered as the settings themselves are.

No field name has a say in this: whatever it holds, its entry ends before the limit begins.
-/

namespace SearchBox
namespace Settings

open Yaml

/-! ## The entries of settings -/

/-- The key of the default field. -/
def fieldKey : List Char := "default_field".toList

/-- The key of the number of operators. -/
def limitKey : List Char := "max_operators".toList

/-- The entry for the default field. -/
def fieldEntry (s : Settings) (isPlain : Bool) : Entry where
  key := fieldKey
  written := writeValue s.defaultField.toList
  isPlain := isPlain
  text := s.defaultField.toList

/-- The entry for the number of operators. -/
def limitEntry (s : Settings) : Entry where
  key := limitKey
  written := Nat.toDigits 10 s.maxOperators.toNat ++ ['\n']
  isPlain := true
  text := Nat.toDigits 10 s.maxOperators.toNat

variable {spelling : List Char} {n : Nat}

theorem isWordChar_of_mem_fieldKey : ∀ c ∈ fieldKey, isWordChar c = true :=
  List.all_eq_true.mp (by decide)

theorem isWordChar_of_mem_limitKey : ∀ c ∈ limitKey, isWordChar c = true :=
  List.all_eq_true.mp (by decide)

theorem legible_fieldEntry (s : Settings) {isPlain : Bool}
    (h : Spells (writeValue s.defaultField.toList) isPlain s.defaultField.toList) :
    (s.fieldEntry isPlain).Legible where
  key_ne := (by decide : fieldKey ≠ [])
  key_char := isWordChar_of_mem_fieldKey
  key_length := (by decide : fieldKey.length ≤ maxKeyLength)
  spells := h

/-- A limit can be read in every spelling. -/
theorem legible_spelling (h : IsSpelling spelling n) : (Entry.plain limitKey spelling).Legible :=
  Entry.legible_plain (by decide) isWordChar_of_mem_limitKey (by decide) h.ne_nil
    fun _ hc => h.isOrdinary hc

/-- Only printable characters are written for a limit. -/
theorem isPrintable_of_mem_spelling (h : IsSpelling spelling n) :
    ∀ c ∈ spelling ++ ['\n'], isPrintable c = true := fun _ hc =>
  isPrintable_of_mem_line (fun _ hd => h.isOrdinary hd) hc

/-! ## What the entries say -/

variable {p : Partial} {isPlain : Bool} {value : Node}

/-- What an entry says depends on its key. -/
theorem add_scalar (p : Partial) (isPlain : Bool) (key : List Char) (value : Node) :
    p.add (.scalar isPlain key, value)
      = if key = fieldKey then
          if p.field.isSome then none else (fieldOf? value).map fun f => { p with field := some f }
        else if key = limitKey then
          if p.limit.isSome then none else (limitOf? value).map fun n => { p with limit := some n }
        else some p := rfl

/-- The first entry for the field is taken over. -/
theorem add_fieldKey (h : p.field = none) :
    p.add (.scalar isPlain fieldKey, value)
      = (fieldOf? value).map fun f => { p with field := some f } := by
  simp only [add_scalar, if_true, h, Option.isSome_none, Bool.false_eq_true, if_false]

/-- The first entry for the limit is taken over. -/
theorem add_limitKey (h : p.limit = none) :
    p.add (.scalar isPlain limitKey, value)
      = (limitOf? value).map fun n => { p with limit := some n } := by
  have hne : limitKey ≠ fieldKey := by decide
  simp only [add_scalar, hne, if_true, h, Option.isSome_none, Bool.false_eq_true, if_false]

/-- A limit is read from its spellings if it has no more than 64 bits. -/
theorem limitOf?_of_isSpelling (h : IsSpelling spelling n) :
    limitOf? (.scalar true spelling)
      = if n < UInt64.size then some (UInt64.ofNat n) else none := by
  simp only [limitOf?, natOf?_of_isSpelling h]

/-- A limit is read back from its decimal digits. -/
theorem limitOf?_toDigits (n : UInt64) :
    limitOf? (.scalar true (Nat.toDigits 10 n.toNat)) = some n := by
  have hsize : n.toNat < UInt64.size := n.toNat_lt
  rw [limitOf?_of_isSpelling (isSpelling_toDigits n.toNat), if_pos hsize, UInt64.ofNat_toNat]

/-- A field name is taken over as it is. -/
theorem fieldOf?_scalar (isPlain : Bool) (field : String) :
    fieldOf? (.scalar isPlain field.toList) = some field := by
  simp only [fieldOf?, String.ofList_toList]

/-! ## Documents of entries -/

/-- Settings are decoded from a document of entries as the entries say.  With no entry there is
nothing in the document, and nothing is said. -/
theorem decode_entries {text : String} {es : List Entry}
    (htext : text.toList = es.flatMap Entry.chars) (hes : ∀ e ∈ es, e.Legible)
    (hwritten : ∀ e ∈ es, ∀ c ∈ e.written, isPrintable c = true) :
    decode text = (Partial.addAll {} (es.map Entry.node)).map Partial.fill := by
  rw [decode, htext]
  cases es with
  | nil => rfl
  | cons e es =>
      rw [Node.ofText?_entries e es hes hwritten, Option.bind_some]
      rfl

/-- A document with a field as it is saved and a limit in some spelling. -/
def withLimit (field : String) (spelling : List Char) : String :=
  String.ofList ("default_field: ".toList ++ writeValue field.toList
    ++ "max_operators: ".toList ++ spelling ++ ['\n'])

theorem withLimit_eq (s : Settings) (spelling : List Char) (isPlain : Bool) :
    (withLimit s.defaultField spelling).toList
      = [s.fieldEntry isPlain, Entry.plain limitKey spelling].flatMap Entry.chars := by
  have hfield : "default_field: ".toList = fieldKey ++ [':', ' '] := by decide
  have hlimit : "max_operators: ".toList = limitKey ++ [':', ' '] := by decide
  have htext : (withLimit s.defaultField spelling).toList
      = "default_field: ".toList ++ writeValue s.defaultField.toList ++ "max_operators: ".toList
        ++ spelling ++ ['\n'] := String.toList_ofList
  rw [htext, hfield, hlimit]
  simp only [fieldEntry, Entry.plain, Entry.chars, List.flatMap_cons, List.flatMap_nil,
    List.append_assoc, List.cons_append, List.nil_append, List.append_nil]

/-- The field is decoded whatever it is called.  The limit is decoded up to 64 bits; a larger one
spoils the document. -/
theorem decode_withLimit (field : String) (h : IsSpelling spelling n) :
    decode (withLimit field spelling)
      = if n < UInt64.size then some ⟨field, UInt64.ofNat n⟩ else none := by
  -- The style of the field name is of no consequence, since any scalar is taken for it.
  obtain ⟨isPlain, hspells⟩ := spells_writeValue field.toList
  let s : Settings := { defaultField := field }
  have hlegible : ∀ e ∈ [s.fieldEntry isPlain, Entry.plain limitKey spelling], e.Legible := by
    simp only [List.forall_mem_cons, List.not_mem_nil, false_implies, implies_true, and_true]
    exact ⟨s.legible_fieldEntry hspells, legible_spelling h⟩
  have hwritten : ∀ e ∈ [s.fieldEntry isPlain, Entry.plain limitKey spelling], ∀ c ∈ e.written,
      isPrintable c = true := by
    simp only [List.forall_mem_cons, List.not_mem_nil, false_implies, implies_true, and_true]
    exact ⟨fun _ hc => isPrintable_of_mem_writeValue hc, isPrintable_of_mem_spelling h⟩
  have hfield : Partial.add {} (s.fieldEntry isPlain).node = some ⟨some field, none⟩ :=
    (add_fieldKey rfl).trans (by rw [fieldEntry, fieldOf?_scalar]; rfl)
  have hlimit : Partial.add ⟨some field, none⟩ (Entry.plain limitKey spelling).node
      = if n < UInt64.size then some ⟨some field, some (UInt64.ofNat n)⟩ else none := by
    refine (add_limitKey rfl).trans ?_
    rw [Entry.plain, limitOf?_of_isSpelling h]
    split
    · rfl
    · rfl
  rw [decode_entries (s.withLimit_eq spelling isPlain) hlegible hwritten]
  simp only [List.map_cons, List.map_nil, Partial.addAll, s, hfield, hlimit, Option.bind_some]
  split
  · rfl
  · rfl

/-! ## The round trip -/

/-- Accepted settings have a character in the field that is no white space, and allow an operator. -/
theorem validate_eq_ok_iff (s : Settings) :
    validate s = .ok ()
      ↔ (∃ c ∈ s.defaultField.toList, Text.isWhiteSpace c = false) ∧ 1 ≤ s.maxOperators.toNat := by
  have hblank : Text.isBlank s.defaultField = false
      ↔ ∃ c ∈ s.defaultField.toList, Text.isWhiteSpace c = false := by
    simp [Text.isBlank]
  have hzero : s.maxOperators ≠ 0 ↔ 1 ≤ s.maxOperators.toNat := by
    rw [Nat.one_le_iff_ne_zero, Ne, Ne, ← UInt64.toNat_inj]
    rfl
  rw [← hblank, ← hzero]
  unfold validate
  cases Text.isBlank s.defaultField with
  | true => simp
  | false =>
      by_cases h : s.maxOperators = 0
      · simp [h]
      · simp [h]

/-- Validation never finds fault with a text. -/
theorem validate_ne_malformed (s : Settings) : validate s ≠ .error .malformed := by
  unfold validate
  split
  · intro hfalse
    cases hfalse
  · split
    · intro hfalse
      cases hfalse
    · intro hfalse
      cases hfalse

/-- Settings are decoded from their text, accepted or not. -/
theorem decode_toText (s : Settings) : decode s.toText = some s := by
  have hsize : s.maxOperators.toNat < UInt64.size := s.maxOperators.toNat_lt
  have htext : s.toText = withLimit s.defaultField (Nat.toDigits 10 s.maxOperators.toNat) := rfl
  rw [htext, decode_withLimit s.defaultField (isSpelling_toDigits s.maxOperators.toNat),
    if_pos hsize, UInt64.ofNat_toNat]

/-- What is read from the text of settings is what validation says of them. -/
theorem ofText_eq_checked (s : Settings) : ofText s.toText = s.checked := by
  rw [ofText, s.decode_toText]

theorem ofText_of_validate {s : Settings} (h : validate s = .ok ()) : ofText s.toText = .ok s := by
  rw [ofText_eq_checked, checked, h]
  rfl

/-- Only settings that are accepted are read from a text. -/
theorem validate_of_ofText {s : Settings} {text : String} (h : ofText text = .ok s) :
    validate s = .ok () := by
  unfold ofText at h
  cases hdecode : decode text with
  | none =>
      rw [hdecode] at h
      cases h
  | some u =>
      rw [hdecode] at h
      cases hvalid : validate u with
      | error e =>
          simp only [checked, hvalid, Except.map] at h
          cases h
      | ok _ =>
          simp only [checked, hvalid, Except.map] at h
          cases h
          exact hvalid

/-- The text that settings are saved with is answered as the settings themselves are: if they are
accepted it gives them back, and if not it fails as they do.  It is never malformed, whatever the
field is called. -/
theorem ofText_toText (s : Settings) :
    ofText s.toText = (match validate s with
      | .ok () => .ok s
      | .error e => .error e)
      ∧ ofText s.toText ≠ .error .malformed := by
  rw [ofText_eq_checked, checked]
  cases hvalid : validate s with
  | ok _ => exact ⟨rfl, fun hfalse => by cases hfalse⟩
  | error e =>
      refine ⟨rfl, fun hmalformed => ?_⟩
      -- Validation has two complaints, and neither of them is about the text.
      have he : e = .malformed := by
        cases hmalformed
        rfl
      rw [he] at hvalid
      exact validate_ne_malformed s hvalid

end Settings
end SearchBox
