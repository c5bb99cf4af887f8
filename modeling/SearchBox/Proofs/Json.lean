import SearchBox.Json.Reader
import SearchBox.Query.Json

/-!
# JSON text is read back

The compact text of a value is read back as that value, whatever comes after it in the text.  From
the inside out:

* `readString_flatMap_escapeChar` — a string ends at its own closing quote;
* `readNat_toDigits` — a number ends where its digits do;
* `readValue_writeOnto` — values, with the lists of items and members inside them;
* `Query.ofJson?_toJson` — a query is read from its value;
* `Query.compact_determines` — so the text of a query determines it.

Two numbers in a row would run together, so what follows a number must not be a digit; all other
values have an end of their own.
-/

namespace SearchBox
namespace Json

variable {c : Char} {n fuel : Nat} {rest text : List Char}

/-! ## Strings -/

/-- A character is read back from its four digits. -/
theorem charOfDigits_hexDigits (h : c.toNat < 0x20) :
    ∃ d₁ d₂ d₃ d₄, Text.hexDigits 4 c.toNat = [d₁, d₂, d₃, d₄]
      ∧ charOfDigits d₁ d₂ d₃ d₄ = some c := by
  have hvalue : ∀ m, Text.hexValue (Nat.digitChar (m % 16)) = some (m % 16) := fun m =>
    Text.hexValue_digitChar (Nat.mod_lt m (by decide))
  -- Four digits are enough, so no leading digit is lost.
  have hsum : ((c.toNat / 16 / 16 / 16 % 16 * 16 + c.toNat / 16 / 16 % 16) * 16
      + c.toNat / 16 % 16) * 16 + c.toNat % 16 = c.toNat := by omega
  have hvalid : c.toNat.isValidChar := c.valid
  refine ⟨_, _, _, _, rfl, ?_⟩
  simp only [charOfDigits, hvalue, hsum, if_pos hvalid, Char.ofNat_toNat]

theorem readString_unicode {d₁ d₂ d₃ d₄ : Char} (h : charOfDigits d₁ d₂ d₃ d₄ = some c)
    (rest : List Char) :
    readString ('\\' :: 'u' :: d₁ :: d₂ :: d₃ :: d₄ :: rest)
      = (readString rest).map fun p => (c :: p.1, p.2) := by
  rw [readString, h]
  cases readString rest <;> rfl

theorem readString_letter {d : Char} (h : unescapeLetter d = some c) (rest : List Char) :
    readString ('\\' :: d :: rest) = (readString rest).map fun p => (c :: p.1, p.2) := by
  -- A `u` would begin a code point, but it stands for no character by itself.
  have hne : d ≠ 'u' := by
    rintro rfl
    cases h
  rw [readString]
  · rw [h]
    cases readString rest <;> rfl
  · rintro _ _ _ _ _ rfl
    exact absurd rfl hne

theorem readString_plain (hquote : c ≠ '"') (hback : c ≠ '\\') (hcontrol : ¬ c.toNat < 0x20)
    (rest : List Char) :
    readString (c :: rest) = (readString rest).map fun p => (c :: p.1, p.2) := by
  rw [readString]
  · simp [hback, hcontrol]
  · exact hquote
  · exact fun _ _ _ _ _ h => absurd h hback
  · exact fun _ _ h => absurd h hback

/-- A character is written as a letter behind a backslash, by its code point, or as it is. -/
theorem escapeChar_cases (c : Char) :
    (∃ d, escapeChar c = ['\\', d] ∧ unescapeLetter d = some c)
      ∨ (c.toNat < 0x20 ∧ escapeChar c = '\\' :: 'u' :: Text.hexDigits 4 c.toNat)
      ∨ ((c ≠ '"' ∧ c ≠ '\\' ∧ ¬ c.toNat < 0x20) ∧ escapeChar c = [c]) := by
  by_cases hshort : c ∈ ['"', '\\', '\x08', '\x0c', '\n', '\r', '\t']
  · simp only [List.mem_cons, List.not_mem_nil, or_false] at hshort
    rcases hshort with rfl | rfl | rfl | rfl | rfl | rfl | rfl
    all_goals exact Or.inl ⟨_, rfl, rfl⟩
  · simp only [List.mem_cons, List.not_mem_nil, or_false, not_or] at hshort
    by_cases hcontrol : c.toNat < 0x20
    · exact Or.inr (Or.inl ⟨hcontrol, by simp [escapeChar, hshort, hcontrol]⟩)
    · exact Or.inr (Or.inr ⟨⟨hshort.1, hshort.2.1, hcontrol⟩, by simp [escapeChar, hshort, hcontrol]⟩)

/-- However a character is written, it is read back. -/
theorem readString_escapeChar (c : Char) (rest : List Char) :
    readString (escapeChar c ++ rest) = (readString rest).map fun p => (c :: p.1, p.2) := by
  rcases escapeChar_cases c with ⟨d, hwritten, hletter⟩ | ⟨hcontrol, hwritten⟩ | ⟨hne, hwritten⟩
  · rw [hwritten]
    exact readString_letter hletter rest
  · obtain ⟨d₁, d₂, d₃, d₄, hdigits, hchar⟩ := charOfDigits_hexDigits hcontrol
    rw [hwritten, hdigits]
    exact readString_unicode hchar rest
  · rw [hwritten]
    exact readString_plain hne.1 hne.2.1 hne.2.2 rest

/-- A written string is read up to its closing quote. -/
theorem readString_flatMap_escapeChar (s rest : List Char) :
    readString (s.flatMap escapeChar ++ '"' :: rest) = some (s, rest) := by
  induction s with
  | nil =>
      rw [List.flatMap_nil, List.nil_append, readString]
  | cons c s ih =>
      rw [List.flatMap_cons, List.append_assoc, readString_escapeChar, ih]
      rfl

/-! ## Numbers -/

theorem natOfDigits_eq (ds : List Char) : natOfDigits ds = Nat.ofDigitChars 10 ds 0 := by
  simp only [natOfDigits, Nat.ofDigitChars, Nat.mul_comm]

/-- The text does not go on with a digit. -/
def EndsDigits (rest : List Char) : Prop :=
  ∀ c, rest.head? = some c → c.isDigit = false

theorem endsDigits_cons (h : c.isDigit = false) : EndsDigits (c :: rest) := by
  intro d hd
  cases hd
  exact h

theorem isDigit_of_mem_toDigits (n : Nat) : ∀ c ∈ Nat.toDigits 10 n, c.isDigit = true :=
  fun _ hc => Nat.isDigit_of_mem_toDigits (by decide) (by decide) hc

/-- A written number is read up to its last digit. -/
theorem readNat_toDigits (n : Nat) (h : EndsDigits rest) :
    readNat (Nat.toDigits 10 n ++ rest) = some (n, rest) := by
  have htake : (Nat.toDigits 10 n ++ rest).takeWhile Char.isDigit = Nat.toDigits 10 n := by
    rw [List.takeWhile_append_of_pos (isDigit_of_mem_toDigits n)]
    cases rest with
    | nil => simp
    | cons c rest => simp [h c rfl]
  have hdrop : (Nat.toDigits 10 n ++ rest).dropWhile Char.isDigit = rest := by
    rw [List.dropWhile_append_of_pos (isDigit_of_mem_toDigits n)]
    cases rest with
    | nil => rfl
    | cons c rest => simp [h c rfl]
  have hsome : (Nat.toDigits 10 n).isEmpty = false := by simp [Nat.toDigits_ne_nil]
  rw [readNat, htake, hdrop, natOfDigits_eq, Nat.ofDigitChars_ten_toDigits]
  simp [hsome]

/-- What begins with a digit is a number. -/
theorem readValue_digit (hc : c.isDigit = true) (text : List Char) :
    readValue (fuel + 1) (c :: text)
      = (readNat (c :: text)).map fun p => (.nat p.1, p.2) := by
  rw [readValue]
  all_goals
    rintro _ ⟨⟩
    cases hc

/-! ## How much fuel a value takes -/

mutual

/-- How many steps it takes to read a value. -/
def cost : Json → Nat
  | .nat _ => 1
  | .str _ => 1
  | .arr items => costOfItems items + 1
  | .obj members => costOfMembers members + 1

def costOfItems : List Json → Nat
  | [] => 0
  | v :: vs => cost v + costOfItems vs + 1

def costOfMembers : List (String × Json) → Nat
  | [] => 0
  | (_, v) :: ms => cost v + costOfMembers ms + 1

end

mutual

/-- A value takes no more steps than it has characters. -/
theorem cost_le_length : (v : Json) → (rest : List Char) →
    cost v + rest.length ≤ (v.writeOnto rest).length
  | .nat n, rest => by
      have hpos : 0 < (Nat.toDigits 10 n).length := List.length_pos_iff.2 Nat.toDigits_ne_nil
      rw [cost, writeOnto, List.length_append]
      omega
  | .str s, rest => by
      rw [cost, writeOnto, strOnto, List.length_cons, List.length_append, List.length_cons]
      omega
  | .arr items, rest => by
      have hitems := costOfItems_le_length items (']' :: rest)
      rw [cost, writeOnto, List.length_cons]
      rw [List.length_cons] at hitems
      omega
  | .obj members, rest => by
      have hmembers := costOfMembers_le_length members ('\x7d' :: rest)
      rw [cost, writeOnto, List.length_cons]
      rw [List.length_cons] at hmembers
      omega

/-- The steps between items are paid for by the commas, and the last one by what ends the list. -/
theorem costOfItems_le_length : (vs : List Json) → (rest : List Char) →
    costOfItems vs + rest.length ≤ (writeItemsOnto vs rest).length + 1
  | [], rest => by
      rw [costOfItems, writeItemsOnto]
      omega
  | v :: [], rest => by
      have hv := cost_le_length v rest
      rw [costOfItems, costOfItems, writeItemsOnto]
      omega
  | v :: w :: vs, rest => by
      have hv := cost_le_length v (',' :: writeItemsOnto (w :: vs) rest)
      have hvs := costOfItems_le_length (w :: vs) rest
      rw [List.length_cons] at hv
      rw [costOfItems, writeItemsOnto]
      omega

theorem costOfMembers_le_length : (ms : List (String × Json)) → (rest : List Char) →
    costOfMembers ms + rest.length ≤ (writeMembersOnto ms rest).length + 1
  | [], rest => by
      rw [costOfMembers, writeMembersOnto]
      omega
  | (k, v) :: [], rest => by
      have hv := cost_le_length v rest
      rw [costOfMembers, costOfMembers, writeMembersOnto, strOnto, List.length_cons,
        List.length_append, List.length_cons, List.length_cons]
      omega
  | (k, v) :: m :: ms, rest => by
      have hv := cost_le_length v (',' :: writeMembersOnto (m :: ms) rest)
      have hms := costOfMembers_le_length (m :: ms) rest
      rw [List.length_cons] at hv
      rw [costOfMembers, writeMembersOnto, strOnto, List.length_cons, List.length_append,
        List.length_cons, List.length_cons]
      omega

end

/-! ## Values -/

/-- What may come after a value: after a number, no digit. -/
def MayFollow (rest : List Char) : Json → Prop
  | .nat _ => EndsDigits rest
  | _ => True

theorem mayFollow_of_endsDigits (h : EndsDigits rest) (v : Json) : MayFollow rest v := by
  cases v with
  | nat n => exact h
  | str s => trivial
  | arr items => trivial
  | obj members => trivial

/-- No value begins with a bracket that ends a list. -/
theorem writeOnto_ne_bracket (v : Json) (rest text : List Char) : v.writeOnto rest ≠ ']' :: text := by
  cases v with
  | nat n =>
      obtain ⟨d, ds, hdigits⟩ := List.exists_cons_of_ne_nil (Nat.toDigits_ne_nil (b := 10) (n := n))
      have hd := isDigit_of_mem_toDigits n d (by rw [hdigits]; simp)
      rw [writeOnto, hdigits]
      rintro ⟨⟩
      cases hd
  | str s => simp [writeOnto, strOnto]
  | arr items => simp [writeOnto]
  | obj members => simp [writeOnto]

theorem writeItemsOnto_ne_bracket (v : Json) (vs : List Json) (rest text : List Char) :
    writeItemsOnto (v :: vs) rest ≠ ']' :: text := by
  cases vs with
  | nil => exact writeOnto_ne_bracket v _ _
  | cons w vs => exact writeOnto_ne_bracket v _ _

theorem writeMembersOnto_ne_brace (m : String × Json) (ms : List (String × Json))
    (rest text : List Char) : writeMembersOnto (m :: ms) rest ≠ '\x7d' :: text := by
  cases ms with
  | nil => simp [writeMembersOnto, strOnto]
  | cons m' ms => simp [writeMembersOnto, strOnto]

mutual

/-- With fuel enough, a written value is read back, and what comes after it is left. -/
theorem readValue_writeOnto : (v : Json) → (fuel : Nat) → (rest : List Char) →
    cost v ≤ fuel → MayFollow rest v → readValue fuel (v.writeOnto rest) = some (v, rest)
  | v, 0, _, hfuel, _ => by
      cases v <;> simp [cost] at hfuel
  | .nat n, fuel + 1, rest, _, hrest => by
      obtain ⟨d, ds, hdigits⟩ := List.exists_cons_of_ne_nil (Nat.toDigits_ne_nil (b := 10) (n := n))
      have hd := isDigit_of_mem_toDigits n d (by rw [hdigits]; simp)
      have hread := readNat_toDigits n hrest
      rw [writeOnto]
      rw [hdigits, List.cons_append] at hread ⊢
      rw [readValue_digit hd, hread]
      rfl
  | .str s, fuel + 1, rest, _, _ => by
      rw [writeOnto, strOnto, readValue, readString_flatMap_escapeChar]
      simp
  | .arr [], fuel + 1, rest, _, _ => by
      rw [writeOnto, writeItemsOnto, readValue]
  | .arr (v :: vs), fuel + 1, rest, hfuel, _ => by
      -- The items are not taken for an empty array, since none of them begins with a bracket.
      rw [cost] at hfuel
      have hitems := readItems_writeItemsOnto (v :: vs) (by simp) fuel rest
        (Nat.le_of_succ_le_succ hfuel)
      rw [writeOnto, readValue, hitems]
      · rfl
      · exact fun text h => writeItemsOnto_ne_bracket v vs _ text h
  | .obj [], fuel + 1, rest, _, _ => by
      rw [writeOnto, writeMembersOnto, readValue]
  | .obj (m :: ms), fuel + 1, rest, hfuel, _ => by
      rw [cost] at hfuel
      have hmembers := readMembers_writeMembersOnto (m :: ms) (by simp) fuel rest
        (Nat.le_of_succ_le_succ hfuel)
      rw [writeOnto, readValue, hmembers]
      · rfl
      · exact fun text h => writeMembersOnto_ne_brace m ms _ text h

theorem readItems_writeItemsOnto : (vs : List Json) → vs ≠ [] → (fuel : Nat) → (rest : List Char) →
    costOfItems vs ≤ fuel → readItems fuel (writeItemsOnto vs (']' :: rest)) = some (vs, rest)
  | v :: vs, _, 0, _, hfuel => by
      simp [costOfItems] at hfuel
  | v :: [], _, fuel + 1, rest, hfuel => by
      -- A bracket or a comma follows every item, so numbers end where they should.
      rw [costOfItems] at hfuel
      have hv := readValue_writeOnto v fuel (']' :: rest) (by omega)
        (mayFollow_of_endsDigits (endsDigits_cons rfl) v)
      rw [writeItemsOnto, readItems, hv]
      rfl
  | v :: w :: vs, _, fuel + 1, rest, hfuel => by
      rw [costOfItems] at hfuel
      have hv := readValue_writeOnto v fuel (',' :: writeItemsOnto (w :: vs) (']' :: rest))
        (by omega)
        (mayFollow_of_endsDigits (endsDigits_cons rfl) v)
      have hvs := readItems_writeItemsOnto (w :: vs) (by simp) fuel rest (by omega)
      rw [writeItemsOnto, readItems, hv]
      simp only [hvs, Option.map_some]

theorem readMembers_writeMembersOnto : (ms : List (String × Json)) → ms ≠ [] → (fuel : Nat) →
    (rest : List Char) → costOfMembers ms ≤ fuel →
      readMembers fuel (writeMembersOnto ms ('\x7d' :: rest)) = some (ms, rest)
  | (k, v) :: ms, _, 0, _, hfuel => by
      simp [costOfMembers] at hfuel
  | (k, v) :: [], _, fuel + 1, rest, hfuel => by
      rw [costOfMembers] at hfuel
      have hv := readValue_writeOnto v fuel ('\x7d' :: rest) (by omega)
        (mayFollow_of_endsDigits (endsDigits_cons rfl) v)
      rw [writeMembersOnto, strOnto, readMembers, readString_flatMap_escapeChar]
      simp only [hv, String.ofList_toList]
  | (k, v) :: m :: ms, _, fuel + 1, rest, hfuel => by
      rw [costOfMembers] at hfuel
      have hv := readValue_writeOnto v fuel (',' :: writeMembersOnto (m :: ms) ('\x7d' :: rest))
        (by omega)
        (mayFollow_of_endsDigits (endsDigits_cons rfl) v)
      have hms := readMembers_writeMembersOnto (m :: ms) (by simp) fuel rest (by omega)
      rw [writeMembersOnto, strOnto, readMembers, readString_flatMap_escapeChar]
      simp only [hv, hms, Option.map_some, String.ofList_toList]

end

/-! ## The text of a value -/

theorem strOnto_append (s : String) (rest text : List Char) :
    strOnto s (rest ++ text) = strOnto s rest ++ text := by
  simp [strOnto]

mutual

/-- What comes after a value is only put behind it. -/
theorem writeOnto_append : (v : Json) → (rest text : List Char) →
    v.writeOnto (rest ++ text) = v.writeOnto rest ++ text
  | .nat n, rest, text => by rw [writeOnto, writeOnto, List.append_assoc]
  | .str s, rest, text => by rw [writeOnto, writeOnto, strOnto_append]
  | .arr items, rest, text => by
      rw [writeOnto, writeOnto, List.cons_append, ← writeItemsOnto_append]
      rfl
  | .obj members, rest, text => by
      rw [writeOnto, writeOnto, List.cons_append, ← writeMembersOnto_append]
      rfl

theorem writeItemsOnto_append : (vs : List Json) → (rest text : List Char) →
    writeItemsOnto vs (rest ++ text) = writeItemsOnto vs rest ++ text
  | [], _, _ => rfl
  | v :: [], rest, text => writeOnto_append v rest text
  | v :: w :: vs, rest, text => by
      rw [writeItemsOnto, writeItemsOnto, writeItemsOnto_append (w :: vs), ← writeOnto_append v]
      rfl

theorem writeMembersOnto_append : (ms : List (String × Json)) → (rest text : List Char) →
    writeMembersOnto ms (rest ++ text) = writeMembersOnto ms rest ++ text
  | [], _, _ => rfl
  | (k, v) :: [], rest, text => by
      rw [writeMembersOnto, writeMembersOnto, writeOnto_append v, ← strOnto_append]
      rfl
  | (k, v) :: m :: ms, rest, text => by
      rw [writeMembersOnto, writeMembersOnto, writeMembersOnto_append (m :: ms), ← strOnto_append,
        List.cons_append, ← writeOnto_append v]
      rfl

end

/-- The text of a value is read back, with all that comes after it left over. -/
theorem read?_compact_append (v : Json) (rest : String) (h : MayFollow rest.toList v) :
    read? (v.compact ++ rest) = some (v, rest.toList) := by
  have htext : (v.compact ++ rest).toList = v.writeOnto rest.toList := by
    rw [compact, String.toList_append, String.toList_ofList, ← writeOnto_append, List.nil_append]
  have hfuel : cost v ≤ (v.writeOnto rest.toList).length :=
    Nat.le_trans (Nat.le_add_right _ _) (cost_le_length v rest.toList)
  rw [read?, htext]
  exact readValue_writeOnto v _ _ hfuel h

end Json

namespace Query

/-! ## Queries -/

mutual

/-- A query is read from its value. -/
theorem ofJson?_toJson : (q : Query) → ofJson? q.toJson = some q
  | .term f t => by rw [toJson, ofJson?]
  | .phrase f t => by rw [toJson, ofJson?]
  | .group .and cs => by rw [toJson, ofJson?, clausesOfJson?_clausesToJson, Option.map_some]
  | .group .or cs => by rw [toJson, ofJson?, clausesOfJson?_clausesToJson, Option.map_some]

theorem clausesOfJson?_clausesToJson :
    (cs : List Query) → clausesOfJson? (clausesToJson cs) = some cs
  | [] => rfl
  | c :: cs => by
      rw [clausesToJson, clausesOfJson?, ofJson?_toJson c, clausesOfJson?_clausesToJson cs]

end

/-- Queries are objects, so anything may come after them. -/
theorem mayFollow_toJson (q : Query) (rest : List Char) : Json.MayFollow rest q.toJson := by
  cases q with
  | term f t => trivial
  | phrase f t => trivial
  | group op cs => cases op <;> trivial

/-- The text of a query is read back as its value, whatever comes after it, and with nothing left
over if nothing does; the value is read back as the query.  So two queries with the same text are the
same. -/
theorem compact_determines :
    (∀ (q : Query) (rest : String),
        Json.read? (q.toJson.compact ++ rest) = some (q.toJson, rest.toList))
      ∧ (∀ q : Query, Json.read? q.toJson.compact = some (q.toJson, [])
          ∧ ofJson? q.toJson = some q)
      ∧ ∀ p q : Query, p.toJson.compact = q.toJson.compact → p = q := by
  have hread : ∀ (q : Query) (rest : String),
      Json.read? (q.toJson.compact ++ rest) = some (q.toJson, rest.toList) := fun q rest =>
    Json.read?_compact_append q.toJson rest (q.mayFollow_toJson rest.toList)
  have halone : ∀ q : Query, Json.read? q.toJson.compact = some (q.toJson, []) := by
    intro q
    have hnone := hread q ""
    rwa [String.append_empty] at hnone
  refine ⟨hread, fun q => ⟨halone q, q.ofJson?_toJson⟩, ?_⟩
  intro p q htext
  -- The text is read as one value only, and the value as one query.
  have hvalue : p.toJson = q.toJson := by
    have hp := halone p
    rw [htext, halone q] at hp
    exact (Prod.mk.inj (Option.some.inj hp)).1.symm
  have hp := p.ofJson?_toJson
  rw [hvalue, q.ofJson?_toJson] at hp
  exact (Option.some.inj hp).symm

end Query
end SearchBox
