import SearchBox.Proofs.Pieces
import SearchBox.Proofs.Range
import SearchBox.Proofs.Spacing
import SearchBox.Proofs.Stretches

/-!
# Terms without text

A term without text looks for nothing, and whoever runs a query takes it for no search at all.  This
file says exactly when a query has one:

* `EndsInLoneBackslash` — the last token is a backslash by itself, and no word stands before it;
* `tokenize_eq_nil_iff` — a text without tokens has separators only;
* `isEmptyTerm_leaf` — of all blocks of tokens, only a lone backslash makes a term without text;
* `exists_emptyTerm_iff` — which queries have a term without text, and that it is their last leaf.

Phrases without text are not meant: they are written by two quotes, wherever one likes.
-/

namespace SearchBox

namespace Token

variable {text : List Char}

/-- A text without tokens has separators only. -/
theorem tokenize_eq_nil_iff : tokenize text = [] ↔ ∀ c ∈ text, Text.isSeparator c = true := by
  constructor
  · intro hnil
    induction text with
    | nil =>
        intro c hc
        cases hc
    | cons d rest ih =>
        rw [List.forall_mem_cons]
        cases hsep : Text.isSeparator d with
        | true =>
            have hskip := tokenize_separators (w := [d]) (by simp [hsep]) rest
            exact ⟨rfl, ih (hskip.symm.trans hnil)⟩
        | false =>
            -- Any other character is in a token.
            have hstay : (Lexer.start.run []).breaksAt d = false := by
              simp [Lexer.breaksAt, hsep]
            obtain ⟨t, later, htokens, _⟩ := exists_isTokenAt hstay rest
            rw [List.nil_append, hnil] at htokens
            simp at htokens
  · intro h
    have hnone := tokenize_separators h []
    rw [List.append_nil] at hnone
    rw [hnone]
    rfl

end Token

namespace Query

open Grammar Token

variable {field : String} {ts a : List Token} {k : Block}

/-- A term that looks for nothing. -/
def isEmptyTerm : Query → Bool
  | .term _ text => text == ""
  | _ => false

/-- The last token is a lone backslash, and it is the only token or stands right behind an operator
or a phrase. -/
def EndsInLoneBackslash (ts : List Token) : Prop :=
  ∃ older, ts = older ++ [['\\']]
    ∧ (older = [] ∨ ∃ before t, older = before ++ [t] ∧ (isOperator t = true ∨ kind t = .phrase))

/-! ## Blocks without text -/

/-- A list ends in no word if it is empty or its last token is an operator or a phrase. -/
theorem endsRun_reverse_iff :
    EndsRun a.reverse
      ↔ a = [] ∨ ∃ before t, a = before ++ [t] ∧ (isOperator t = true ∨ kind t = .phrase) := by
  constructor
  · intro h
    rcases List.eq_nil_or_concat a with rfl | ⟨before, t, rfl⟩
    · exact Or.inl rfl
    · rw [List.concat_eq_append, List.reverse_concat] at h
      have hword : isWord t = false := h t rfl
      refine Or.inr ⟨before, t, List.concat_eq_append, ?_⟩
      cases hkind : kind t with
      | word =>
          rw [isWord_of_kind hkind] at hword
          cases hword
      | phrase => exact Or.inr rfl
      | operator op => exact Or.inl (isOperator_of_kind hkind)
  · rintro (rfl | ⟨before, t, rfl, ht⟩)
    · simp [EndsRun]
    · rw [List.reverse_concat]
      apply endsRun_cons
      intro hword
      rcases ht with hop | hphrase
      · simp [isOperator, hword, Kind.isOperator] at hop
      · rw [hword] at hphrase
        cases hphrase

/-- Of all blocks, only a lone backslash makes a term without text. -/
theorem isEmptyTerm_leaf (field : String) (hk : IsBlock ts k) (hts : Lexed ts) :
    (k.leaf field).isEmptyTerm = true ↔ k.tokens = [['\\']] := by
  cases hk with
  | @words before run after hcut hne hrun _ _ =>
      rw [Block.leaf_words field hrun]
      constructor
      · intro hempty
        obtain ⟨w, ws, rfl⟩ := List.exists_cons_of_ne_nil hne
        have hw : w ≠ [] := hts.ne_nil w (by simp [hcut])
        have hterm : ofWords field (w :: ws) = .term field "" := by
          rw [ofWords, eq_of_beq hempty]
        obtain ⟨rfl, rfl⟩ := eq_lone_of_ofWords_eq_empty hw hterm
        rfl
      · rintro rfl
        rfl
  | @phrase before after t _ ht =>
      rw [Block.leaf_phrase field ht]
      constructor
      · intro hfalse
        cases hfalse
      · intro hlone
        rw [List.singleton_inj.1 hlone] at ht
        cases ht

/-- Unless the tokens end in a lone backslash, no leaf is a term without text. -/
theorem full_leaf (field : String) (hts : Lexed ts) (hend : ¬ EndsInLoneBackslash ts) :
    ∀ k ∈ blocks ts, (k.leaf field).isEmptyTerm = false := by
  intro k hk
  have hblock := isBlock_of_mem_blocks ts k hk
  rw [← Bool.not_eq_true, isEmptyTerm_leaf field hblock hts]
  intro hlone
  apply hend
  cases hblock with
  | @words before run after hcut _ _ hbefore _ =>
      -- A lone backslash can only be the last token.
      have hrun : run = [['\\']] := hlone
      have hafter : after = [] := by
        by_contra hne
        rw [← List.append_assoc] at hcut
        rw [hcut] at hts
        exact (hts.left hne).2 ['\\'] (by simp [hrun]) rfl
      rw [hrun, hafter, List.append_nil] at hcut
      exact ⟨before, hcut, endsRun_reverse_iff.1 hbefore⟩
  | @phrase before after t _ ht =>
      rw [List.singleton_inj.1 hlone] at ht
      cases ht

/-- A lone backslash at the end is a block of its own. -/
theorem map_leaf_of_lone (field : String) (ha : EndsRun a.reverse) :
    (blocks (a ++ [['\\']])).map (Block.leaf field)
      = (blocks a).map (Block.leaf field) ++ [.term field ""] := by
  have hlone : blocks [['\\']] = [⟨[['\\']], []⟩] := by
    rw [blocks_word rfl]
    simp
  rw [blocks_append a _ (Or.inl ha), hlone, List.map_append, List.map_map]
  rfl

/-- Behind tokens that do not end in a word, a lone backslash makes the last leaf, and the only one
that is a term without text. -/
theorem full_leaf_of_lone (field : String) (hts : Lexed (a ++ [['\\']])) :
    ∀ k ∈ blocks a, (k.leaf field).isEmptyTerm = false := by
  obtain ⟨hlexed, hlone⟩ := hts.left (List.cons_ne_nil _ _)
  refine full_leaf field hlexed ?_
  rintro ⟨older, rfl, _⟩
  exact hlone ['\\'] (by simp) rfl

end Query

namespace Settings

open Query Token

variable {s : Settings} {text : String}

/-! ## Searches -/

/-- Within the limit, the leaves of a query are those of the blocks of tokens, if there are any. -/
theorem leaves_query_eq_map_blocks (field : String)
    (hlimit : operatorsIn text ≤ s.maxOperators.toNat) (hne : tokenize text.toList ≠ []) :
    (s.query field text).leaves = (blocks (tokenize text.toList)).map (Block.leaf field) := by
  rw [leaves_query field hlimit hne, pieces, map_leaf_blocks]

/-- A text of separators has one leaf, which is a term without text. -/
theorem leaves_query_of_separators (s : Settings) (field : String)
    (hblank : ∀ c ∈ text.toList, Text.isSeparator c = true) :
    (s.query field text).leaves = [.term field ""] := by
  have htokens := tokenize_eq_nil_iff.2 hblank
  have hlimit : operatorsIn text ≤ s.maxOperators.toNat := by
    rw [operatorsIn, htokens]
    exact Nat.zero_le _
  rw [query_of_operatorsIn_le field hlimit, htokens, readClauses_eq_nil.2 rfl]
  rfl

/-- A text that ends in a lone backslash has a term without text as its last leaf, and nowhere
else. -/
theorem leaves_query_of_lone (field : String) (hlimit : operatorsIn text ≤ s.maxOperators.toNat)
    (hend : EndsInLoneBackslash (tokenize text.toList)) :
    ∃ older, (s.query field text).leaves = older ++ [.term field ""]
      ∧ ∀ q ∈ older, q.isEmptyTerm = false := by
  obtain ⟨a, htokens, ha⟩ := hend
  have hlexed := lexed_tokenize text.toList
  have hne : tokenize text.toList ≠ [] := by simp [htokens]
  refine ⟨(blocks a).map (Block.leaf field), ?_, ?_⟩
  · rw [leaves_query_eq_map_blocks field hlimit hne, htokens,
      map_leaf_of_lone field (endsRun_reverse_iff.2 ha)]
  · rw [htokens] at hlexed
    rw [List.forall_mem_map]
    exact full_leaf_of_lone field hlexed

/-- Within the limit, a text with tokens that does not end in a lone backslash has no term without
text. -/
theorem full_leaves_query (field : String) (hlimit : operatorsIn text ≤ s.maxOperators.toNat)
    (hne : tokenize text.toList ≠ []) (hend : ¬ EndsInLoneBackslash (tokenize text.toList)) :
    ∀ q ∈ (s.query field text).leaves, q.isEmptyTerm = false := by
  rw [leaves_query_eq_map_blocks field hlimit hne, List.forall_mem_map]
  exact full_leaf field (lexed_tokenize text.toList) hend

/-- Above the limit a text is searched for as it stands, and it is not empty. -/
theorem full_leaves_query_of_lt (field : String) (hlimit : s.maxOperators.toNat < operatorsIn text) :
    ∀ q ∈ (s.query field text).leaves, q.isEmptyTerm = false := by
  have hne : text ≠ "" := by
    rintro rfl
    exact absurd hlimit (Nat.not_lt_zero _)
  rw [query_of_lt_operatorsIn field hlimit, leaves, List.forall_mem_singleton]
  simpa [isEmptyTerm] using hne

/-- A query has a term without text exactly if its text has separators only, or is within the limit
and ends in a lone backslash that is the only token or stands right behind an operator or a phrase.
Then that term is the last leaf and no other leaf is one.  A text above the limit never has one. -/
theorem exists_emptyTerm_iff (s : Settings) (field text : String) :
    ((∃ q ∈ (s.query field text).leaves, q.isEmptyTerm = true) ↔
        (∀ c ∈ text.toList, Text.isSeparator c = true)
          ∨ (operatorsIn text ≤ s.maxOperators.toNat
            ∧ EndsInLoneBackslash (tokenize text.toList)))
      ∧ ((∃ q ∈ (s.query field text).leaves, q.isEmptyTerm = true) →
          ∃ older, (s.query field text).leaves = older ++ [.term field ""]
            ∧ ∀ q ∈ older, q.isEmptyTerm = false)
      ∧ (s.maxOperators.toNat < operatorsIn text →
          ∀ q ∈ (s.query field text).leaves, q.isEmptyTerm = false) := by
  -- Each case has such a term as its only one in the last place, or has none.
  have hlast : (∀ c ∈ text.toList, Text.isSeparator c = true)
      ∨ (operatorsIn text ≤ s.maxOperators.toNat ∧ EndsInLoneBackslash (tokenize text.toList)) →
        ∃ older, (s.query field text).leaves = older ++ [.term field ""]
          ∧ ∀ q ∈ older, q.isEmptyTerm = false := by
    rintro (hblank | ⟨hlimit, hend⟩)
    · exact ⟨[], leaves_query_of_separators s field hblank, by simp⟩
    · exact leaves_query_of_lone field hlimit hend
  have hwhen : (∃ q ∈ (s.query field text).leaves, q.isEmptyTerm = true) →
      (∀ c ∈ text.toList, Text.isSeparator c = true)
        ∨ (operatorsIn text ≤ s.maxOperators.toNat
          ∧ EndsInLoneBackslash (tokenize text.toList)) := by
    rintro ⟨q, hq, hempty⟩
    by_contra hneither
    rw [not_or, not_and] at hneither
    have hfull : q.isEmptyTerm = false := by
      rcases Nat.lt_or_ge s.maxOperators.toNat (operatorsIn text) with hlimit | hlimit
      · exact full_leaves_query_of_lt field hlimit q hq
      · have hne := fun hnil => hneither.1 (tokenize_eq_nil_iff.1 hnil)
        exact full_leaves_query field hlimit hne (hneither.2 hlimit) q hq
    rw [hempty] at hfull
    cases hfull
  refine ⟨⟨hwhen, fun h => ?_⟩, fun h => hlast (hwhen h), full_leaves_query_of_lt field⟩
  obtain ⟨older, hleaves, _⟩ := hlast h
  exact ⟨.term field "", by simp [hleaves], rfl⟩

end Settings
end SearchBox
