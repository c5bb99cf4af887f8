import SearchBox.Proofs.Search
import SearchBox.Proofs.Splicing

/-!
# Which queries a search can have

A search box answers with trees of a few shapes only.  This file says which, and shows that each of
them is the answer to some text:

* `OperandsOn` — the leaves that may stand between two operators, or at either end;
* `IsSpine` — groups nested to the right, one for each operator;
* `IsAnswer` — a leaf, several leaves as alternatives, or a spine within the limit.

For the way back a query is written as tokens: every character of a text is escaped, a phrase is
quoted, and a term without text is a lone backslash, which can only be the last token.
-/

namespace SearchBox
namespace Query

open Grammar

variable {field : String} {limit n pairs : Nat} {q : Query} {cs ds : List Query}
variable {t : Token} {ts a b : List Token} {op : Operator}

/-! ## Shapes -/

/-- A leaf on a field. -/
inductive LeafOn (field : String) : Query → Prop where
  | term (text : String) : LeafOn field (.term field text)
  | phrase (text : String) : LeafOn field (.phrase field text)

def isTerm : Query → Bool
  | .term .. => true
  | _ => false

/-- The number of places where a term follows a term. -/
def termPairs : List Query → Nat
  | p :: q :: rest => (if isTerm p && isTerm q then 1 else 0) + termPairs (q :: rest)
  | _ => 0

/-- Leaves on a field, among which a term follows a term in so many places at most, and of which
only the last one may be a term without text. -/
structure OperandsOn (field : String) (pairs : Nat) (cs : List Query) : Prop where
  leaf : ∀ q ∈ cs, LeafOn field q
  apart : termPairs cs ≤ pairs
  full : ∀ q ∈ cs.dropLast, q ≠ .term field ""

/-- So many groups nested to the right.  The operands of the innermost one stand on both sides of
its operator, so there a term may follow a term once. -/
inductive IsSpine (field : String) : Nat → Query → Prop where
  | last (op : Operator) {cs : List Query} : OperandsOn field 1 cs → IsSpine field 1 (.group op cs)
  | cons (op : Operator) {cs : List Query} {n : Nat} {q : Query} :
      OperandsOn field 0 cs → (∀ c ∈ cs, c ≠ .term field "") → IsSpine field n q →
        IsSpine field (n + 1) (.group op (cs ++ [q]))

/-- The queries that searches on a field have if so many operators are allowed. -/
inductive IsAnswer (field : String) (limit : Nat) : Query → Prop where
  | term (text : String) : IsAnswer field limit (.term field text)
  | phrase (text : String) : IsAnswer field limit (.phrase field text)
  | alternatives {cs : List Query} :
      2 ≤ cs.length → OperandsOn field 0 cs → IsAnswer field limit (.group .or cs)
  | spine {n : Nat} {q : Query} : n ≤ limit → IsSpine field n q → IsAnswer field limit q

/-! ## Pairs of terms -/

theorem termPairs_cons_cons (p q : Query) (rest : List Query) :
    termPairs (p :: q :: rest)
      = (if isTerm p && isTerm q then 1 else 0) + termPairs (q :: rest) := rfl

theorem termPairs_cons_of_head {p : Query} (h : ∀ q, cs.head? = some q → isTerm q = false) :
    termPairs (p :: cs) = termPairs cs := by
  cases cs with
  | nil => rfl
  | cons q rest =>
      have hq : isTerm q = false := h q rfl
      simp [termPairs_cons_cons, hq]

theorem termPairs_append_le (cs ds : List Query) :
    termPairs (cs ++ ds) ≤ termPairs cs + termPairs ds + 1 := by
  induction cs with
  | nil => exact Nat.le_succ_of_le (Nat.le_add_left _ _)
  | cons p cs ih =>
      cases cs with
      | nil =>
          cases ds with
          | nil => exact Nat.zero_le _
          | cons q rest =>
              have hpair : (if isTerm p && isTerm q then 1 else 0) ≤ 1 := by split <;> decide
              have hone : termPairs [p] = 0 := rfl
              rw [List.singleton_append, termPairs_cons_cons, hone]
              omega
      | cons p' cs =>
          rw [List.cons_append, List.cons_append, termPairs_cons_cons, termPairs_cons_cons]
          rw [List.cons_append] at ih
          omega

/-- A list with one pair of terms at most can be cut so that no pair is left. -/
theorem exists_cut_of_termPairs (h : termPairs cs ≤ 1) :
    ∃ cs₁ cs₂, cs = cs₁ ++ cs₂ ∧ termPairs cs₁ = 0 ∧ termPairs cs₂ = 0 ∧ (cs₂ = [] → cs₁ = []) := by
  induction cs with
  | nil => exact ⟨[], [], rfl, rfl, rfl, fun _ => rfl⟩
  | cons p cs ih =>
      cases cs with
      | nil => exact ⟨[], [p], rfl, rfl, rfl, fun _ => rfl⟩
      | cons q rest =>
          rw [termPairs_cons_cons] at h
          by_cases hpair : (isTerm p && isTerm q) = true
          · -- The only pair is at the front, so the cut is behind the first term.
            rw [if_pos hpair] at h
            have hrest : termPairs (q :: rest) = 0 := by omega
            exact ⟨[p], q :: rest, rfl, rfl, hrest, fun hnil => by cases hnil⟩
          · rw [if_neg hpair, Nat.zero_add] at h
            obtain ⟨cs₁, cs₂, hcut, h₁, h₂, hne⟩ := ih h
            cases cs₁ with
            | nil =>
                have hall : termPairs (p :: q :: rest) = 0 := by
                  rw [termPairs_cons_cons, if_neg hpair, Nat.zero_add, hcut]
                  exact h₂
                exact ⟨[], p :: q :: rest, rfl, rfl, hall, fun _ => rfl⟩
            | cons q' cs₁ =>
                obtain ⟨rfl, hrest⟩ := List.cons.inj hcut
                refine ⟨p :: q :: cs₁, cs₂, by rw [hcut]; rfl, ?_, h₂, ?_⟩
                · rw [termPairs_cons_cons, if_neg hpair, Nat.zero_add]
                  exact h₁
                · intro hnil
                  cases hne hnil

/-! ## Leaves that are read -/

theorem leafOn_readLeaves (field : String) (ts : List Token) :
    ∀ q ∈ readLeaves field ts, LeafOn field q := by
  induction ts using readLeaves.induct with
  | case1 =>
      intro q hq
      simp at hq
  | case2 t ts hword ih =>
      intro q hq
      rw [readLeaves_cons_of_word hword] at hq
      rcases List.mem_cons.1 hq with rfl | hq
      · exact LeafOn.term _
      · exact ih q hq
  | case3 t ts hword ih =>
      intro q hq
      rw [readLeaves_cons_of_not_word (eq_false_of_ne_true hword)] at hq
      rcases List.mem_cons.1 hq with rfl | hq
      · exact LeafOn.phrase _
      · exact ih q hq

/-- Where no run of words begins, no term is read. -/
theorem head_readLeaves (field : String) (h : EndsRun ts) :
    ∀ q, (readLeaves field ts).head? = some q → isTerm q = false := by
  intro q hq
  cases ts with
  | nil => simp at hq
  | cons t ts =>
      have ht : isWord t = false := h t rfl
      rw [readLeaves_cons_of_not_word ht] at hq
      cases hq
      rfl

theorem termPairs_readLeaves (field : String) (ts : List Token) :
    termPairs (readLeaves field ts) = 0 := by
  induction ts using readLeaves.induct with
  | case1 => simp [termPairs]
  | case2 t ts hword ih =>
      have hhead := head_readLeaves field (endsRun_dropWhile ts)
      rw [readLeaves_cons_of_word hword, termPairs_cons_of_head hhead]
      exact ih
  | case3 t ts hword ih =>
      rw [readLeaves_cons_of_not_word (eq_false_of_ne_true hword)]
      cases hrest : readLeaves field ts with
      | nil => rfl
      | cons q rest =>
          rw [termPairs_cons_cons, ← hrest, ih]
          rfl

/-! ## Terms without text -/

/-- Tokens as a lexer gives them: none is empty, and only the last one can be a lone backslash. -/
structure Lexed (ts : List Token) : Prop where
  ne_nil : ∀ t ∈ ts, t ≠ []
  lone : ∀ t ∈ ts.dropLast, t ≠ ['\\']

theorem mem_dropLast_append_left (hb : b ≠ []) (ht : t ∈ a) : t ∈ (a ++ b).dropLast := by
  rw [List.dropLast_append_of_ne_nil hb]
  exact List.mem_append_left _ ht

theorem mem_dropLast_append_right (ht : t ∈ b.dropLast) : t ∈ (a ++ b).dropLast := by
  have hb : b ≠ [] := by
    rintro rfl
    cases ht
  rw [List.dropLast_append_of_ne_nil hb]
  exact List.mem_append_right _ ht

theorem lexed_nil : Lexed [] where
  ne_nil := by
    intro t ht
    cases ht
  lone := by
    intro t ht
    cases ht

theorem Lexed.right (h : Lexed (a ++ b)) : Lexed b where
  ne_nil := fun t ht => h.ne_nil t (List.mem_append_right a ht)
  lone := fun t ht => h.lone t (mem_dropLast_append_right ht)

theorem Lexed.left (h : Lexed (a ++ b)) (hb : b ≠ []) :
    Lexed a ∧ ∀ t ∈ a, t ≠ ['\\'] := by
  have hlone : ∀ t ∈ a, t ≠ ['\\'] := fun t ht => h.lone t (mem_dropLast_append_left hb ht)
  refine ⟨⟨fun t ht => h.ne_nil t (List.mem_append_left b ht), ?_⟩, hlone⟩
  intro t ht
  exact hlone t (List.dropLast_subset _ ht)

/-- A run of words has no text only if it is a lone backslash. -/
theorem eq_lone_of_ofWords_eq_empty {w : Token} {ws : List Token} (hw : w ≠ [])
    (h : ofWords field (w :: ws) = .term field "") : w = ['\\'] ∧ ws = [] := by
  have htext : Text.unescape ([' '].intercalate (w :: ws)) = [] := by
    have hstr := (Query.term.inj h).2
    simpa using congrArg String.toList hstr
  cases ws with
  | nil =>
      have hone : Text.unescape w = [] := by simpa using htext
      rcases Text.unescape_eq_nil_iff.1 hone with hnil | hlone
      · exact absurd hnil hw
      · exact ⟨hlone, rfl⟩
  | cons v vs =>
      -- Between two words there is a space, which never goes.
      have hspace : ' ' ∈ [' '].intercalate (w :: v :: vs) := by
        rw [List.intercalate_cons_cons]
        simp
      rcases Text.unescape_eq_nil_iff.1 htext with hnil | hlone
      · rw [hnil] at hspace
        cases hspace
      · rw [hlone] at hspace
        simp at hspace

theorem full_readLeaves (field : String) (h : Lexed ts) :
    ∀ q ∈ (readLeaves field ts).dropLast, q ≠ .term field "" := by
  induction ts using readLeaves.induct with
  | case1 =>
      intro q hq
      simp at hq
  | case2 t ts hword ih =>
      have hsplit := cons_eq_run_append t ts
      rw [hsplit] at h
      rw [readLeaves_cons_of_word hword]
      intro q hq
      by_cases hrest : ts.dropWhile isWord = []
      · rw [hrest] at hq
        simp at hq
      · -- Tokens follow the run, so none of its words is a lone backslash.
        have hne : readLeaves field (ts.dropWhile isWord) ≠ [] :=
          fun hnil => hrest (readLeaves_eq_nil.1 hnil)
        rw [List.dropLast_cons_of_ne_nil hne] at hq
        rcases List.mem_cons.1 hq with rfl | hq
        · intro hempty
          have hlone := eq_lone_of_ofWords_eq_empty ((h.left hrest).1.ne_nil t (by simp)) hempty
          exact (h.left hrest).2 t (by simp) hlone.1
        · exact ih h.right q hq
  | case3 t ts hword ih =>
      have hcons : t :: ts = [t] ++ ts := rfl
      rw [hcons] at h
      rw [readLeaves_cons_of_not_word (eq_false_of_ne_true hword)]
      intro q hq
      cases hrest : readLeaves field ts with
      | nil =>
          rw [hrest] at hq
          cases hq
      | cons p rest =>
          rw [hrest, List.dropLast_cons_of_ne_nil (by simp), ← hrest] at hq
          rcases List.mem_cons.1 hq with rfl | hq
          · intro hempty
            cases hempty
          · exact ih h.right q hq

theorem operandsOn_readLeaves (field : String) (h : Lexed ts) :
    OperandsOn field 0 (readLeaves field ts) where
  leaf := leafOn_readLeaves field ts
  apart := Nat.le_of_eq (termPairs_readLeaves field ts)
  full := full_readLeaves field h

/-- Where no token is a lone backslash, no term is without text. -/
theorem full_readLeaves_of_no_lone (field : String) (h : Lexed ts) (hlone : ∀ t ∈ ts, t ≠ ['\\']) :
    ∀ q ∈ readLeaves field ts, q ≠ .term field "" := by
  induction ts using readLeaves.induct with
  | case1 =>
      intro q hq
      simp at hq
  | case2 t ts hword ih =>
      have hsplit := cons_eq_run_append t ts
      rw [readLeaves_cons_of_word hword]
      intro q hq
      rcases List.mem_cons.1 hq with rfl | hq
      · intro hempty
        have heq := eq_lone_of_ofWords_eq_empty (h.ne_nil t (by simp)) hempty
        exact hlone t (by simp) heq.1
      · rw [hsplit] at h hlone
        exact ih h.right (fun u hu => hlone u (List.mem_append_right _ hu)) q hq
  | case3 t ts hword ih =>
      have hcons : t :: ts = [t] ++ ts := rfl
      rw [readLeaves_cons_of_not_word (eq_false_of_ne_true hword)]
      intro q hq
      rcases List.mem_cons.1 hq with rfl | hq
      · intro hempty
        cases hempty
      · rw [hcons] at h
        exact ih h.right (fun u hu => hlone u (by simp [hu])) q hq

/-! ## Spines that are read -/

theorem OperandsOn.append (h₁ : OperandsOn field 0 cs) (hfull : ∀ c ∈ cs, c ≠ .term field "")
    (h₂ : OperandsOn field 0 ds) : OperandsOn field 1 (cs ++ ds) where
  leaf := by
    intro q hq
    rcases List.mem_append.1 hq with hq | hq
    · exact h₁.leaf q hq
    · exact h₂.leaf q hq
  apart := by
    -- Only where the two lists meet can a term follow a term.
    have hle := termPairs_append_le cs ds
    have hcs := h₁.apart
    have hds := h₂.apart
    omega
  full := by
    intro q hq
    by_cases hds : ds = []
    · rw [hds, List.append_nil] at hq
      exact hfull q (List.dropLast_subset _ hq)
    · rw [List.dropLast_append_of_ne_nil hds] at hq
      rcases List.mem_append.1 hq with hq | hq
      · exact hfull q hq
      · exact h₂.full q hq

/-- Tokens with operators are read as one spine with a group for each of them. -/
theorem exists_isSpine (field : String) (ts : List Token) (h : Lexed ts)
    (hop : ¬ OperatorFree ts) :
    ∃ q, readClauses field ts = [q] ∧ IsSpine field (Token.operatorCount ts) q := by
  induction ts using operatorInduction with
  | free ts hfree => exact absurd hfree hop
  | split a t op b ha ht ih =>
      have hleft := h.left (List.cons_ne_nil t b)
      have hright : Lexed b := by
        have hcut : a ++ t :: b = (a ++ [t]) ++ b := by simp
        rw [hcut] at h
        exact h.right
      have hoperands := operandsOn_readLeaves field hleft.1
      have hfull := full_readLeaves_of_no_lone field hleft.1 hleft.2
      rw [readClauses_split field ha ht, operatorCount_split ha ht]
      -- Behind the last operator the operands join the innermost group; else they are a group.
      by_cases hb : OperatorFree b
      · rw [readClauses_of_operatorFree field hb, operatorCount_eq_zero.2 hb]
        exact ⟨_, rfl, IsSpine.last op (hoperands.append hfull (operandsOn_readLeaves field hright))⟩
      · obtain ⟨q, hq, hspine⟩ := ih hright hb
        rw [hq]
        exact ⟨_, rfl, IsSpine.cons op hoperands hfull hspine⟩

/-! ## Every answer has one of the shapes -/

theorem lexed_tokenize (text : List Char) : Lexed (Token.tokenize text) := by
  have hsound := Token.Lexer.sound_run_start text
  have hflush : Lexed (Token.Lexer.start.run text).flush.emitted.reverse := by
    rw [Token.Lexer.flush_emitted]
    -- The token being read comes last, and only it may be a lone backslash.
    split
    · refine ⟨?_, ?_⟩
      · intro t ht
        exact (hsound.emitted_ne t (List.mem_reverse.1 ht)).1
      · intro t ht
        exact (hsound.emitted_ne t (List.mem_reverse.1 (List.dropLast_subset _ ht))).2
    · rename_i hpending
      refine ⟨?_, ?_⟩
      · intro t ht
        rcases List.mem_cons.1 (List.mem_reverse.1 ht) with rfl | ht
        · simpa using hpending
        · exact (hsound.emitted_ne t ht).1
      · intro t ht
        rw [List.reverse_cons, List.dropLast_concat] at ht
        exact (hsound.emitted_ne t (List.mem_reverse.1 ht)).2
  rw [Token.tokenize, Token.Lexer.tokens_eq]
  -- The quote that closes the last token does not touch the ones before it.
  split
  · rcases List.eq_nil_or_concat (Token.Lexer.start.run text).flush.emitted.reverse with
      hnil | ⟨older, last, hlast⟩
    · rw [hnil]
      exact lexed_nil
    · rw [hlast, List.concat_eq_append] at hflush
      rw [hlast, List.concat_eq_append, Token.Lexer.closeLast_concat]
      refine ⟨?_, ?_⟩
      · intro t ht
        rcases List.mem_append.1 ht with ht | ht
        · exact hflush.ne_nil t (List.mem_append_left _ ht)
        · rw [List.mem_singleton.1 ht]
          simp
      · intro t ht
        rw [List.dropLast_concat] at ht
        exact hflush.lone t (by rw [List.dropLast_concat]; exact ht)
  · exact hflush

theorem isAnswer_query (s : Settings) (field text : String) :
    IsAnswer field s.maxOperators.toNat (s.query field text) := by
  have hlexed := lexed_tokenize text.toList
  by_cases hlimit : Settings.operatorsIn text ≤ s.maxOperators.toNat
  · rw [Settings.query_of_operatorsIn_le field hlimit]
    by_cases hfree : OperatorFree (Token.tokenize text.toList)
    · have hoperands := operandsOn_readLeaves field hlexed
      rw [readClauses_of_operatorFree field hfree]
      match hread : readLeaves field (Token.tokenize text.toList) with
      | [] => exact IsAnswer.term ""
      | [q] =>
          rw [hread] at hoperands
          cases hoperands.leaf q (by simp) with
          | term text => exact IsAnswer.term text
          | phrase text => exact IsAnswer.phrase text
      | p :: q :: rest =>
          rw [hread] at hoperands
          exact IsAnswer.alternatives (by simp) hoperands
    · obtain ⟨q, hq, hspine⟩ := exists_isSpine field _ hlexed hfree
      rw [hq]
      exact IsAnswer.spine hlimit hspine
  · -- Above the limit the text is searched for as it stands.
    rw [Settings.query_of_lt_operatorsIn field (Nat.lt_of_not_le hlimit)]
    exact IsAnswer.term text

/-! ## Writing a leaf as a token -/

/-- A text with every character escaped. -/
def escapeAll (text : List Char) : List Char :=
  Text.escapeWhere (fun _ => true) text

/-- The tokens that a query is written with. -/
inductive IsWritten : Token → Prop where
  | word {text : List Char} : text ≠ [] → IsWritten (escapeAll text)
  | phrase (text : List Char) : IsWritten ('"' :: (escapeAll text ++ ['"']))
  | operator (op : Operator) : IsWritten op.word.toList
  | nothing : IsWritten ['\\']

/-- The token of a leaf. -/
def leafToken : Query → Token
  | .term _ text => if text.toList = [] then ['\\'] else escapeAll text.toList
  | .phrase _ text => '"' :: (escapeAll text.toList ++ ['"'])
  | .group .. => []

theorem escapeAll_cons (c : Char) (text : List Char) :
    escapeAll (c :: text) = '\\' :: c :: escapeAll text := rfl

theorem isWritten_leafToken (h : LeafOn field q) : IsWritten (leafToken q) := by
  cases h with
  | term text =>
      by_cases hnil : text.toList = []
      · rw [leafToken, if_pos hnil]
        exact IsWritten.nothing
      · rw [leafToken, if_neg hnil]
        exact IsWritten.word hnil
  | phrase text => exact IsWritten.phrase text.toList

theorem kind_leafToken_term (text : String) : Token.kind (leafToken (.term field text)) = .word := by
  rw [leafToken]
  split
  · rfl
  · cases h : text.toList with
    | nil => contradiction
    | cons c rest =>
        rw [escapeAll_cons]
        rfl

theorem kind_leafToken_phrase (text : String) :
    Token.kind (leafToken (.phrase field text)) = .phrase := rfl

theorem operatorFree_map_leafToken (h : ∀ q ∈ cs, LeafOn field q) :
    OperatorFree (cs.map leafToken) := by
  intro t ht
  obtain ⟨q, hq, rfl⟩ := List.mem_map.1 ht
  unfold Token.isOperator
  cases h q hq with
  | term text =>
      rw [kind_leafToken_term]
      rfl
  | phrase text =>
      rw [kind_leafToken_phrase]
      rfl

theorem ofWords_leafToken_term (text : String) :
    ofWords field [leafToken (.term field text)] = .term field text := by
  have htext : Text.unescape (leafToken (.term field text)) = text.toList := by
    rw [leafToken]
    split
    · rename_i hnil
      rw [hnil]
      rfl
    · exact Text.unescape_escapeWhere rfl text.toList
  simp [ofWords, htext]

theorem ofPhrase_leafToken_phrase (text : String) :
    ofPhrase field (leafToken (.phrase field text)) = .phrase field text := by
  have htext : Text.unescape (escapeAll text.toList) = text.toList :=
    Text.unescape_escapeWhere rfl text.toList
  simp [ofPhrase, leafToken, Text.dropEnds_enclosed, htext]

/-- Leaves with no term after a term are read back from their tokens. -/
theorem readLeaves_map_leafToken (hleaf : ∀ q ∈ cs, LeafOn field q) (hpairs : termPairs cs = 0) :
    readLeaves field (cs.map leafToken) = cs := by
  induction cs with
  | nil => simp
  | cons q cs ih =>
      have hrest : ∀ p ∈ cs, LeafOn field p := fun p hp => hleaf p (by simp [hp])
      have hpairs' : termPairs cs = 0 := by
        cases cs with
        | nil => rfl
        | cons p cs => exact Nat.eq_zero_of_add_eq_zero_left hpairs
      have hread := ih hrest hpairs'
      rw [List.map_cons]
      cases hleaf q (by simp) with
      | term text =>
          -- What follows a term is a phrase, so the run of words ends here.
          have hends : EndsRun (cs.map leafToken) := by
            intro t ht
            cases cs with
            | nil => cases ht
            | cons p cs =>
                cases ht
                cases hrest p (by simp) with
                | term text' => simp [termPairs_cons_cons, isTerm] at hpairs
                | phrase text' => rfl
          have hword : ∀ t ∈ [leafToken (.term field text)], isWord t = true := by
            intro t ht
            rw [List.mem_singleton.1 ht]
            exact isWord_of_kind (kind_leafToken_term text)
          have hrun := readLeaves_run field (cs.map leafToken) hword hends
          rw [List.reverse_singleton, List.singleton_append] at hrun
          rw [hrun, hread]
          simp [flush, ofWords_leafToken_term]
      | phrase text =>
          have hword : isWord (leafToken (.phrase field text)) = false :=
            isWord_eq_false (by simp [kind_leafToken_phrase])
          rw [readLeaves_cons_of_not_word hword, ofPhrase_leafToken_phrase, hread]

theorem leafToken_ne_lone (h : LeafOn field q) (hfull : q ≠ .term field "") :
    leafToken q ≠ ['\\'] := by
  cases h with
  | term text =>
      have hne : text.toList ≠ [] := by
        intro hnil
        apply hfull
        rw [String.toList_eq_nil_iff.1 hnil]
      rw [leafToken, if_neg hne]
      cases htext : text.toList with
      | nil => exact absurd htext hne
      | cons c rest => simp [escapeAll_cons]
  | phrase text => simp [leafToken]

/-! ## Writing a query as tokens -/

/-- Tokens that a query is written with, in an order in which they are read back. -/
structure Written (ts : List Token) : Prop where
  token : ∀ t ∈ ts, IsWritten t
  lone : ∀ t ∈ ts.dropLast, t ≠ ['\\']

theorem IsWritten.isClosed (h : IsWritten t) (hlone : t ≠ ['\\']) : Token.IsClosed t := by
  cases h with
  | word hne => exact Token.isClosed_escape_all hne
  | phrase text => exact Token.isClosed_quote rfl rfl text
  | operator op => exact Token.isClosed_word op
  | nothing => exact absurd rfl hlone

theorem Written.tokenize (h : Written ts) : Token.tokenize ([' '].intercalate ts) = ts := by
  apply Token.tokenize_intercalate
  · intro t ht
    exact (h.token t (List.dropLast_subset _ ht)).isClosed (h.lone t ht)
  · intro t ht
    by_cases hlone : t = ['\\']
    · rw [hlone]
      rfl
    · exact ((h.token t (List.mem_of_getLast? ht)).isClosed hlone).tokenize

theorem written_map_leafToken (h : OperandsOn field pairs cs) : Written (cs.map leafToken) where
  token := by
    intro t ht
    obtain ⟨q, hq, rfl⟩ := List.mem_map.1 ht
    exact isWritten_leafToken (h.leaf q hq)
  lone := by
    intro t ht
    rw [← List.map_dropLast] at ht
    obtain ⟨q, hq, rfl⟩ := List.mem_map.1 ht
    exact leafToken_ne_lone (h.leaf q (List.dropLast_subset _ hq)) (h.full q hq)

theorem kind_word (op : Operator) : Token.kind op.word.toList = .operator op :=
  kind_eq_operator_iff.2 rfl

/-- Full operands, an operator and more tokens. -/
theorem Written.operator (hcs : OperandsOn field pairs cs) (hfull : ∀ c ∈ cs, c ≠ .term field "")
    (op : Operator) (hts : Written ts) : Written (cs.map leafToken ++ op.word.toList :: ts) where
  token := by
    intro t ht
    rcases List.mem_append.1 ht with ht | ht
    · exact (written_map_leafToken hcs).token t ht
    · rcases List.mem_cons.1 ht with rfl | ht
      · exact IsWritten.operator op
      · exact hts.token t ht
  lone := by
    intro t ht
    rw [List.dropLast_append_of_ne_nil (List.cons_ne_nil _ _)] at ht
    rcases List.mem_append.1 ht with ht | ht
    · obtain ⟨q, hq, rfl⟩ := List.mem_map.1 ht
      exact leafToken_ne_lone (hcs.leaf q hq) (hfull q hq)
    · cases hnil : ts with
      | nil =>
          rw [hnil] at ht
          cases ht
      | cons u us =>
          rw [hnil, List.dropLast_cons_of_ne_nil (by simp), ← hnil] at ht
          rcases List.mem_cons.1 ht with rfl | ht
          · cases op <;> decide
          · exact hts.lone t ht

/-- Every spine is written with as many operators as it has groups. -/
theorem IsSpine.exists_written (h : IsSpine field n q) :
    ∃ ts, Written ts ∧ Token.operatorCount ts = n ∧ readClauses field ts = [q] := by
  induction h with
  | last op hcs =>
      -- The operator goes between the two terms that follow each other, or else to the front.
      obtain ⟨cs₁, cs₂, rfl, h₁, h₂, hnil⟩ := exists_cut_of_termPairs hcs.apart
      have hleaf₁ : ∀ q ∈ cs₁, LeafOn field q := fun q hq => hcs.leaf q (List.mem_append_left _ hq)
      have hleaf₂ : ∀ q ∈ cs₂, LeafOn field q := fun q hq => hcs.leaf q (List.mem_append_right _ hq)
      have hfull₁ : ∀ q ∈ cs₁, q ≠ .term field "" := by
        intro q hq
        by_cases hempty : cs₂ = []
        · rw [hnil hempty] at hq
          cases hq
        · apply hcs.full q
          rw [List.dropLast_append_of_ne_nil hempty]
          exact List.mem_append_left _ hq
      have hfull₂ : ∀ q ∈ cs₂.dropLast, q ≠ .term field "" := by
        intro q hq
        have hempty : cs₂ ≠ [] := by
          rintro rfl
          cases hq
        apply hcs.full q
        rw [List.dropLast_append_of_ne_nil hempty]
        exact List.mem_append_right _ hq
      have hops₁ : OperandsOn field 0 cs₁ :=
        ⟨hleaf₁, Nat.le_of_eq h₁, fun q hq => hfull₁ q (List.dropLast_subset _ hq)⟩
      have hops₂ : OperandsOn field 0 cs₂ := ⟨hleaf₂, Nat.le_of_eq h₂, hfull₂⟩
      have hfree₁ := operatorFree_map_leafToken hleaf₁
      have hfree₂ := operatorFree_map_leafToken hleaf₂
      refine ⟨_, Written.operator hops₁ hfull₁ op (written_map_leafToken hops₂), ?_, ?_⟩
      · rw [operatorCount_split hfree₁ (kind_word op), operatorCount_eq_zero.2 hfree₂]
      · rw [readClauses_split field hfree₁ (kind_word op), readClauses_of_operatorFree field hfree₂,
          readLeaves_map_leafToken hleaf₁ h₁, readLeaves_map_leafToken hleaf₂ h₂]
  | cons op hcs hfull hq ih =>
      obtain ⟨ts, hwritten, hcount, hread⟩ := ih
      have hfree := operatorFree_map_leafToken hcs.leaf
      have hpairs := Nat.eq_zero_of_le_zero hcs.apart
      refine ⟨_, Written.operator hcs hfull op hwritten, ?_, ?_⟩
      · rw [operatorCount_split hfree (kind_word op), hcount]
      · rw [readClauses_split field hfree (kind_word op), hread,
          readLeaves_map_leafToken hcs.leaf hpairs]

/-! ## Every shape is an answer -/

/-- What a search answers to tokens written side by side. -/
theorem query_of_written (s : Settings) (field : String) (h : Written ts)
    (hlimit : Token.operatorCount ts ≤ s.maxOperators.toNat) :
    s.query field (String.ofList ([' '].intercalate ts))
      = ofClauses field (readClauses field ts) := by
  have htokens : Token.tokenize (String.ofList ([' '].intercalate ts)).toList = ts := by
    rw [String.toList_ofList, h.tokenize]
  have hcount : Settings.operatorsIn (String.ofList ([' '].intercalate ts))
      ≤ s.maxOperators.toNat := by
    rw [Settings.operatorsIn, htokens]
    exact hlimit
  rw [Settings.query_of_operatorsIn_le field hcount, htokens]

theorem exists_written_of_operandsOn (s : Settings) (h : OperandsOn field 0 cs) :
    ∃ ts, Written ts ∧ s.query field (String.ofList ([' '].intercalate ts)) = ofClauses field cs := by
  have hfree := operatorFree_map_leafToken h.leaf
  have hlimit : Token.operatorCount (cs.map leafToken) ≤ s.maxOperators.toNat := by
    rw [operatorCount_eq_zero.2 hfree]
    exact Nat.zero_le _
  refine ⟨_, written_map_leafToken h, ?_⟩
  rw [query_of_written s field (written_map_leafToken h) hlimit,
    readClauses_of_operatorFree field hfree,
    readLeaves_map_leafToken h.leaf (Nat.eq_zero_of_le_zero h.apart)]

theorem operandsOn_singleton (h : LeafOn field q) : OperandsOn field 0 [q] where
  leaf := by
    intro p hp
    rw [List.mem_singleton.1 hp]
    exact h
  apart := Nat.le_refl 0
  full := by
    intro p hp
    cases hp

theorem exists_written_of_isAnswer (s : Settings) (h : IsAnswer field s.maxOperators.toNat q) :
    ∃ ts, Written ts ∧ s.query field (String.ofList ([' '].intercalate ts)) = q := by
  cases h with
  | term text => exact exists_written_of_operandsOn s (operandsOn_singleton (LeafOn.term text))
  | phrase text => exact exists_written_of_operandsOn s (operandsOn_singleton (LeafOn.phrase text))
  | @alternatives cs hlen hcs =>
      obtain ⟨ts, hwritten, hquery⟩ := exists_written_of_operandsOn s hcs
      refine ⟨ts, hwritten, hquery.trans ?_⟩
      match cs with
      | [] => cases hlen
      | [q] => simp at hlen
      | p :: q :: rest => rfl
  | spine hn hspine =>
      obtain ⟨ts, hwritten, hcount, hread⟩ := hspine.exists_written
      refine ⟨ts, hwritten, ?_⟩
      rw [query_of_written s field hwritten (hcount ▸ hn), hread]
      rfl

/-- The queries that searches on a field have are exactly the answers: a leaf, alternatives, or a
spine within the limit.  Each of them is found by a text of words and phrases with all characters
escaped, operators, and perhaps a lone backslash at the end. -/
theorem exists_text_iff_isAnswer (s : Settings) (field : String) (q : Query) :
    ((∃ text, s.query field text = q) ↔ IsAnswer field s.maxOperators.toNat q)
      ∧ (IsAnswer field s.maxOperators.toNat q →
          ∃ ts : List Token, (∀ t ∈ ts, IsWritten t)
            ∧ s.query field (String.ofList ([' '].intercalate ts)) = q) := by
  have hwrite : IsAnswer field s.maxOperators.toNat q →
      ∃ ts : List Token, (∀ t ∈ ts, IsWritten t)
        ∧ s.query field (String.ofList ([' '].intercalate ts)) = q := by
    intro h
    obtain ⟨ts, hwritten, hquery⟩ := exists_written_of_isAnswer s h
    exact ⟨ts, hwritten.token, hquery⟩
  refine ⟨⟨?_, ?_⟩, hwrite⟩
  · rintro ⟨text, rfl⟩
    exact isAnswer_query s field text
  · intro h
    obtain ⟨ts, _, hquery⟩ := hwrite h
    exact ⟨_, hquery⟩

end Query
end SearchBox
