import SearchBox.Proofs.Grammar

/-!
# The tokens of a leaf

Every leaf of a query is read from some tokens that stand side by side: a maximal run of words, or one
phrase token.  This file defines

* `Block` — such tokens, with all the tokens after them;
* `blocks` — the blocks of a token list, from left to right;
* `IsBlock` — what a block is, said by the tokens around it;
* `operators` — the operators of a token list, in order.

`areBlocks_blocks` says that the blocks are maximal, that they are in order, and that together they
have all tokens but the operators.
-/

namespace SearchBox
namespace Query

open Grammar

variable {t : Token} {ts a b before run : List Token} {op : Operator}

/-! ## Operators in order -/

/-- The operators of a token list, in order. -/
def operators (ts : List Token) : List Operator :=
  ts.filterMap fun t => (Token.kind t).operator?

theorem operators_append (a b : List Token) : operators (a ++ b) = operators a ++ operators b :=
  List.filterMap_append

theorem length_operators (ts : List Token) : (operators ts).length = Token.operatorCount ts := by
  induction ts with
  | nil => rfl
  | cons t ts ih =>
      rw [operators, List.filterMap_cons, Token.operatorCount, List.countP_cons,
        ← Token.operatorCount, ← ih]
      unfold Token.isOperator
      cases Token.kind t with
      | word => rfl
      | phrase => rfl
      | operator op => rfl

theorem operators_eq_nil : operators ts = [] ↔ OperatorFree ts := by
  rw [← List.length_eq_zero_iff, length_operators, operatorCount_eq_zero]

theorem operators_split (ha : OperatorFree a) (ht : Token.kind t = .operator op) :
    operators (a ++ t :: b) = op :: operators b := by
  rw [operators_append, operators_eq_nil.2 ha, List.nil_append, operators,
    List.filterMap_cons_some (by rw [ht]; rfl)]
  rfl

/-! ## Blocks -/

/-- The tokens of a leaf, with the tokens that come after them. -/
structure Block where
  tokens : List Token
  after : List Token
  deriving DecidableEq, Repr

/-- The blocks of a token list: each maximal run of words and each phrase token. -/
def blocks : List Token → List Block
  | [] => []
  | t :: ts =>
      match Token.kind t with
      | .word => ⟨t :: ts.takeWhile isWord, ts.dropWhile isWord⟩ :: blocks (ts.dropWhile isWord)
      | .phrase => ⟨[t], ts⟩ :: blocks ts
      | .operator _ => blocks ts
termination_by ts => ts.length
decreasing_by
  · exact Nat.lt_succ_of_le (List.dropWhile_sublist isWord).length_le
  · exact Nat.lt_succ_self _
  · exact Nat.lt_succ_self _

/-- Some tokens of a list are a block if they are a run of words with no word next to it, or one
phrase token. -/
inductive IsBlock (ts : List Token) : Block → Prop where
  | words {before run after : List Token} :
      ts = before ++ (run ++ after) → run ≠ [] → (∀ t ∈ run, isWord t = true) →
        EndsRun before.reverse → EndsRun after → IsBlock ts ⟨run, after⟩
  | phrase {before after : List Token} {t : Token} :
      ts = before ++ t :: after → Token.kind t = .phrase → IsBlock ts ⟨[t], after⟩

/-- Blocks in the order of a token list that have all of its tokens but the operators. -/
structure AreBlocks (ts : List Token) (ks : List Block) : Prop where
  block : ∀ k ∈ ks, IsBlock ts k
  sorted : ks.Pairwise fun k l => l.tokens ++ l.after <:+ k.after
  flatten : (ks.map Block.tokens).flatten = ts.filter fun t => !Token.isOperator t

/-- The leaf that the tokens of a block stand for. -/
def Block.leaf (field : String) (k : Block) : Query :=
  match k.tokens with
  | [t] => if Token.kind t = .phrase then ofPhrase field t else ofWords field [t]
  | ts => ofWords field ts

theorem Block.leaf_words (field : String) {after : List Token} (h : ∀ t ∈ run, isWord t = true) :
    (Block.mk run after).leaf field = ofWords field run := by
  match run with
  | [] => rfl
  | [t] =>
      have ht : Token.kind t = .word := by simpa [isWord] using h t (by simp)
      simp [Block.leaf, ht]
  | _ :: _ :: _ => rfl

theorem Block.leaf_phrase (field : String) {after : List Token} (h : Token.kind t = .phrase) :
    (Block.mk [t] after).leaf field = ofPhrase field t :=
  if_pos h

theorem Block.isLeaf_leaf (field : String) (k : Block) : (k.leaf field).isLeaf = true := by
  unfold Block.leaf
  split
  · split <;> rfl
  · rfl

/-! ## The first block -/

@[simp] theorem blocks_nil : blocks [] = [] := by
  rw [blocks]

theorem blocks_word (h : Token.kind t = .word) :
    blocks (t :: ts)
      = ⟨t :: ts.takeWhile isWord, ts.dropWhile isWord⟩ :: blocks (ts.dropWhile isWord) := by
  rw [blocks]
  simp [h]

theorem blocks_phrase (h : Token.kind t = .phrase) : blocks (t :: ts) = ⟨[t], ts⟩ :: blocks ts := by
  rw [blocks]
  simp [h]

theorem blocks_operator (h : Token.kind t = .operator op) : blocks (t :: ts) = blocks ts := by
  rw [blocks]
  simp [h]

/-- What holds of the empty list, and of a list if it holds of what follows its first block or its
first operator, holds of every token list. -/
@[elab_as_elim]
theorem blockInduction {motive : List Token → Prop} (nil : motive [])
    (word : ∀ t ts, Token.kind t = .word → motive (ts.dropWhile isWord) → motive (t :: ts))
    (phrase : ∀ t ts, Token.kind t = .phrase → motive ts → motive (t :: ts))
    (operator : ∀ t op ts, Token.kind t = .operator op → motive ts → motive (t :: ts))
    (ts : List Token) : motive ts := by
  induction ts using blocks.induct with
  | case1 => exact nil
  | case2 t ts h ih => exact word t ts h ih
  | case3 t ts h ih => exact phrase t ts h ih
  | case4 t ts op h ih => exact operator t op ts h ih

/-! ## What the blocks are -/

theorem endsRun_cons (h : Token.kind t ≠ .word) : EndsRun (t :: ts) := by
  intro u hu
  cases hu
  exact isWord_eq_false h

theorem endsRun_reverse_concat (before : List Token) (h : Token.kind t ≠ .word) :
    EndsRun (before ++ [t]).reverse := by
  rw [List.reverse_concat]
  exact endsRun_cons h

theorem forall_isWord_run (h : Token.kind t = .word) :
    ∀ u ∈ t :: ts.takeWhile isWord, isWord u = true := by
  rw [List.forall_mem_cons]
  exact ⟨isWord_of_kind h, fun u hu => List.all_eq_true.1 List.all_takeWhile u hu⟩

/-- The blocks of what is left of a list are blocks of the list, unless a run of words was cut. -/
theorem isBlock_of_mem_blocks_append (before ts : List Token)
    (h : EndsRun before.reverse ∨ EndsRun ts) : ∀ k ∈ blocks ts, IsBlock (before ++ ts) k := by
  induction ts using blockInduction generalizing before with
  | nil =>
      intro k hk
      rw [blocks_nil] at hk
      cases hk
  | word t ts ht ih =>
      -- The list begins with a word, so it must be the words before it that are cut off.
      have hbefore : EndsRun before.reverse := by
        refine h.resolve_right fun hends => ?_
        have hword := hends t rfl
        rw [isWord_of_kind ht] at hword
        cases hword
      have hcut := cons_eq_run_append t ts
      have hrest := ih (before ++ (t :: ts.takeWhile isWord)) (Or.inr (endsRun_dropWhile ts))
      rw [blocks_word ht, List.forall_mem_cons]
      refine ⟨?_, ?_⟩
      · exact IsBlock.words (by rw [hcut]) (by simp) (forall_isWord_run ht) hbefore
          (endsRun_dropWhile ts)
      · rw [List.append_assoc, ← hcut] at hrest
        exact hrest
  | phrase t ts ht ih =>
      -- A run of words may begin behind the phrase, and so behind an operator.
      have hrest := ih (before ++ [t]) (Or.inl (endsRun_reverse_concat before (by simp [ht])))
      rw [List.append_assoc, List.singleton_append] at hrest
      rw [blocks_phrase ht, List.forall_mem_cons]
      exact ⟨IsBlock.phrase rfl ht, hrest⟩
  | operator t op ts ht ih =>
      have hrest := ih (before ++ [t]) (Or.inl (endsRun_reverse_concat before (by simp [ht])))
      rw [List.append_assoc, List.singleton_append] at hrest
      rw [blocks_operator ht]
      exact hrest

theorem isBlock_of_mem_blocks (ts : List Token) : ∀ k ∈ blocks ts, IsBlock ts k :=
  isBlock_of_mem_blocks_append [] ts (Or.inl (by simp [EndsRun]))

/-- In order, the blocks have all tokens but the operators. -/
theorem flatten_blocks (ts : List Token) :
    ((blocks ts).map Block.tokens).flatten = ts.filter fun t => !Token.isOperator t := by
  induction ts using blockInduction with
  | nil => simp
  | word t ts ht ih =>
      have hrun : ∀ u ∈ t :: ts.takeWhile isWord, (!Token.isOperator u) = true := by
        intro u hu
        have hword : Token.kind u = .word := by simpa [isWord] using forall_isWord_run ht u hu
        simp [Token.isOperator, hword, Token.Kind.isOperator]
      have hcut := cons_eq_run_append t ts
      -- No word of the run is an operator, so the filter keeps the run as it is.
      have hfilter := List.filter_append (p := fun t => !Token.isOperator t)
        (t :: ts.takeWhile isWord) (ts.dropWhile isWord)
      rw [← hcut, List.filter_eq_self.2 hrun] at hfilter
      rw [blocks_word ht, List.map_cons, List.flatten_cons, ih, hfilter]
  | phrase t ts ht ih =>
      rw [blocks_phrase ht, List.map_cons, List.flatten_cons, ih]
      simp [Token.isOperator, ht, Token.Kind.isOperator]
  | operator t op ts ht ih =>
      rw [blocks_operator ht, ih]
      simp [isOperator_of_kind ht]

theorem IsBlock.suffix {k : Block} (h : IsBlock ts k) : k.tokens ++ k.after <:+ ts := by
  cases h with
  | @words before run after hts => exact ⟨before, hts.symm⟩
  | @phrase before after t hts => exact ⟨before, hts.symm⟩

/-- Every block stands behind the ones before it. -/
theorem pairwise_blocks (ts : List Token) :
    (blocks ts).Pairwise fun k l => l.tokens ++ l.after <:+ k.after := by
  induction ts using blockInduction with
  | nil => simp
  | word t ts ht ih =>
      rw [blocks_word ht, List.pairwise_cons]
      exact ⟨fun k hk => (isBlock_of_mem_blocks _ k hk).suffix, ih⟩
  | phrase t ts ht ih =>
      rw [blocks_phrase ht, List.pairwise_cons]
      exact ⟨fun k hk => (isBlock_of_mem_blocks _ k hk).suffix, ih⟩
  | operator t op ts ht ih =>
      rw [blocks_operator ht]
      exact ih

theorem areBlocks_blocks (ts : List Token) : AreBlocks ts (blocks ts) where
  block := isBlock_of_mem_blocks ts
  sorted := pairwise_blocks ts
  flatten := flatten_blocks ts

/-! ## Blocks of two lists -/

theorem takeWhile_append_endsRun (h : EndsRun (a.dropWhile isWord ++ b)) :
    (a ++ b).takeWhile isWord = a.takeWhile isWord := by
  have htake := takeWhile_append_of_endsRun (List.all_eq_true.1 (List.all_takeWhile (l := a))) h
  rwa [← List.append_assoc, List.takeWhile_append_dropWhile] at htake

theorem dropWhile_append_endsRun (h : EndsRun (a.dropWhile isWord ++ b)) :
    (a ++ b).dropWhile isWord = a.dropWhile isWord ++ b := by
  have hdrop := dropWhile_append_of_endsRun (List.all_eq_true.1 (List.all_takeWhile (l := a))) h
  rwa [← List.append_assoc, List.takeWhile_append_dropWhile] at hdrop

theorem EndsRun.left (h : EndsRun (a ++ b)) : EndsRun a := by
  cases a with
  | nil => exact endsRun_dropWhile []
  | cons u a => exact h

/-- If no run of words goes across from one list into another, none does so behind the first run. -/
theorem endsRun_behind_run (ht : Token.kind t = .word)
    (h : EndsRun (t :: ts).reverse ∨ EndsRun b) :
    EndsRun (ts.dropWhile isWord ++ b)
      ∧ (EndsRun (ts.dropWhile isWord).reverse ∨ EndsRun b) := by
  have hends := endsRun_dropWhile ts
  rcases h with hts | hb
  · have hcut := cons_eq_run_append t ts
    rw [hcut, List.reverse_append] at hts
    refine ⟨?_, Or.inl hts.left⟩
    cases hrest : ts.dropWhile isWord with
    | nil =>
        -- All tokens of the first list are words, but the last one is none.
        rw [hrest, List.reverse_nil, List.nil_append] at hts
        cases hrun : (t :: ts.takeWhile isWord).reverse with
        | nil => simp at hrun
        | cons last older =>
            have hmem : last ∈ (t :: ts.takeWhile isWord).reverse := by simp [hrun]
            have hword := forall_isWord_run ht last (List.mem_reverse.1 hmem)
            rw [hrun] at hts
            rw [hts last rfl] at hword
            cases hword
    | cons u us =>
        rw [hrest] at hends
        exact hends
  · exact ⟨hends.append hb, Or.inr hb⟩

theorem endsRun_reverse_tail (h : EndsRun (t :: ts).reverse ∨ EndsRun b) :
    EndsRun ts.reverse ∨ EndsRun b := by
  rw [List.reverse_cons] at h
  exact h.imp_left EndsRun.left

/-- Where no run of words goes across, two lists have their own blocks. -/
theorem blocks_append (a b : List Token) (h : EndsRun a.reverse ∨ EndsRun b) :
    blocks (a ++ b) = (blocks a).map (fun k => ⟨k.tokens, k.after ++ b⟩) ++ blocks b := by
  induction a using blockInduction with
  | nil => simp
  | word u a hu ih =>
      obtain ⟨hacross, hrest⟩ := endsRun_behind_run hu h
      rw [List.cons_append, blocks_word hu, blocks_word hu, takeWhile_append_endsRun hacross,
        dropWhile_append_endsRun hacross, ih hrest]
      rfl
  | phrase u a hu ih =>
      rw [List.cons_append, blocks_phrase hu, blocks_phrase hu, ih (endsRun_reverse_tail h)]
      rfl
  | operator u op' a hu ih =>
      rw [List.cons_append, blocks_operator hu, blocks_operator hu, ih (endsRun_reverse_tail h)]

/-- An operator cuts a token list in two, and its blocks as well. -/
theorem blocks_split (a : List Token) (ht : Token.kind t = .operator op) :
    blocks (a ++ t :: b)
      = (blocks a).map (fun k => ⟨k.tokens, k.after ++ t :: b⟩) ++ blocks b := by
  rw [blocks_append a (t :: b) (Or.inr (endsRun_cons (by simp [ht]))), blocks_operator ht]

/-- Without operators, the leaves that are read are those of the blocks. -/
theorem readLeaves_eq_map_blocks (field : String) (h : OperatorFree ts) :
    readLeaves field ts = (blocks ts).map (Block.leaf field) := by
  induction ts using blockInduction with
  | nil => simp
  | word t ts ht ih =>
      have hrest : OperatorFree (ts.dropWhile isWord) := fun u hu =>
        h u (List.mem_cons_of_mem t ((List.dropWhile_sublist isWord).subset hu))
      rw [readLeaves_cons_of_word (isWord_of_kind ht), blocks_word ht, List.map_cons, ih hrest,
        Block.leaf_words field (forall_isWord_run ht)]
  | phrase t ts ht ih =>
      rw [readLeaves_cons_of_not_word (isWord_eq_false (by simp [ht])), blocks_phrase ht,
        List.map_cons, ih (operatorFree_cons.1 h).2, Block.leaf_phrase field ht]
  | operator t op ts ht ih =>
      have hop := (operatorFree_cons.1 h).1
      rw [isOperator_of_kind ht] at hop
      cases hop

end Query
end SearchBox
