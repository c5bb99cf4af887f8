import SearchBox.Proofs.Blocks
import SearchBox.Proofs.Place
import SearchBox.Proofs.Search

/-!
# How deep a query nests

Every operator of a search text makes one group, inside the group of the operator before it.  This
file says what follows for the tree:

* `leavesUnder` — the leaves of a query, each with the operator of the group it stands in;
* `FollowsOperators` — the groups of a query are those of the operators of its tokens, from the root
  down, and every leaf stands under the operator that comes next in the text;
* `query_nesting` — the query of a search follows its operators as long as there are not too many,
  and no query nests deeper than the limit allows.

So whoever walks down a query needs no more room than the settings say.
-/

namespace SearchBox
namespace Query

open Grammar

variable {field : String} {above : Option Operator} {ts a b : List Token} {cs ds : List Query}
variable {q c : Query}

/-! ## Leaves with their groups -/

mutual

/-- The leaves of a query from left to right, each with the operator of the group it is a clause of.
A query that is a leaf is under `above`. -/
def leavesUnder (above : Option Operator) : Query → List (Option Operator × Query)
  | .term f t => [(above, .term f t)]
  | .phrase f t => [(above, .phrase f t)]
  | .group op cs => leavesUnderOf (some op) cs

def leavesUnderOf (above : Option Operator) : List Query → List (Option Operator × Query)
  | [] => []
  | c :: cs => leavesUnder above c ++ leavesUnderOf above cs

end

mutual

/-- Without the operators, these are the leaves. -/
theorem map_snd_leavesUnder (above : Option Operator) :
    (q : Query) → (q.leavesUnder above).map Prod.snd = q.leaves
  | .term .. => rfl
  | .phrase .. => rfl
  | .group op cs => by
      rw [leavesUnder, leaves]
      exact map_snd_leavesUnderOf (some op) cs

theorem map_snd_leavesUnderOf (above : Option Operator) :
    (cs : List Query) → (leavesUnderOf above cs).map Prod.snd = leavesOf cs
  | [] => rfl
  | c :: cs => by
      rw [leavesUnderOf, leavesOf, List.map_append, map_snd_leavesUnder above c,
        map_snd_leavesUnderOf above cs]

end

/-! ## Clauses side by side -/

theorem leavesUnderOf_append (above : Option Operator) (cs ds : List Query) :
    leavesUnderOf above (cs ++ ds) = leavesUnderOf above cs ++ leavesUnderOf above ds := by
  induction cs with
  | nil => rfl
  | cons c cs ih => rw [List.cons_append, leavesUnderOf, ih, leavesUnderOf, List.append_assoc]

theorem labelsOf_append (cs ds : List Query) : labelsOf (cs ++ ds) = labelsOf cs ++ labelsOf ds := by
  induction cs with
  | nil => rfl
  | cons c cs ih => rw [List.cons_append, labelsOf, ih, labelsOf, List.append_assoc]

theorem depthOf_append (cs ds : List Query) :
    depthOf (cs ++ ds) = max (depthOf cs) (depthOf ds) := by
  induction cs with
  | nil => exact (Nat.zero_max _).symm
  | cons c cs ih => rw [List.cons_append, depthOf, ih, depthOf, Nat.max_assoc]

/-- A list of leaves has no group in it. -/
theorem clauses_of_isLeaf (above : Option Operator) (h : ∀ c ∈ cs, c.isLeaf = true) :
    leavesUnderOf above cs = cs.map (above, ·) ∧ labelsOf cs = [] ∧ depthOf cs = 0 := by
  induction cs with
  | nil => exact ⟨rfl, rfl, rfl⟩
  | cons c cs ih =>
      rw [List.forall_mem_cons] at h
      obtain ⟨hleaves, hlabels, hdepth⟩ := ih h.2
      rw [leavesUnderOf, labelsOf, depthOf, hleaves, hlabels, hdepth]
      cases c with
      | term f t => exact ⟨rfl, rfl, rfl⟩
      | phrase f t => exact ⟨rfl, rfl, rfl⟩
      | group op cs => cases h.1

theorem isLeaf_of_mem_readLeaves (field : String) (h : OperatorFree ts) :
    ∀ c ∈ readLeaves field ts, c.isLeaf = true := by
  rw [readLeaves_eq_map_blocks field h, List.forall_mem_map]
  exact fun k _ => k.isLeaf_leaf field

/-! ## What the grammar reads -/

/-- The groups are those of the operators, in order. -/
theorem labelsOf_readClauses (field : String) (ts : List Token) :
    labelsOf (readClauses field ts) = operators ts := by
  induction ts using operatorInduction with
  | free ts hfree =>
      rw [readClauses_of_operatorFree field hfree, operators_eq_nil.2 hfree]
      exact (clauses_of_isLeaf none (isLeaf_of_mem_readLeaves field hfree)).2.1
  | split a t op b ha ht ih =>
      have hleaves := (clauses_of_isLeaf none (isLeaf_of_mem_readLeaves field ha)).2.1
      rw [readClauses_split field ha ht, operators_split ha ht, labelsOf, labels, labelsOf_append,
        hleaves, ih]
      simp [labelsOf]

/-- Every operator adds one level. -/
theorem depthOf_readClauses (field : String) (ts : List Token) :
    depthOf (readClauses field ts) = Token.operatorCount ts := by
  induction ts using operatorInduction with
  | free ts hfree =>
      rw [readClauses_of_operatorFree field hfree, operatorCount_eq_zero.2 hfree]
      exact (clauses_of_isLeaf none (isLeaf_of_mem_readLeaves field hfree)).2.2
  | split a t op b ha ht ih =>
      have hleaves := (clauses_of_isLeaf none (isLeaf_of_mem_readLeaves field ha)).2.2
      rw [readClauses_split field ha ht, operatorCount_split ha ht, depthOf, depth, depthOf_append,
        hleaves, ih, Nat.zero_max]
      rfl

/-- The operator that a block stands under: the next one in the list or, behind the last one, that
one. -/
def operatorFor (ts : List Token) (k : Block) : Option Operator :=
  (operators k.after).head?.or (operators ts).getLast?

/-- Every leaf stands under the operator of its block; where there is no operator at all, it stands
under what its list does. -/
theorem leavesUnderOf_readClauses (field : String) (above : Option Operator) (ts : List Token) :
    leavesUnderOf above (readClauses field ts)
      = (blocks ts).map fun k => ((operatorFor ts k).or above, k.leaf field) := by
  induction ts using operatorInduction generalizing above with
  | free ts hfree =>
      rw [readClauses_of_operatorFree field hfree,
        (clauses_of_isLeaf above (isLeaf_of_mem_readLeaves field hfree)).1,
        readLeaves_eq_map_blocks field hfree, List.map_map]
      apply List.map_congr_left
      intro k hk
      -- No operator follows the block, since there is none.
      have hafter : OperatorFree k.after := fun t ht =>
        hfree t ((isBlock_of_mem_blocks ts k hk).suffix.subset (List.mem_append_right _ ht))
      rw [operatorFor, operators_eq_nil.2 hafter, operators_eq_nil.2 hfree]
      rfl
  | split a t op b ha ht ih =>
      have hleaves := (clauses_of_isLeaf (some op) (isLeaf_of_mem_readLeaves field ha)).1
      rw [readClauses_split field ha ht, leavesUnderOf, leavesUnder, leavesUnderOf_append, hleaves,
        ih (some op), readLeaves_eq_map_blocks field ha, blocks_split a ht, List.map_append,
        leavesUnderOf, List.append_nil, List.map_map, List.map_map]
      congr 1
      · -- The leaves before the operator have it as their next one.
        apply List.map_congr_left
        intro k hk
        have hafter : OperatorFree k.after := fun u hu =>
          ha u ((isBlock_of_mem_blocks a k hk).suffix.subset (List.mem_append_right _ hu))
        simp only [Function.comp_apply, operatorFor, operators_split hafter ht, List.head?_cons,
          Option.some_or]
        rfl
      · -- For the leaves behind it, it is the last one only if no other follows.
        apply List.map_congr_left
        intro k _
        rw [operatorFor, operatorFor, operators_split ha ht, List.getLast?_cons]
        cases (operators k.after).head? with
        | some op' => rfl
        | none =>
            cases (operators b).getLast? with
            | some op' => rfl
            | none => rfl

/-- Only the last clause that is read can be a group. -/
theorem isLeaf_of_mem_dropLast_readClauses (field : String) (ts : List Token) :
    ∀ c ∈ (readClauses field ts).dropLast, c.isLeaf = true := by
  intro c hc
  rcases operatorFree_or_split ts with hfree | ⟨a, t, b, op, rfl, ha, ht⟩
  · rw [readClauses_of_operatorFree field hfree] at hc
    exact isLeaf_of_mem_readLeaves field hfree c (List.dropLast_subset _ hc)
  · rw [readClauses_split field ha ht] at hc
    cases hc

theorem get?_leaf_ne_group {p : Place} {op : Operator} (h : q.isLeaf = true) :
    q.get? p ≠ some (.group op cs) := by
  cases q with
  | term f t => cases p <;> simp [get?]
  | phrase f t => cases p <;> simp [get?]
  | group op cs => cases h

/-- In every group that is read, all clauses but the last one are leaves. -/
theorem isLeaf_of_get?_readClauses (field : String) (ts : List Token) :
    ∀ q ∈ readClauses field ts, ∀ p op cs, q.get? p = some (.group op cs) →
      ∀ c ∈ cs.dropLast, c.isLeaf = true := by
  induction ts using operatorInduction with
  | free ts hfree =>
      intro q hq p op cs hget
      rw [readClauses_of_operatorFree field hfree] at hq
      exact absurd hget (get?_leaf_ne_group (isLeaf_of_mem_readLeaves field hfree q hq))
  | split a t op b ha ht ih =>
      intro q hq p op' cs hget
      have hleaves := isLeaf_of_mem_readLeaves field ha
      rw [readClauses_split field ha ht, List.mem_singleton] at hq
      rw [hq] at hget
      cases p with
      | nil =>
          -- The root has the leaves before the operator and, behind them, what follows it.
          cases hget
          intro c hc
          by_cases hb : readClauses field b = []
          · rw [hb, List.append_nil] at hc
            exact hleaves c (List.dropLast_subset _ hc)
          · rw [List.dropLast_append_of_ne_nil hb] at hc
            rcases List.mem_append.1 hc with hc | hc
            · exact hleaves c hc
            · exact isLeaf_of_mem_dropLast_readClauses field b c hc
      | cons i p =>
          -- A group further down is in one of the clauses, and that is no leaf.
          obtain ⟨c, hc, hget⟩ := Option.bind_eq_some_iff.1 hget
          rcases List.mem_append.1 (List.mem_of_getElem? hc) with hmem | hmem
          · exact absurd hget (get?_leaf_ne_group (hleaves c hmem))
          · exact ih c hmem p op' cs hget

/-! ## The query of a search -/

/-- The groups of a query are those of the operators of its tokens. -/
structure FollowsOperators (field : String) (ts : List Token) (q : Query) : Prop where
  /-- There are as many groups as operators. -/
  groups : q.labels.length = Token.operatorCount ts
  /-- Each group but the root is in another one. -/
  depth : q.depth = Token.operatorCount ts
  /-- In every group, only the last clause can be a group. -/
  leaf : ∀ p op cs, q.get? p = some (.group op cs) → ∀ c ∈ cs.dropLast, c.isLeaf = true
  /-- From the root down, the groups have the operators of the text in order. -/
  labels : q.labels = operators ts
  /-- The leaves are those of the blocks, in order. -/
  leaves : q.leaves = (blocks ts).map (Block.leaf field)
  /-- A leaf is a clause of the group of the operator that comes next behind its tokens, or of the
  last operator if none does. -/
  under : q.leavesUnder none = (blocks ts).map fun k => (operatorFor ts k, k.leaf field)

/-- Where there is an operator, one clause is read, and it follows the operators. -/
theorem followsOperators_of_readClauses (h : readClauses field ts = [q]) :
    FollowsOperators field ts q := by
  -- What is known of the clauses is known of the only one.
  have hlabels := labelsOf_readClauses field ts
  have hdepth := depthOf_readClauses field ts
  have hunder := leavesUnderOf_readClauses field none ts
  have hleaf := isLeaf_of_get?_readClauses field ts
  rw [h] at hlabels hdepth hunder hleaf
  simp only [labelsOf, List.append_nil] at hlabels
  simp only [depthOf, Nat.max_zero] at hdepth
  simp only [leavesUnderOf, List.append_nil, Option.or_none] at hunder
  refine ⟨?_, hdepth, hleaf q (List.mem_singleton_self q), hlabels, ?_, hunder⟩
  · rw [hlabels, length_operators]
  · rw [← map_snd_leavesUnder none, hunder, List.map_map]
    rfl

theorem readClauses_eq_singleton (field : String) (h : 1 ≤ Token.operatorCount ts) :
    ∃ q, readClauses field ts = [q] := by
  rcases operatorFree_or_split ts with hfree | ⟨a, t, b, op, rfl, ha, ht⟩
  · rw [operatorCount_eq_zero.2 hfree] at h
    cases h
  · exact ⟨_, readClauses_split field ha ht⟩

theorem depth_ofClauses_le (h : ∀ c ∈ cs, c.isLeaf = true) : (ofClauses field cs).depth ≤ 1 := by
  have hdepth := (clauses_of_isLeaf none h).2.2
  match cs with
  | [] => exact Nat.zero_le 1
  | [q] =>
      simp only [depthOf, Nat.max_zero] at hdepth
      rw [ofClauses, hdepth]
      exact Nat.zero_le 1
  | p :: q :: rest => exact Nat.le_of_eq (congrArg Nat.succ hdepth)

end Query

namespace Settings

open Query Grammar

/-- With an operator and within the limit, the query of a text follows its operators: it nests one
level for each of them, and its leaves are those of the blocks, which are all tokens but the
operators.  Without operators it nests one level at most, and above the limit it is a leaf.  So no
query nests deeper than the limit says, or than one level. -/
theorem query_nesting (s : Settings) (field text : String) :
    (1 ≤ operatorsIn text → operatorsIn text ≤ s.maxOperators.toNat →
        FollowsOperators field (Token.tokenize text.toList) (s.query field text))
      ∧ AreBlocks (Token.tokenize text.toList) (blocks (Token.tokenize text.toList))
      ∧ (operatorsIn text = 0 → (s.query field text).depth ≤ 1)
      ∧ (s.maxOperators.toNat < operatorsIn text → (s.query field text).depth = 0)
      ∧ (s.query field text).depth ≤ max 1 s.maxOperators.toNat := by
  have hwithin : 1 ≤ operatorsIn text → operatorsIn text ≤ s.maxOperators.toNat →
      FollowsOperators field (Token.tokenize text.toList) (s.query field text) := by
    intro hone hlimit
    obtain ⟨q, hq⟩ := readClauses_eq_singleton field hone
    rw [query_of_operatorsIn_le field hlimit, hq]
    exact followsOperators_of_readClauses hq
  have hnone : operatorsIn text = 0 → (s.query field text).depth ≤ 1 := by
    intro hzero
    have hfree := operatorCount_eq_zero.1 hzero
    rw [query_of_operatorsIn_le field (hzero ▸ Nat.zero_le _),
      readClauses_of_operatorFree field hfree]
    exact depth_ofClauses_le (isLeaf_of_mem_readLeaves field hfree)
  have habove : s.maxOperators.toNat < operatorsIn text → (s.query field text).depth = 0 := by
    intro hlimit
    rw [query_of_lt_operatorsIn field hlimit]
    rfl
  refine ⟨hwithin, areBlocks_blocks _, hnone, habove, ?_⟩
  rcases Nat.lt_or_ge s.maxOperators.toNat (operatorsIn text) with hlimit | hlimit
  · rw [habove hlimit]
    exact Nat.zero_le _
  · rcases Nat.eq_zero_or_pos (operatorsIn text) with hzero | hone
    · exact Nat.le_trans (hnone hzero) (Nat.le_max_left _ _)
    · rw [(hwithin hone hlimit).depth]
      exact Nat.le_trans hlimit (Nat.le_max_right _ _)

/-- Three leaves and two operators, with nothing behind the second one. -/
theorem query_nesting_three_leaves :
    operatorsIn "a \"b\" AND c OR" = 2
      ∧ (Settings.query {} "f" "a \"b\" AND c OR").labels = [.and, .or]
      ∧ (Settings.query {} "f" "a \"b\" AND c OR").depth = 2
      ∧ (Settings.query {} "f" "a \"b\" AND c OR").leavesUnder none
        = [(some .and, .term "f" "a"), (some .and, .phrase "f" "b"), (some .or, .term "f" "c")]
      ∧ (Settings.query ⟨"f", 1⟩ "f" "a \"b\" AND c OR").depth = 0 := by
  have htokens : Token.tokenize "a \"b\" AND c OR".toList
      = [['a'], ['"', 'b', '"'], ['A', 'N', 'D'], ['c'], ['O', 'R']] := by decide
  have htwo : operatorsIn "a \"b\" AND c OR" = 2 := by
    rw [operatorsIn, htokens]
    rfl
  have hfollows := (query_nesting {} "f" "a \"b\" AND c OR").1 (by rw [htwo]; decide)
    (by rw [htwo]; decide)
  have habove := (query_nesting ⟨"f", 1⟩ "f" "a \"b\" AND c OR").2.2.2.1 (by rw [htwo]; decide)
  rw [htokens] at hfollows
  refine ⟨htwo, hfollows.labels, hfollows.depth, hfollows.under.trans ?_, habove⟩
  simp [blocks, operatorFor, operators, isWord, Token.kind, Token.Kind.operator?, Block.leaf, ofWords,
    ofPhrase, Text.dropEnds, Text.unescape]

end Settings
end SearchBox
