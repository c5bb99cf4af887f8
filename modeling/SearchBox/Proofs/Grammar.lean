import SearchBox.Query.Grammar
import SearchBox.Query.Parser

/-!
# The parser reads the grammar

`Query.parse` collects operands and operators from left to right and folds them from the right;
`Grammar.readClauses` splits a token list at its first operator and goes on by recursion.  This file
shows that they agree:

* `operands_eq` — reading operands yields the leaves before the first operator;
* `spine_clauses` — the folded spine is the reading of the grammar;
* `parse_eq_readClauses` — within the limit, the parser answers the reading;
* `parse_eq_error_iff` — above the limit it answers how many operators there are, and it has no other
  error to answer.

Nothing is assumed about the tokens: they may be empty, lone quotes, or have blanks in them.
-/

namespace SearchBox
namespace Query

open Grammar

variable {field : String} {t : Token} {ts a b c : List Token} {op : Operator}

/-! ## Kinds of tokens -/

theorem isOperator_iff : Token.isOperator t = true ↔ ∃ op, Token.kind t = .operator op := by
  unfold Token.isOperator
  cases h : Token.kind t with
  | word => simp [Token.Kind.isOperator]
  | phrase => simp [Token.Kind.isOperator]
  | operator op => simp [Token.Kind.isOperator]

theorem isOperator_of_kind (h : Token.kind t = .operator op) : Token.isOperator t = true :=
  isOperator_iff.2 ⟨op, h⟩

/-- The operator tokens are exactly the words of the two operators. -/
theorem kind_eq_operator_iff : Token.kind t = .operator op ↔ t = op.word.toList := by
  constructor
  · intro h
    unfold Token.kind at h
    split at h
    · cases h
      rfl
    · cases h
      rfl
    · cases h
    · cases h
  · rintro rfl
    cases op with
    | and => rfl
    | or => rfl

theorem isWord_of_kind (h : Token.kind t = .word) : isWord t = true := by
  simp [isWord, h]

theorem isWord_eq_false (h : Token.kind t ≠ .word) : isWord t = false := by
  simp [isWord, h]

/-- No token of the list is an operator. -/
def OperatorFree (ts : List Token) : Prop :=
  ∀ t ∈ ts, Token.isOperator t = false

instance (ts : List Token) : Decidable (OperatorFree ts) :=
  inferInstanceAs (Decidable (∀ t ∈ ts, Token.isOperator t = false))

theorem operatorFree_nil : OperatorFree [] := by
  intro t ht
  cases ht

theorem operatorFree_cons :
    OperatorFree (t :: ts) ↔ Token.isOperator t = false ∧ OperatorFree ts := by
  simp [OperatorFree]

theorem operatorCount_eq_zero : Token.operatorCount ts = 0 ↔ OperatorFree ts := by
  simp [Token.operatorCount, OperatorFree, List.countP_eq_zero]

theorem operatorCount_append (a b : List Token) :
    Token.operatorCount (a ++ b) = Token.operatorCount a + Token.operatorCount b :=
  List.countP_append

theorem operatorCount_append_cons (a : List Token) (t : Token) (b : List Token) :
    Token.operatorCount (a ++ t :: b)
      = Token.operatorCount a + Token.operatorCount b
        + if Token.isOperator t = true then 1 else 0 := by
  rw [operatorCount_append, Nat.add_assoc]
  exact congrArg _ List.countP_cons

theorem operatorCount_split (ha : OperatorFree a) (ht : Token.kind t = .operator op) :
    Token.operatorCount (a ++ t :: b) = Token.operatorCount b + 1 := by
  rw [operatorCount_append_cons, operatorCount_eq_zero.2 ha, Nat.zero_add,
    if_pos (isOperator_of_kind ht)]

/-- The number of operators is the number of tokens that are one of the two words. -/
theorem operatorCount_eq_count (ts : List Token) :
    Token.operatorCount ts
      = ts.count Operator.and.word.toList + ts.count Operator.or.word.toList := by
  induction ts with
  | nil => rfl
  | cons t ts ih =>
      rw [Token.operatorCount, List.countP_cons, ← Token.operatorCount, ih, List.count_cons,
        List.count_cons]
      by_cases hop : Token.isOperator t = true
      · obtain ⟨op, hkind⟩ := isOperator_iff.1 hop
        rw [kind_eq_operator_iff.1 hkind]
        cases op with
        | and => simp [Operator.word, Token.isOperator, Token.kind, Token.Kind.isOperator]; omega
        | or => simp [Operator.word, Token.isOperator, Token.kind, Token.Kind.isOperator]; omega
      · have hne : ∀ op : Operator, (t == op.word.toList) = false := by
          intro op
          rw [beq_eq_false_iff_ne]
          exact fun heq => hop (isOperator_of_kind (kind_eq_operator_iff.2 heq))
        simp [hop, hne]

/-- A token list has no operator, or a first one. -/
theorem operatorFree_or_split (ts : List Token) :
    OperatorFree ts ∨
      ∃ a t b op, ts = a ++ t :: b ∧ OperatorFree a ∧ Token.kind t = .operator op := by
  induction ts with
  | nil => exact Or.inl operatorFree_nil
  | cons t ts ih =>
      cases ht : Token.isOperator t with
      | true =>
          obtain ⟨op, hop⟩ := isOperator_iff.1 ht
          exact Or.inr ⟨[], t, ts, op, rfl, operatorFree_nil, hop⟩
      | false =>
          rcases ih with hfree | ⟨a, u, b, op, rfl, ha, hu⟩
          · exact Or.inl (operatorFree_cons.2 ⟨ht, hfree⟩)
          · exact Or.inr ⟨t :: a, u, b, op, rfl, operatorFree_cons.2 ⟨ht, ha⟩, hu⟩

/-- What holds of lists without operators, and of a list if it holds of what follows its first
operator, holds of every token list. -/
@[elab_as_elim]
theorem operatorInduction {motive : List Token → Prop}
    (free : ∀ ts, OperatorFree ts → motive ts)
    (split : ∀ a t op b, OperatorFree a → Token.kind t = .operator op → motive b →
      motive (a ++ t :: b))
    (ts : List Token) : motive ts := by
  rcases operatorFree_or_split ts with hfree | ⟨a, t, b, op, hts, ha, ht⟩
  · exact free ts hfree
  · -- What follows the first operator is shorter than the list.
    have hlt : b.length < ts.length := by
      rw [hts, List.length_append, List.length_cons]
      omega
    rw [hts]
    exact split a t op b ha ht (operatorInduction free split b)
termination_by ts.length

/-! ## Leaves -/

@[simp] theorem readLeaves_nil : readLeaves field [] = [] := by
  rw [readLeaves]

/-- A run of words stands for the term that the parser makes of it. -/
theorem readLeaves_cons_of_word (h : isWord t = true) :
    readLeaves field (t :: ts)
      = ofWords field (t :: ts.takeWhile isWord) :: readLeaves field (ts.dropWhile isWord) := by
  rw [readLeaves, if_pos h, ofWords]

/-- Any other token stands for the phrase that the parser makes of it. -/
theorem readLeaves_cons_of_not_word (h : isWord t = false) :
    readLeaves field (t :: ts) = ofPhrase field t :: readLeaves field ts := by
  rw [readLeaves, if_neg (ne_true_of_eq_false h), ofPhrase]

theorem readLeaves_eq_nil : readLeaves field ts = [] ↔ ts = [] := by
  cases ts with
  | nil => simp
  | cons t ts =>
      rw [readLeaves]
      split <;> simp

/-- A run of words is followed by something else, or by nothing. -/
def EndsRun (ts : List Token) : Prop :=
  ∀ t, ts.head? = some t → isWord t = false

theorem takeWhile_append_of_endsRun (ha : ∀ t ∈ a, isWord t = true) (hb : EndsRun b) :
    (a ++ b).takeWhile isWord = a := by
  rw [List.takeWhile_append_of_pos ha]
  cases b with
  | nil => simp
  | cons u b =>
      have hu : isWord u = false := hb u rfl
      simp [hu]

theorem dropWhile_append_of_endsRun (ha : ∀ t ∈ a, isWord t = true) (hb : EndsRun b) :
    (a ++ b).dropWhile isWord = b := by
  rw [List.dropWhile_append_of_pos ha]
  cases b with
  | nil => rfl
  | cons u b =>
      have hu : isWord u = false := hb u rfl
      simp [hu]

/-- A maximal run of words, given with its newest word first, is read as one term. -/
theorem readLeaves_run (field : String) {words : List Token} (rest : List Token)
    (hwords : ∀ t ∈ words, isWord t = true) (hrest : EndsRun rest) :
    readLeaves field (words.reverse ++ rest) = flush field words ++ readLeaves field rest := by
  cases h : words.reverse with
  | nil =>
      have hnil : words = [] := by simpa using h
      simp [hnil, flush]
  | cons w ws =>
      have hall : ∀ t ∈ w :: ws, isWord t = true := by
        intro t ht
        rw [← h] at ht
        exact hwords t (List.mem_reverse.1 ht)
      have hw : isWord w = true := hall w (by simp)
      have hws : ∀ t ∈ ws, isWord t = true := fun t ht => hall t (by simp [ht])
      have hne : words.isEmpty = false := by
        cases words with
        | nil => simp at h
        | cons _ _ => rfl
      rw [List.cons_append, readLeaves_cons_of_word hw]
      simp [takeWhile_append_of_endsRun hws hrest, dropWhile_append_of_endsRun hws hrest,
        flush, hne, h]

theorem endsRun_dropWhile (ts : List Token) : EndsRun (ts.dropWhile isWord) := by
  induction ts with
  | nil =>
      intro t ht
      cases ht
  | cons t ts ih =>
      cases ht : isWord t with
      | true =>
          rw [List.dropWhile_cons_of_pos ht]
          exact ih
      | false =>
          intro u hu
          rw [List.dropWhile_cons_of_neg (by simp [ht])] at hu
          cases hu
          exact ht

theorem EndsRun.append (ha : EndsRun a) (hb : EndsRun b) : EndsRun (a ++ b) := by
  cases a with
  | nil => exact hb
  | cons u a => exact ha

/-- A list with a word in front is a run of words and what comes behind it. -/
theorem cons_eq_run_append (t : Token) (ts : List Token) :
    t :: ts = (t :: ts.takeWhile isWord) ++ ts.dropWhile isWord := by
  rw [List.cons_append, List.takeWhile_append_dropWhile]

/-- Where no run of words goes across, the two parts of a list are read by themselves. -/
theorem readLeaves_append (field : String) (a : List Token) (hb : EndsRun b) :
    readLeaves field (a ++ b) = readLeaves field a ++ readLeaves field b := by
  induction a using readLeaves.induct with
  | case1 => simp
  | case2 t ts hword ih =>
      have hwords : ∀ u ∈ (t :: ts.takeWhile isWord).reverse, isWord u = true := by
        intro u hu
        rcases List.mem_cons.1 (List.mem_reverse.1 hu) with rfl | hu
        · exact hword
        · exact List.all_eq_true.1 List.all_takeWhile u hu
      -- The run of words ends in front of the second part, whether anything stands between or not.
      have hends := endsRun_dropWhile ts
      have hone := readLeaves_run field _ hwords hends
      have hboth := readLeaves_run field _ hwords (hends.append hb)
      have hcut := cons_eq_run_append t ts
      rw [List.reverse_reverse] at hone hboth
      rw [hcut, List.append_assoc, hboth, ih, hone, List.append_assoc]
  | case3 t ts hword ih =>
      have hfalse : isWord t = false := eq_false_of_ne_true hword
      rw [List.cons_append, readLeaves_cons_of_not_word hfalse, ih,
        readLeaves_cons_of_not_word hfalse, List.cons_append]

/-- How many leaves are read does not depend on the field. -/
theorem length_readLeaves (field field' : String) (ts : List Token) :
    (readLeaves field ts).length = (readLeaves field' ts).length := by
  induction ts using readLeaves.induct with
  | case1 => simp
  | case2 t ts hword ih =>
      rw [readLeaves_cons_of_word hword, List.length_cons, ih, readLeaves_cons_of_word hword,
        List.length_cons]
  | case3 t ts hword ih =>
      have hfalse : isWord t = false := eq_false_of_ne_true hword
      rw [readLeaves_cons_of_not_word hfalse, List.length_cons, ih,
        readLeaves_cons_of_not_word hfalse, List.length_cons]

/-! ## Operands -/

/-- Reading operands yields the leaves before the first operator, and stops there.  The words that
are still to be made into a term come before the tokens that are left. -/
theorem operands_eq (field : String) (words ts : List Token)
    (hwords : ∀ t ∈ words, isWord t = true) :
    operands field words ts =
      (readLeaves field (words.reverse ++ ts.takeWhile fun t => !Token.isOperator t),
        ts.dropWhile fun t => !Token.isOperator t) := by
  induction ts generalizing words with
  | nil =>
      have hrun := readLeaves_run field [] hwords (by simp [EndsRun])
      simpa [operands] using hrun.symm
  | cons t ts ih =>
      cases hk : Token.kind t with
      | operator op =>
          -- The operator ends both the run of words and the operands.
          have hop : Token.isOperator t = true := isOperator_of_kind hk
          have hrun := readLeaves_run field [] hwords (by simp [EndsRun])
          simpa [operands, hk, hop] using hrun.symm
      | phrase =>
          have hop : Token.isOperator t = false := by simp [Token.isOperator, hk, Token.Kind.isOperator]
          have hw : isWord t = false := isWord_eq_false (by simp [hk])
          -- The words before a phrase are a whole run; behind it the buffer is empty.
          have hrest := ih [] (by simp)
          have hrun := readLeaves_run field (t :: ts.takeWhile fun t => !Token.isOperator t)
            hwords (by simp [EndsRun, hw])
          simp [operands, hk, hop, hrest, hrun, readLeaves_cons_of_not_word hw]
      | word =>
          have hop : Token.isOperator t = false := by simp [Token.isOperator, hk, Token.Kind.isOperator]
          -- The word joins the buffer, which the induction hypothesis holds for.
          have hrest := ih (t :: words) (by
            intro u hu
            rcases List.mem_cons.1 hu with rfl | hu
            · exact isWord_of_kind hk
            · exact hwords u hu)
          simp [operands, hk, hop, hrest]

theorem takeWhile_of_operatorFree (h : OperatorFree ts) :
    (ts.takeWhile fun t => !Token.isOperator t) = ts := by
  have hpos : ∀ t ∈ ts, (!Token.isOperator t) = true := by
    intro t ht
    simp [h t ht]
  have happ : ((ts ++ []).takeWhile fun t => !Token.isOperator t) = ts ++ [] :=
    List.takeWhile_append_of_pos hpos
  simpa using happ

theorem dropWhile_of_operatorFree (h : OperatorFree ts) :
    (ts.dropWhile fun t => !Token.isOperator t) = [] := by
  have hpos : ∀ t ∈ ts, (!Token.isOperator t) = true := by
    intro t ht
    simp [h t ht]
  have happ : ((ts ++ []).dropWhile fun t => !Token.isOperator t) = [] :=
    List.dropWhile_append_of_pos hpos
  simpa using happ

theorem takeWhile_split (ha : OperatorFree a) (ht : Token.kind t = .operator op) :
    ((a ++ t :: b).takeWhile fun t => !Token.isOperator t) = a := by
  rw [List.takeWhile_append_of_pos (by intro u hu; simp [ha u hu])]
  simp [isOperator_of_kind ht]

theorem dropWhile_split (ha : OperatorFree a) (ht : Token.kind t = .operator op) :
    ((a ++ t :: b).dropWhile fun t => !Token.isOperator t) = t :: b := by
  rw [List.dropWhile_append_of_pos (by intro u hu; simp [ha u hu])]
  simp [isOperator_of_kind ht]

theorem operands_of_operatorFree (field : String) (h : OperatorFree ts) :
    operands field [] ts = (readLeaves field ts, []) := by
  have hread := operands_eq field [] ts (by simp)
  simpa [takeWhile_of_operatorFree h, dropWhile_of_operatorFree h] using hread

theorem operands_split (field : String) (ha : OperatorFree a)
    (ht : Token.kind t = .operator op) :
    operands field [] (a ++ t :: b) = (readLeaves field a, t :: b) := by
  have hread := operands_eq field [] (a ++ t :: b) (by simp)
  simpa [takeWhile_split ha ht, dropWhile_split ha ht] using hread

/-! ## The two equations of the grammar -/

theorem readClauses_of_operatorFree (field : String) (h : OperatorFree ts) :
    readClauses field ts = readLeaves field ts := by
  rw [readClauses]
  split
  · rfl
  · rename_i u rest hdrop
    rw [dropWhile_of_operatorFree h] at hdrop
    cases hdrop

theorem readClauses_split (field : String) (ha : OperatorFree a)
    (ht : Token.kind t = .operator op) :
    readClauses field (a ++ t :: b) = [.group op (readLeaves field a ++ readClauses field b)] := by
  rw [readClauses]
  split
  · rename_i hdrop
    rw [dropWhile_split ha ht] at hdrop
    cases hdrop
  · rename_i u rest hdrop
    rw [dropWhile_split ha ht] at hdrop
    cases hdrop
    simp [ht, takeWhile_split ha ht]

theorem readClauses_eq_nil : readClauses field ts = [] ↔ ts = [] := by
  rcases operatorFree_or_split ts with hfree | ⟨a, t, b, op, rfl, ha, ht⟩
  · rw [readClauses_of_operatorFree field hfree, readLeaves_eq_nil]
  · rw [readClauses_split field ha ht]
    simp

/-! ## The spine -/

theorem spine_of_operatorFree (field : String) (h : OperatorFree ts) :
    spine field ts = .ok ⟨[], readLeaves field ts⟩ := by
  rw [spine]
  split
  · rename_i clauses hops
    rw [operands_of_operatorFree field h] at hops
    cases hops
    rfl
  · rename_i clauses u rest hops
    rw [operands_of_operatorFree field h] at hops
    cases hops

theorem spine_split (field : String) {s : Spine} (ha : OperatorFree a)
    (ht : Token.kind t = .operator op) (hb : spine field b = .ok s) :
    spine field (a ++ t :: b) = .ok ⟨(readLeaves field a, op) :: s.segments, s.last⟩ := by
  rw [spine]
  split
  · rename_i clauses hops
    rw [operands_split field ha ht] at hops
    cases hops
  · rename_i clauses u rest hops
    rw [operands_split field ha ht] at hops
    cases hops
    simp [expectOperator, ht, hb]

/-- Every token list has a spine, and folding it gives the reading of the grammar. -/
theorem spine_clauses (field : String) (ts : List Token) :
    ∃ s, spine field ts = .ok s ∧ s.clauses = readClauses field ts := by
  induction ts using operatorInduction with
  | free ts hfree =>
      refine ⟨_, spine_of_operatorFree field hfree, ?_⟩
      rw [readClauses_of_operatorFree field hfree]
      rfl
  | split a t op b ha ht ih =>
      -- The fold from the right has dealt with everything behind the first operator.
      obtain ⟨s, hs, hclauses⟩ := ih
      refine ⟨_, spine_split field ha ht hs, ?_⟩
      rw [readClauses_split field ha ht, ← hclauses]
      rfl

/-! ## The parser -/

/-- Within the limit, the parser gives the reading of the grammar. -/
theorem parse_of_operatorCount_le (field : String) {limit : Nat}
    (h : Token.operatorCount ts ≤ limit) :
    parse field ts limit = .ok (readClauses field ts) := by
  obtain ⟨s, hs, hclauses⟩ := spine_clauses field ts
  have hlimit : ¬ limit < Token.operatorCount ts := Nat.not_lt.2 h
  simp [parse, hlimit, hs, Except.map, hclauses]

/-- Above the limit, the parser answers how many operators there are. -/
theorem parse_of_lt_operatorCount (field : String) {limit : Nat}
    (h : limit < Token.operatorCount ts) :
    parse field ts limit = .error (.tooManyOperators (Token.operatorCount ts) limit) :=
  if_pos h

/-- Too many operators are the only fault that the parser finds. -/
theorem parse_eq_error_iff {limit : Nat} {e : ParseError} :
    parse field ts limit = .error e
      ↔ limit < Token.operatorCount ts ∧ e = .tooManyOperators (Token.operatorCount ts) limit := by
  by_cases h : limit < Token.operatorCount ts
  · rw [parse_of_lt_operatorCount field h, Except.error.injEq]
    exact ⟨fun he => ⟨h, he.symm⟩, fun he => he.2.symm⟩
  · rw [parse_of_operatorCount_le field (Nat.le_of_not_lt h)]
    exact iff_of_false nofun fun he => h he.1

/-- Within the limit the parser gives the reading of the grammar: leaves where there is no operator,
and otherwise one group, of the leaves before the first operator and the reading of what follows it.
So two operators nest to the right, whatever they are and even if nothing stands around them. -/
theorem parse_eq_readClauses (field : String) (ts : List Token) (limit : Nat)
    (hlimit : Token.operatorCount ts ≤ limit) :
    parse field ts limit = .ok (readClauses field ts)
      ∧ (OperatorFree ts → readClauses field ts = readLeaves field ts)
      ∧ (∀ a t b op, ts = a ++ t :: b → OperatorFree a → Token.kind t = .operator op →
          readClauses field ts = [.group op (readLeaves field a ++ readClauses field b)])
      ∧ (∀ a t b u c op op', ts = a ++ t :: (b ++ u :: c) →
          OperatorFree a → OperatorFree b → OperatorFree c →
          Token.kind t = .operator op → Token.kind u = .operator op' →
          parse field ts limit
            = .ok [.group op (readLeaves field a
                ++ [.group op' (readLeaves field b ++ readLeaves field c)])]) := by
  have hparse := parse_of_operatorCount_le field hlimit
  refine ⟨hparse, readClauses_of_operatorFree field, ?_, ?_⟩
  · rintro a t b op rfl ha ht
    exact readClauses_split field ha ht
  · -- The second operator is the first one of what follows the first.
    rintro a t b u c op op' rfl ha hb hc ht hu
    rw [hparse, readClauses_split field ha ht, readClauses_split field hb hu,
      readClauses_of_operatorFree field hc]

/-- An empty token before two operators in a row, and a lone quote after them; and a run of words
with a backslash at an end, with nothing and with a blank in them, before a phrase that has a quote
in it. -/
theorem parse_doubled_operators_and_escapes :
    (Token.operatorCount [[], ['O', 'R'], ['A', 'N', 'D'], ['"']] ≤ 2
        ∧ parse "f" [[], ['O', 'R'], ['A', 'N', 'D'], ['"']] 2
          = .ok [.group .or [.term "f" "", .group .and [.phrase "f" ""]]])
      ∧ (Token.operatorCount [['a', '\\'], [], ['b', ' ', 'c'], ['O', 'R'],
            ['"', 'd', '\\', '"', 'e', '"'], ['g'], ['A', 'N', 'D'], ['\\', '\\', 'h']] ≤ 2
        ∧ parse "f" [['a', '\\'], [], ['b', ' ', 'c'], ['O', 'R'],
            ['"', 'd', '\\', '"', 'e', '"'], ['g'], ['A', 'N', 'D'], ['\\', '\\', 'h']] 2
          = .ok [.group .or [.term "f" "a  b c",
              .group .and [.phrase "f" "d\"e", .term "f" "g", .term "f" "\\h"]]]) := by
  refine ⟨⟨by decide, ?_⟩, ⟨by decide, ?_⟩⟩
  · have hread := (parse_eq_readClauses "f" [[], ['O', 'R'], ['A', 'N', 'D'], ['"']] 2
      (by decide)).2.2.2 [[]] ['O', 'R'] [] ['A', 'N', 'D'] [['"']] .or .and rfl (by decide)
      operatorFree_nil (by decide) rfl rfl
    refine hread.trans ?_
    simp [readLeaves, isWord, Token.kind, Text.dropEnds]
  · have hread := (parse_eq_readClauses "f" [['a', '\\'], [], ['b', ' ', 'c'], ['O', 'R'],
      ['"', 'd', '\\', '"', 'e', '"'], ['g'], ['A', 'N', 'D'], ['\\', '\\', 'h']] 2
      (by decide)).2.2.2 [['a', '\\'], [], ['b', ' ', 'c']] ['O', 'R']
      [['"', 'd', '\\', '"', 'e', '"'], ['g']] ['A', 'N', 'D'] [['\\', '\\', 'h']] .or .and rfl
      (by decide) (by decide) (by decide) rfl rfl
    refine hread.trans ?_
    simp [readLeaves, isWord, Token.kind, Text.dropEnds, Text.unescape_cons_of_ne, List.intercalate]

end Query
end SearchBox
