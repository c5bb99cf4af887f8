import SearchBox.Proofs.Marks
import SearchBox.Proofs.Nesting

/-!
# What a query takes from its tokens

Of each token a query takes a piece and no more: what the token stands for, and its text without
escapes, which for a phrase is the text between its two ends.  This file defines

* `Piece` and `Piece.ofToken` — the pieces of tokens;
* `leavesOfPieces` — the leaves that pieces make, with the texts of neighbouring words joined.

`leavesOf_readClauses` says that these are the leaves that are read, `unescape_joined` that the words
of a run do not see each other's backslashes, and `readClauses_congr` and `Settings.query_congr` that
tokens and texts with the same pieces are read the same.
-/

namespace SearchBox
namespace Query

open Grammar

variable {field : String} {t : Token} {ts ts' : List Token}

/-! ## Pieces -/

/-- What a query takes from a token. -/
@[ext]
structure Piece where
  kind : Token.Kind
  text : List Char
  deriving DecidableEq, Repr

namespace Piece

def ofToken (t : Token) : Piece where
  kind := Token.kind t
  text := if Token.kind t = .phrase then Text.unescape (Text.dropEnds t) else Text.unescape t

def isWord (p : Piece) : Bool :=
  p.kind == .word

end Piece

theorem exists_quote_of_phrase (h : Token.kind t = .phrase) : ∃ u, t = '"' :: u := by
  unfold Token.kind at h
  split at h
  · cases h
  · cases h
  · exact ⟨_, rfl⟩
  · cases h

/-- Of a token without its escapes, the text of its piece is all, or for a phrase all but the two
ends; but a lone backslash is the last character of a phrase that ends in one. -/
theorem Piece.text_ofToken (t : Token) :
    (ofToken t).text
      = if Token.kind t = .phrase then
          if Token.escapedAt t t.length then (Text.unescape t).tail
          else Text.dropEnds (Text.unescape t)
        else Text.unescape t := by
  unfold ofToken
  by_cases hphrase : Token.kind t = .phrase
  · obtain ⟨u, rfl⟩ := exists_quote_of_phrase hphrase
    rw [if_pos hphrase, if_pos hphrase, Token.unescape_dropEnds (by decide)]
  · rw [if_neg hphrase, if_neg hphrase]

variable {p : Piece} {ps : List Piece}

/-- The leaves that pieces make: each maximal run of words is one term, with their texts joined by
single spaces, and each phrase is one phrase.  Operators make none. -/
def leavesOfPieces (field : String) : List Piece → List Query
  | [] => []
  | p :: ps =>
      match p.kind with
      | .word =>
          .term field
              (String.ofList ([' '].intercalate ((p :: ps.takeWhile Piece.isWord).map Piece.text)))
            :: leavesOfPieces field (ps.dropWhile Piece.isWord)
      | .phrase => .phrase field (String.ofList p.text) :: leavesOfPieces field ps
      | .operator _ => leavesOfPieces field ps
termination_by ps => ps.length
decreasing_by
  · exact Nat.lt_succ_of_le (List.dropWhile_sublist Piece.isWord).length_le
  · exact Nat.lt_succ_self _
  · exact Nat.lt_succ_self _

@[simp] theorem leavesOfPieces_nil : leavesOfPieces field [] = [] := by
  rw [leavesOfPieces]

theorem leavesOfPieces_word (h : p.kind = .word) :
    leavesOfPieces field (p :: ps)
      = .term field
            (String.ofList ([' '].intercalate ((p :: ps.takeWhile Piece.isWord).map Piece.text)))
          :: leavesOfPieces field (ps.dropWhile Piece.isWord) := by
  rw [leavesOfPieces]
  simp [h]

theorem leavesOfPieces_phrase (h : p.kind = .phrase) :
    leavesOfPieces field (p :: ps)
      = .phrase field (String.ofList p.text) :: leavesOfPieces field ps := by
  rw [leavesOfPieces]
  simp [h]

theorem leavesOfPieces_operator {op : Operator} (h : p.kind = .operator op) :
    leavesOfPieces field (p :: ps) = leavesOfPieces field ps := by
  rw [leavesOfPieces]
  simp [h]

/-! ## The pieces of leaves -/

theorem ofWords_eq_pieces (field : String) (h : ∀ t ∈ ts, Grammar.isWord t = true) :
    ofWords field ts
      = .term field
          (String.ofList ([' '].intercalate ((ts.map Piece.ofToken).map Piece.text))) := by
  have htexts : (ts.map Piece.ofToken).map Piece.text = ts.map Text.unescape := by
    rw [List.map_map]
    apply List.map_congr_left
    intro t ht
    have hkind : Token.kind t = .word := by simpa [Grammar.isWord] using h t ht
    simp [Piece.ofToken, hkind]
  rw [ofWords, htexts, Token.unescape_intercalate]

theorem ofPhrase_eq_piece (field : String) (h : Token.kind t = .phrase) :
    ofPhrase field t = .phrase field (String.ofList (Piece.ofToken t).text) := by
  rw [ofPhrase, Piece.ofToken, if_pos h]

/-- The leaves of blocks are made of the pieces of their tokens. -/
theorem map_leaf_blocks (field : String) (ts : List Token) :
    (blocks ts).map (Block.leaf field) = leavesOfPieces field (ts.map Piece.ofToken) := by
  induction ts using blockInduction with
  | nil => simp
  | word t ts ht ih =>
      have hisWord : Piece.isWord ∘ Piece.ofToken = Grammar.isWord := rfl
      have hwords : ∀ u ∈ t :: ts.takeWhile Grammar.isWord, Grammar.isWord u = true :=
        forall_isWord_run ht
      have hrun := ofWords_eq_pieces field hwords
      rw [List.map_cons] at hrun
      rw [List.map_cons, leavesOfPieces_word (p := Piece.ofToken t) ht, List.takeWhile_map,
        List.dropWhile_map, hisWord, ← hrun, ← ih, blocks_word ht, List.map_cons,
        Block.leaf_words field hwords]
  | phrase t ts ht ih =>
      rw [List.map_cons, leavesOfPieces_phrase (p := Piece.ofToken t) ht,
        ← ofPhrase_eq_piece field ht, ← ih, blocks_phrase ht, List.map_cons,
        Block.leaf_phrase field ht]
  | operator t op ts ht ih =>
      rw [List.map_cons, leavesOfPieces_operator (p := Piece.ofToken t) ht, ← ih,
        blocks_operator ht]

/-- The leaves of the clauses that are read are made of the pieces of the tokens. -/
theorem leavesOf_readClauses (field : String) (ts : List Token) :
    leavesOf (readClauses field ts) = leavesOfPieces field (ts.map Piece.ofToken) := by
  rw [← map_snd_leavesUnderOf none, leavesUnderOf_readClauses, List.map_map, ← map_leaf_blocks]
  rfl

/-! ## Word by word -/

/-- Words behind a word are joined to it by a space. -/
theorem intercalate_append_cons (before : List (List Char)) (w v : List Char)
    (after : List (List Char)) :
    [' '].intercalate (before ++ w :: v :: after)
      = [' '].intercalate (before ++ [w]) ++ ' ' :: [' '].intercalate (v :: after) := by
  induction before with
  | nil => simp [List.intercalate_cons_cons]
  | cons u before ih =>
      have hne : before ++ [w] ≠ [] := by simp
      obtain ⟨x, xs, hcons⟩ := List.exists_cons_of_ne_nil hne
      have hlong : before ++ w :: v :: after = x :: (xs ++ v :: after) := by
        rw [List.append_cons, hcons, List.cons_append]
      rw [hlong, hcons] at ih
      rw [List.cons_append, List.cons_append, hlong, hcons, List.intercalate_cons_cons, ih,
        List.intercalate_cons_cons, List.append_assoc, List.append_assoc, List.append_assoc]

/-- The term of a run of words has the texts of the words, each unescaped by itself. -/
theorem flush_eq (field : String) (words : List Token) :
    flush field words
      = if words.isEmpty then []
        else [.term field
          (String.ofList ([' '].intercalate (words.reverse.map Text.unescape)))] := by
  rw [flush, ofWords, Token.unescape_intercalate]

/-- It makes no difference whether words are unescaped before or after they are joined, whatever
backslashes are in them: what stands behind a word does not depend on how the word ends.  So a run of
words, unescaped as a whole, becomes the same term as word by word, and every leaf of a token list is
made of pieces of single tokens, also if no text has such tokens. -/
theorem unescape_joined :
    (∀ words : List (List Char),
        Text.unescape ([' '].intercalate words) = [' '].intercalate (words.map Text.unescape))
      ∧ (∀ (before : List (List Char)) (w v : List Char) (after : List (List Char)),
          Text.unescape ([' '].intercalate (before ++ w :: v :: after))
            = Text.unescape ([' '].intercalate (before ++ [w]))
              ++ ' ' :: Text.unescape ([' '].intercalate (v :: after)))
      ∧ ∀ field : String,
        (∀ words : List Token, flush field words
            = if words.isEmpty then []
              else [.term field
                (String.ofList ([' '].intercalate (words.reverse.map Text.unescape)))])
          ∧ ∀ (ts : List Token) (limit : Nat), Token.operatorCount ts ≤ limit →
              (parse field ts limit).map leavesOf
                = .ok (leavesOfPieces field (ts.map Piece.ofToken)) := by
  refine ⟨Token.unescape_intercalate, ?_, fun field => ⟨flush_eq field, ?_⟩⟩
  · intro before w v after
    rw [intercalate_append_cons, Token.unescape_append_cons _ (by decide)]
  · intro ts limit hlimit
    rw [parse_of_operatorCount_le field hlimit, Except.map, leavesOf_readClauses]

/-- Two words with a backslash at the end, of which one is escaped itself. -/
example : Text.unescape ([' '].intercalate ["a\\".toList, "b\\\\".toList, "c".toList])
    = "a b\\ c".toList := by
  decide

/-! ## Tokens with the same pieces -/

theorem operatorCount_eq_countP_pieces (ts : List Token) :
    Token.operatorCount ts = (ts.map Piece.ofToken).countP fun p => p.kind.isOperator := by
  rw [List.countP_map]
  rfl

theorem operatorCount_congr (h : ts.map Piece.ofToken = ts'.map Piece.ofToken) :
    Token.operatorCount ts = Token.operatorCount ts' := by
  rw [operatorCount_eq_countP_pieces, h, operatorCount_eq_countP_pieces]

theorem operatorFree_congr (h : ts.map Piece.ofToken = ts'.map Piece.ofToken) :
    OperatorFree ts ↔ OperatorFree ts' := by
  rw [← operatorCount_eq_zero, operatorCount_congr h, operatorCount_eq_zero]

/-- Without operators, all that is read is made of the pieces. -/
theorem readLeaves_eq_leavesOfPieces (field : String) (h : OperatorFree ts) :
    readLeaves field ts = leavesOfPieces field (ts.map Piece.ofToken) := by
  rw [readLeaves_eq_map_blocks field h, map_leaf_blocks]

/-- Tokens with the same pieces are read the same. -/
theorem readClauses_congr (field : String) (h : ts.map Piece.ofToken = ts'.map Piece.ofToken) :
    readClauses field ts = readClauses field ts' := by
  induction ts using operatorInduction generalizing ts' with
  | free ts hfree =>
      have hfree' := (operatorFree_congr h).1 hfree
      rw [readClauses_of_operatorFree field hfree, readClauses_of_operatorFree field hfree',
        readLeaves_eq_leavesOfPieces field hfree, readLeaves_eq_leavesOfPieces field hfree', h]
  | split a t op b ha ht ih =>
      -- The other list has the same operator at the same place.
      rw [List.map_append, List.map_cons] at h
      obtain ⟨a', rest, rfl, hmap, hrest⟩ := List.map_eq_append_iff.1 h.symm
      obtain ⟨t', b', rfl, hpiece, hb⟩ := List.map_eq_cons_iff.1 hrest
      have ha' : OperatorFree a' := (operatorFree_congr hmap).2 ha
      have ht' : Token.kind t' = .operator op := (congrArg Piece.kind hpiece).trans ht
      rw [readClauses_split field ha ht, readClauses_split field ha' ht', ih hb.symm,
        readLeaves_eq_leavesOfPieces field ha, readLeaves_eq_leavesOfPieces field ha', hmap]

/-- A list of clauses that is not empty has the leaves of its query. -/
theorem leaves_ofClauses (field : String) {cs : List Query} (h : cs ≠ []) :
    (ofClauses field cs).leaves = leavesOf cs := by
  match cs with
  | [] => exact absurd rfl h
  | [q] => rw [ofClauses, leavesOf, leavesOf, List.append_nil]
  | p :: q :: rest => rfl

end Query

namespace Settings

open Query Grammar

variable {s : Settings} {text text' : String}

/-- The pieces of a text. -/
def pieces (text : String) : List Piece :=
  (Token.tokenize text.toList).map Piece.ofToken

theorem operatorsIn_congr (h : pieces text = pieces text') :
    operatorsIn text = operatorsIn text' :=
  operatorCount_congr h

/-- Within the limit, the leaves of a query are made of the pieces of its text, if it has any. -/
theorem leaves_query (field : String) (hlimit : operatorsIn text ≤ s.maxOperators.toNat)
    (hne : Token.tokenize text.toList ≠ []) :
    (s.query field text).leaves = leavesOfPieces field (pieces text) := by
  have hclauses : readClauses field (Token.tokenize text.toList) ≠ [] :=
    fun hnil => hne (readClauses_eq_nil.1 hnil)
  rw [query_of_operatorsIn_le field hlimit, leaves_ofClauses field hclauses, leavesOf_readClauses,
    pieces]

/-- Within the limit, texts with the same pieces have the same query. -/
theorem query_congr (field : String) (h : pieces text = pieces text')
    (hlimit : operatorsIn text ≤ s.maxOperators.toNat) :
    s.query field text = s.query field text' := by
  have hlimit' : operatorsIn text' ≤ s.maxOperators.toNat := operatorsIn_congr h ▸ hlimit
  rw [query_of_operatorsIn_le field hlimit, query_of_operatorsIn_le field hlimit',
    readClauses_congr field h]

end Settings
end SearchBox
