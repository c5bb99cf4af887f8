import SearchBox.Proofs.Place
import SearchBox.Proofs.Search
import SearchBox.Proofs.Splicing

/-!
# Quoted data in a search text

A text of foreign data is put into a search text between double quotes, with a backslash before each
of its backslashes and double quotes.  Whatever the data is, it does not get out of its quotes:

* `tokenize_around` — in a balanced text the quotation is one token, and the texts around it keep
  their own tokens;
* `exists_place` — among tokens, a phrase has a place that does not depend on what it says;
* `query_around` — a search for the text has the data as a phrase at such a place, and other data
  changes nothing but that phrase.

Nothing is said of data that stands in front of an unbalanced text.
-/

namespace SearchBox

namespace Token

/-- Whether a character has a meaning of its own between double quotes. -/
def isMark (c : Char) : Bool :=
  c == '\\' || c == '"'

/-- A text in double quotes, with a backslash before each of its backslashes and double quotes. -/
def quotation (t : List Char) : Token :=
  '"' :: (Text.escapeWhere isMark t ++ ['"'])

theorem kind_quotation (t : List Char) : kind (quotation t) = .phrase := rfl

theorem isClosed_quotation (t : List Char) : IsClosed (quotation t) :=
  isClosed_quote rfl rfl t

end Token

namespace Query

open Grammar Token

variable {field : String} {a b : List Token} {x y : Token}

/-- A quotation is read as the text it was made of. -/
theorem ofPhrase_quotation (field text : String) :
    ofPhrase field (quotation text.toList) = .phrase field text := by
  have htext : Text.unescape (Text.escapeWhere isMark text.toList) = text.toList :=
    Text.unescape_escapeWhere rfl text.toList
  simp [ofPhrase, quotation, Text.dropEnds_enclosed, htext]

/-! ## A phrase among tokens -/

theorem operatorCount_phrase (hx : kind x = .phrase) :
    operatorCount (a ++ x :: b) = operatorCount a + operatorCount b := by
  have hop : isOperator x = false := by simp [isOperator, hx, Kind.isOperator]
  rw [operatorCount_append_cons, hop, if_neg Bool.false_ne_true, Nat.add_zero]

theorem readLeaves_phrase (field : String) (hx : kind x = .phrase) :
    readLeaves field (a ++ x :: b)
      = readLeaves field a ++ ofPhrase field x :: readLeaves field b := by
  have hword : isWord x = false := isWord_eq_false (by simp [hx])
  have hends : EndsRun (x :: b) := by
    intro t ht
    cases ht
    exact hword
  rw [readLeaves_append field a hends, readLeaves_cons_of_not_word hword]

theorem operatorFree_phrase (hx : kind x = .phrase) (ha : OperatorFree a) (hb : OperatorFree b) :
    OperatorFree (a ++ x :: b) := by
  rw [← operatorCount_eq_zero] at ha hb ⊢
  rw [operatorCount_phrase hx, ha, hb]

/-- A phrase has a place among tokens that depends neither on the field nor on what it says, and so
has the number of clauses; other phrases there make no other difference. -/
theorem exists_place (a b : List Token) :
    ∃ count i p, ∀ field x y, kind x = .phrase → kind y = .phrase →
      (readClauses field (a ++ x :: b)).length = count
        ∧ ∀ op, DifferAt (ofPhrase field x) (ofPhrase field y) (i :: p)
          (.group op (readClauses field (a ++ x :: b)))
          (.group op (readClauses field (a ++ y :: b))) := by
  induction a using operatorInduction with
  | free a ha =>
      rcases operatorFree_or_split b with hb | ⟨b, t, c, op, rfl, hb, ht⟩
      · -- Without operators the phrase is a clause of its own, behind the leaves before it.
        refine ⟨(readLeaves "" a).length + ((readLeaves "" b).length + 1),
          (readLeaves "" a).length, [], ?_⟩
        intro field x y hx hy
        rw [readClauses_of_operatorFree field (operatorFree_phrase hx ha hb),
          readClauses_of_operatorFree field (operatorFree_phrase hy ha hb),
          readLeaves_phrase field hx, readLeaves_phrase field hy, length_readLeaves "" field a,
          length_readLeaves "" field b]
        exact ⟨by simp, fun op => .leaf op _ _⟩
      · -- The first operator comes after the phrase, so the phrase is one of its operands.
        refine ⟨1, 0, [(readLeaves "" a).length], ?_⟩
        intro field x y hx hy
        have hread : ∀ z, kind z = .phrase →
            readClauses field (a ++ z :: (b ++ t :: c))
              = [.group op (readLeaves field a
                  ++ ofPhrase field z :: (readLeaves field b ++ readClauses field c))] := by
          intro z hz
          have hcut : a ++ z :: (b ++ t :: c) = (a ++ z :: b) ++ t :: c := by simp
          rw [hcut, readClauses_split field (operatorFree_phrase hz ha hb) ht,
            readLeaves_phrase field hz]
          simp
        rw [hread x hx, hread y hy, length_readLeaves "" field a]
        exact ⟨rfl, fun op' => .clause op' [] [] (.leaf op _ _)⟩
  | split a t op c ha ht ih =>
      -- The phrase is in the group of the first operator, behind the leaves before that.
      obtain ⟨count, i, p, hplace⟩ := ih
      refine ⟨1, 0, ((readLeaves "" a).length + i) :: p, ?_⟩
      intro field x y hx hy
      have hdiffer := (hplace field x y hx hy).2 op
      rw [List.append_assoc, List.cons_append, List.append_assoc, List.cons_append,
        readClauses_split field ha ht, readClauses_split field ha ht, length_readLeaves "" field a]
      exact ⟨rfl, fun op' => .clause op' [] [] (hdiffer.append_left (readLeaves field a))⟩

end Query

namespace Settings

open Query Token

/-- A search text with quoted data between two other texts. -/
def around (a data b : String) : String :=
  a ++ " " ++ String.ofList (quotation data.toList) ++ " " ++ b

theorem toList_around (a data b : String) :
    (around a data b).toList = a.toList ++ ' ' :: (quotation data.toList ++ ' ' :: b.toList) := by
  simp [around]

/-- Behind a balanced text, quoted data is one token. -/
theorem tokenize_around {a : String} (ha : Balanced a.toList) (data b : String) :
    tokenize (around a data b).toList
      = tokenize a.toList ++ quotation data.toList :: tokenize b.toList := by
  have hclosed := isClosed_quotation data.toList
  rw [toList_around, tokenize_append_separator (balanced_iff_atRest.1 ha) rfl,
    tokenize_append_separator hclosed.atRest rfl, hclosed.tokenize]
  rfl

theorem operatorsIn_around {a : String} (ha : Balanced a.toList) (data b : String) :
    operatorsIn (around a data b) = operatorsIn a + operatorsIn b := by
  rw [operatorsIn, tokenize_around ha, operatorCount_phrase (kind_quotation _)]
  rfl

/-- Behind a balanced text `a`, quoted data keeps to itself.  It is one token between the tokens of
the two texts and adds no operator.  Within the limit, the query has the data as a phrase at a place
that only the two texts decide, and a query with other data is the same query with another phrase
there.  Above the limit every such text is searched for as it stands. -/
theorem query_around (a b : String) (ha : Balanced a.toList) :
    (∀ data, tokenize (around a data b).toList
        = tokenize a.toList ++ [quotation data.toList] ++ tokenize b.toList)
      ∧ (∀ data, operatorsIn (around a data b) = operatorsIn a + operatorsIn b)
      ∧ (∃ place : Place, ∀ (s : Settings) (field data data' : String),
          operatorsIn (around a data b) ≤ s.maxOperators.toNat →
            (s.query field (around a data b)).get? place = some (.phrase field data)
              ∧ s.query field (around a data' b)
                = (s.query field (around a data b)).replace place (.phrase field data'))
      ∧ ∀ (s : Settings) (field data data' : String),
          s.maxOperators.toNat < operatorsIn (around a data b) →
            s.query field (around a data b) = .term field (around a data b)
              ∧ s.query field (around a data' b) = .term field (around a data' b) := by
  have hcount : ∀ data data', operatorsIn (around a data b) = operatorsIn (around a data' b) := by
    intro data data'
    rw [operatorsIn_around ha, operatorsIn_around ha]
  refine ⟨?_, fun data => operatorsIn_around ha data b, ?_, ?_⟩
  · intro data
    rw [tokenize_around ha, List.append_assoc]
    rfl
  · obtain ⟨count, i, p, hplace⟩ := exists_place (tokenize a.toList) (tokenize b.toList)
    refine ⟨placeAmong count i p, ?_⟩
    intro s field data data' hlimit
    obtain ⟨hlength, hdiffer⟩ :=
      hplace field _ _ (kind_quotation data.toList) (kind_quotation data'.toList)
    have hqueries := (hdiffer .or).ofClauses field
    -- Both texts are within the limit, since they have the same number of operators.
    rw [hlength, ofPhrase_quotation, ofPhrase_quotation, ← tokenize_around ha, ← tokenize_around ha,
      ← query_of_operatorsIn_le field hlimit,
      ← query_of_operatorsIn_le field (hcount data data' ▸ hlimit)] at hqueries
    exact ⟨hqueries.get?_left, hqueries.replace_left.symm⟩
  · intro s field data data' hlimit
    exact ⟨query_of_lt_operatorsIn field hlimit,
      query_of_lt_operatorsIn field (hcount data data' ▸ hlimit)⟩

/-- Data with a quote, an operator and a backslash between two operators, with enough operators
allowed and with too few. -/
theorem query_around_operators :
    Balanced "a AND".toList
      ∧ tokenize (around "a AND" "\" OR \\" "OR b").toList
        = [['a'], ['A', 'N', 'D'], quotation "\" OR \\".toList, ['O', 'R'], ['b']]
      ∧ operatorsIn (around "a AND" "\" OR \\" "OR b") = 2
      ∧ (∃ place : Place,
          (Settings.query {} "f" (around "a AND" "\" OR \\" "OR b")).get? place
              = some (.phrase "f" "\" OR \\")
            ∧ Settings.query {} "f" (around "a AND" "" "OR b")
              = (Settings.query {} "f" (around "a AND" "\" OR \\" "OR b")).replace place
                  (.phrase "f" ""))
      ∧ Settings.query ⟨"f", 1⟩ "f" (around "a AND" "\" OR \\" "OR b")
        = .term "f" (around "a AND" "\" OR \\" "OR b") := by
  have ha : Balanced "a AND".toList := by decide
  obtain ⟨htokens, hcount, ⟨place, hwithin⟩, habove⟩ := query_around "a AND" "OR b" ha
  have htwo : operatorsIn (around "a AND" "\" OR \\" "OR b") = 2 := (hcount _).trans (by decide)
  refine ⟨ha, (htokens _).trans (by decide), htwo, ⟨place, hwithin {} "f" _ _ ?_⟩, ?_⟩
  · rw [htwo]
    decide
  · have hlimit : (⟨"f", 1⟩ : Settings).maxOperators.toNat
        < operatorsIn (around "a AND" "\" OR \\" "OR b") := by
      rw [htwo]
      decide
    exact (habove ⟨"f", 1⟩ "f" _ "" hlimit).1

end Settings
end SearchBox
