import SearchBox.Proofs.Grammar
import SearchBox.Search

/-!
# What a search answers

A search reads its text by the grammar as long as the text has no more operators than are allowed,
and looks for the text as it stands otherwise.  The two cases are kept apart here once, so that no
other file opens `Settings.query`:

* `query_of_operatorsIn_le`, `log_of_operatorsIn_le` — within the limit;
* `query_of_lt_operatorsIn`, `log_of_lt_operatorsIn` — above it;
* `limit_decides` — which side of the limit a text is on is all that the limit has to do with the
  answer, and being above it is the only fault.
-/

namespace SearchBox
namespace Settings

open Query Grammar

variable {s : Settings} {text : String}

/-- The number of operators in a text. -/
def operatorsIn (text : String) : Nat :=
  Token.operatorCount (Token.tokenize text.toList)

theorem clauses_of_operatorsIn_le (field : String) (h : operatorsIn text ≤ s.maxOperators.toNat) :
    s.clauses field text = .ok (readClauses field (Token.tokenize text.toList)) :=
  parse_of_operatorCount_le field h

/-- Within the limit a text is searched for as the grammar reads it. -/
theorem query_of_operatorsIn_le (field : String) (h : operatorsIn text ≤ s.maxOperators.toNat) :
    s.query field text = ofClauses field (readClauses field (Token.tokenize text.toList)) := by
  rw [query, clauses_of_operatorsIn_le field h]

theorem clauses_of_lt_operatorsIn (field : String) (h : s.maxOperators.toNat < operatorsIn text) :
    s.clauses field text
      = .error (.tooManyOperators (operatorsIn text) s.maxOperators.toNat) :=
  parse_of_lt_operatorCount field h

/-- Above the limit a text is searched for as it stands. -/
theorem query_of_lt_operatorsIn (field : String) (h : s.maxOperators.toNat < operatorsIn text) :
    s.query field text = .term field text := by
  rw [query, clauses_of_lt_operatorsIn field h]

/-! ## The log -/

/-- Within the limit the log has the tokens and the query. -/
theorem log_of_operatorsIn_le (field : String) (h : operatorsIn text ≤ s.maxOperators.toNat) :
    s.log field text
      = [.tokens (Token.tokenize text.toList), .query (s.query field text)] := by
  rw [log, query, clauses_of_operatorsIn_le field h]

/-- Above the limit the log has the tokens and a warning. -/
theorem log_of_lt_operatorsIn (field : String) (h : s.maxOperators.toNat < operatorsIn text) :
    s.log field text
      = [.tokens (Token.tokenize text.toList),
          .degraded (.tooManyOperators (operatorsIn text) s.maxOperators.toNat)] := by
  rw [log, clauses_of_lt_operatorsIn field h]

/-! ## What the limit decides -/

/-- A token list is refused just if it has more operators than are allowed, for no other reason, and
with both numbers in the error; otherwise it is read the same under every limit.  So within the limit
a search has the same query whatever the limit is, and logs its tokens and that query; above it a
search is for the text as it stands, and logs its tokens and a warning. -/
theorem limit_decides (field : String) :
    (∀ ts, Token.operatorCount ts
        = ts.count Operator.and.word.toList + ts.count Operator.or.word.toList)
      ∧ (∀ ts limit e, parse field ts limit = .error e ↔
          limit < Token.operatorCount ts ∧ e = .tooManyOperators (Token.operatorCount ts) limit)
      ∧ (∀ ts t, spine field ts ≠ .error (.notAnOperator t)
          ∧ ∀ limit, parse field ts limit ≠ .error (.notAnOperator t))
      ∧ (∀ ts limit limit', Token.operatorCount ts ≤ limit → Token.operatorCount ts ≤ limit' →
          parse field ts limit = parse field ts limit')
      ∧ (∀ text (s s' : Settings),
          operatorsIn text ≤ s.maxOperators.toNat → operatorsIn text ≤ s'.maxOperators.toNat →
            s.query field text = s'.query field text
              ∧ s.log field text
                = [⟨.debug, "search tokens: "
                      ++ String.ofList (Text.quoteList (Token.tokenize text.toList))⟩,
                    ⟨.debug, "search query: " ++ (s.query field text).display⟩])
      ∧ ∀ text (s : Settings), s.maxOperators.toNat < operatorsIn text →
          s.query field text = .term field text
            ∧ s.log field text
              = [⟨.debug, "search tokens: "
                    ++ String.ofList (Text.quoteList (Token.tokenize text.toList))⟩,
                  ⟨.warn, "search query degraded to plain match: "
                    ++ ("query has " ++ toString (operatorsIn text) ++ " operators, limit is "
                      ++ toString s.maxOperators.toNat)⟩] := by
  refine ⟨operatorCount_eq_count, fun _ _ _ => parse_eq_error_iff, ?_, ?_, ?_, ?_⟩
  · -- Where operands end, there is an operator or nothing, so a spine is always found.
    intro ts t
    obtain ⟨spine, hspine, _⟩ := spine_clauses field ts
    refine ⟨?_, ?_⟩
    · rw [hspine]
      exact nofun
    · intro limit h
      cases (parse_eq_error_iff.1 h).2
  · intro ts limit limit' h h'
    rw [parse_of_operatorCount_le field h, parse_of_operatorCount_le field h']
  · intro text s s' h h'
    refine ⟨?_, log_of_operatorsIn_le field h⟩
    rw [query_of_operatorsIn_le field h, query_of_operatorsIn_le field h']
  · intro text s h
    exact ⟨query_of_lt_operatorsIn field h, log_of_lt_operatorsIn field h⟩

/-- Two operators with room for both and with room for one, and an operator that is escaped. -/
theorem limit_decides_two_operators :
    operatorsIn "a OR b AND \\OR" = 2
      ∧ parse "f" (Token.tokenize "a OR b AND \\OR".toList) 1 = .error (.tooManyOperators 2 1)
      ∧ Settings.query ⟨"", 2⟩ "f" "a OR b AND \\OR" = Settings.query {} "f" "a OR b AND \\OR"
      ∧ Settings.query ⟨"", 1⟩ "f" "a OR b AND \\OR" = .term "f" "a OR b AND \\OR" := by
  obtain ⟨_, herror, _, _, hwithin, habove⟩ := limit_decides "f"
  have htwo : operatorsIn "a OR b AND \\OR" = 2 := by decide
  have hlimits : operatorsIn "a OR b AND \\OR" ≤ (⟨"", 2⟩ : Settings).maxOperators.toNat
      ∧ operatorsIn "a OR b AND \\OR" ≤ ({} : Settings).maxOperators.toNat
      ∧ (⟨"", 1⟩ : Settings).maxOperators.toNat < operatorsIn "a OR b AND \\OR" := by
    rw [htwo]
    decide
  refine ⟨htwo, (herror _ _ _).2 ⟨by decide, ?_⟩, (hwithin _ _ _ hlimits.1 hlimits.2.1).1,
    (habove _ _ hlimits.2.2).1⟩
  exact congrArg (ParseError.tooManyOperators · 1) htwo.symm

end Settings
end SearchBox
