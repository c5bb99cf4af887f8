import SearchBox.Query
import SearchBox.Text.Escape

/-!
# From tokens to clauses

A token list is read from left to right as segments of operands, each ended by an operator.  The
segments are then folded from the right, so that every operator takes all that follows it as one
operand.

* `operands` reads up to the next operator: a run of words becomes one term, a phrase token becomes
  one phrase;
* `spine` collects the segments, `Spine.clauses` folds them;
* `parse` first compares the number of operators with a limit, since every operator nests the query
  one level deeper.

The result is a list of clauses: what several clauses with no operator between them mean is decided
by the caller.
-/

namespace SearchBox
namespace Query

/-! ## Errors -/

/-- Why a token list is not read as a query. -/
inductive ParseError where
  /-- An operator is due, and `token` is none. -/
  | notAnOperator (token : Token)
  /-- There are `count` operators where `limit` are allowed. -/
  | tooManyOperators (count limit : Nat)
  deriving DecidableEq, Repr

def ParseError.message : ParseError → String
  | .notAnOperator t => "not an operator token: " ++ String.ofList t
  | .tooManyOperators count limit =>
      "query has " ++ toString count ++ " operators, limit is " ++ toString limit

/-! ## Leaves -/

/-- The phrase that a quoted token stands for. -/
def ofPhrase (field : String) (t : Token) : Query :=
  .phrase field (String.ofList (Text.unescape (Text.dropEnds t)))

/-- The term that a run of words stands for: the words are joined by single spaces. -/
def ofWords (field : String) (words : List Token) : Query :=
  .term field (String.ofList (Text.unescape ([' '].intercalate words)))

/-- The clauses of a run of words, given with its newest word first: none if the run is empty. -/
def flush (field : String) (words : List Token) : List Query :=
  if words.isEmpty then [] else [ofWords field words.reverse]

/-- The leaves up to the next operator, and the tokens from that operator on.  The words read and
not yet made into a term are `words`, newest first. -/
def operands (field : String) (words : List Token) : List Token → List Query × List Token
  | [] => (flush field words, [])
  | t :: ts =>
      match Token.kind t with
      | .operator _ => (flush field words, t :: ts)
      | .phrase =>
          let (clauses, rest) := operands field [] ts
          (flush field words ++ ofPhrase field t :: clauses, rest)
      | .word => operands field (t :: words) ts

/-- Reading operands leaves no more tokens than there were. -/
theorem length_operands_le (field : String) (words ts : List Token) :
    (operands field words ts).2.length ≤ ts.length := by
  induction ts generalizing words with
  | nil => simp [operands]
  | cons t ts ih =>
      simp only [operands]
      split
      · simp
      · exact Nat.le_succ_of_le (ih [])
      · exact Nat.le_succ_of_le (ih (t :: words))

/-! ## The spine of operators -/

/-- A token list cut at its operators. -/
structure Spine where
  /-- The operands before each operator, with that operator. -/
  segments : List (List Query × Operator)
  /-- The operands after the last operator. -/
  last : List Query
  deriving Repr

/-- Each operator joins the operands before it with everything after it. -/
def Spine.clauses (s : Spine) : List Query :=
  s.segments.foldr (fun (before, op) after => [.group op (before ++ after)]) s.last

def expectOperator (t : Token) : Except ParseError Operator :=
  match Token.kind t with
  | .operator op => .ok op
  | _ => .error (.notAnOperator t)

/-- Cuts a token list at its operators. -/
def spine (field : String) (ts : List Token) : Except ParseError Spine :=
  match _h : operands field [] ts with
  | (clauses, []) => .ok ⟨[], clauses⟩
  | (clauses, t :: rest) =>
      match expectOperator t with
      | .error e => .error e
      | .ok op =>
          match spine field rest with
          | .error e => .error e
          | .ok s => .ok ⟨(clauses, op) :: s.segments, s.last⟩
termination_by ts.length
decreasing_by
  have hle := length_operands_le field [] ts
  rw [_h] at hle
  exact hle

/-- Reads a token list as clauses on a field, unless it has more than `limit` operators. -/
def parse (field : String) (ts : List Token) (limit : Nat) : Except ParseError (List Query) :=
  let count := Token.operatorCount ts
  if limit < count then .error (.tooManyOperators count limit)
  else (spine field ts).map Spine.clauses

/-- The query of a list of clauses: without clauses a term with no text, and several clauses with no
operator between them are alternatives. -/
def ofClauses (field : String) : List Query → Query
  | [] => .term field ""
  | [q] => q
  | clauses => .group .or clauses

end Query
end SearchBox
