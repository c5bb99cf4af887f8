/-!
# Tokens of a search text

A token is a stretch of the search text, kept exactly as it was written: quotes and backslashes are
part of it.  What a token stands for is read off its text by `Token.kind`.

* `Operator` — the two words that join clauses;
* `Token.Kind` — word, phrase or operator.

A token list need not come from a lexer: every list of texts is one, also with empty texts or with
texts that have blanks in them.
-/

namespace SearchBox

/-! ## Operators -/

/-- The two ways of joining clauses. -/
inductive Operator where
  /-- All clauses have to match. -/
  | and
  /-- At least one clause has to match. -/
  | or
  deriving DecidableEq, Repr

/-- The word that stands for an operator in a search text. -/
def Operator.word : Operator → String
  | .and => "AND"
  | .or => "OR"

/-! ## Tokens and their kinds -/

/-- A token is its text, verbatim. -/
abbrev Token := List Char

namespace Token

/-- What a token stands for. -/
inductive Kind where
  | word
  | phrase
  | operator (op : Operator)
  deriving DecidableEq, Repr

def Kind.isOperator : Kind → Bool
  | .operator _ => true
  | _ => false

def Kind.operator? : Kind → Option Operator
  | .operator op => some op
  | _ => none

/-- A token is an operator if it is exactly `AND` or `OR`, a phrase if it begins with a double
quote, and a word otherwise. -/
def kind : Token → Kind
  | ['A', 'N', 'D'] => .operator .and
  | ['O', 'R'] => .operator .or
  | '"' :: _ => .phrase
  | _ => .word

def isOperator (t : Token) : Bool :=
  (kind t).isOperator

/-- The number of operators in a token list. -/
def operatorCount (ts : List Token) : Nat :=
  ts.countP isOperator

end Token
end SearchBox
