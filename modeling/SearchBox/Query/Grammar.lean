import SearchBox.Query
import SearchBox.Text.Escape
import SearchBox.Token

/-!
# The grammar of token lists

The reading of a token list, said by recursion from the left:

* `readLeaves` — without an operator each maximal run of words is one term, of the words joined by
  single spaces and then unescaped, and each phrase token is one phrase, of its text without its two
  ends, unescaped;
* `readClauses` — otherwise it is one group, of the leaves before the first operator and the reading
  of what comes after it.

`readClauses` never fails and knows no limit.  The file holds the definitions only, and shares no
step with the reading of `SearchBox.Query.Parser`; how the two compare is not said here.
-/

namespace SearchBox
namespace Query
namespace Grammar

/-- Whether a token is a plain word. -/
def isWord (t : Token) : Bool :=
  Token.kind t == .word

/-- The leaves of a token list without operators.  A token that is no word stands for a phrase. -/
def readLeaves (field : String) : List Token → List Query
  | [] => []
  | t :: ts =>
      if isWord t then
        .term field (String.ofList (Text.unescape ([' '].intercalate (t :: ts.takeWhile isWord))))
          :: readLeaves field (ts.dropWhile isWord)
      else
        .phrase field (String.ofList (Text.unescape (Text.dropEnds t))) :: readLeaves field ts
termination_by ts => ts.length
decreasing_by
  · exact Nat.lt_succ_of_le (List.dropWhile_sublist isWord).length_le
  · exact Nat.lt_succ_self _

/-- The clauses of a token list, split at its first operator. -/
def readClauses (field : String) (ts : List Token) : List Query :=
  match _h : ts.dropWhile (fun t => !Token.isOperator t) with
  | [] => readLeaves field ts
  | t :: rest =>
      match Token.kind t with
      | .operator op =>
          [.group op (readLeaves field (ts.takeWhile (fun t => !Token.isOperator t))
            ++ readClauses field rest)]
      | _ => []
termination_by ts.length
decreasing_by
  have hle := (List.dropWhile_sublist (fun t => !Token.isOperator t) (l := ts)).length_le
  rw [_h] at hle
  exact hle

end Grammar
end Query
end SearchBox
