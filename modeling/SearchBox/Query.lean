import SearchBox.Token

/-!
# Boolean search queries

A query is a tree: a leaf matches a text against a field, either word by word (`term`) or as it
stands (`phrase`), and a group joins clauses by an operator.  This file defines

* `Query` with decidable equality;
* `Query.display` — the text of a query for people, with operators between clauses and groups in
  parentheses;
* `Query.leaves`, `Query.labels` and `Query.depth` — what is at the ends of the tree, which
  operators are in it from the root down, and how deep its groups nest.

The displayed text does not determine the query, since fields and texts stand in it verbatim.
-/

namespace SearchBox

/-- A query for the search backend. -/
inductive Query where
  /-- The words of `text` are looked for in `field`. -/
  | term (field text : String)
  /-- The exact `text` is looked for in `field`. -/
  | phrase (field text : String)
  /-- Clauses joined by an operator. -/
  | group (op : Operator) (clauses : List Query)
  deriving Repr

namespace Query

/-! ## Equality -/

mutual

def decEq : (p q : Query) → Decidable (p = q)
  | .term f t, .term g u => decidable_of_iff (f = g ∧ t = u) (by simp)
  | .phrase f t, .phrase g u => decidable_of_iff (f = g ∧ t = u) (by simp)
  | .group a cs, .group b ds =>
      match decEqList cs ds with
      | .isTrue h => decidable_of_iff (a = b) (by simp [h])
      | .isFalse h => .isFalse (by simp [h])
  | .term .., .phrase .. => .isFalse (by simp)
  | .term .., .group .. => .isFalse (by simp)
  | .phrase .., .term .. => .isFalse (by simp)
  | .phrase .., .group .. => .isFalse (by simp)
  | .group .., .term .. => .isFalse (by simp)
  | .group .., .phrase .. => .isFalse (by simp)

def decEqList : (ps qs : List Query) → Decidable (ps = qs)
  | [], [] => .isTrue rfl
  | [], _ :: _ => .isFalse (by simp)
  | _ :: _, [] => .isFalse (by simp)
  | p :: ps, q :: qs =>
      match decEq p q with
      | .isTrue h =>
          match decEqList ps qs with
          | .isTrue hs => .isTrue (by simp [h, hs])
          | .isFalse hs => .isFalse (by simp [hs])
      | .isFalse h => .isFalse (by simp [h])

end

instance : DecidableEq Query := decEq

/-! ## Shape -/

def isLeaf : Query → Bool
  | .group .. => false
  | _ => true

mutual

/-- The leaves of a query from left to right. -/
def leaves : Query → List Query
  | .term f t => [.term f t]
  | .phrase f t => [.phrase f t]
  | .group _ cs => leavesOf cs

def leavesOf : List Query → List Query
  | [] => []
  | c :: cs => leaves c ++ leavesOf cs

end

mutual

/-- The operators of a query, each group before the groups inside it. -/
def labels : Query → List Operator
  | .term .. => []
  | .phrase .. => []
  | .group op cs => op :: labelsOf cs

def labelsOf : List Query → List Operator
  | [] => []
  | c :: cs => labels c ++ labelsOf cs

end

mutual

/-- How deep the groups of a query nest; a leaf has depth zero. -/
def depth : Query → Nat
  | .term .. => 0
  | .phrase .. => 0
  | .group _ cs => depthOf cs + 1

def depthOf : List Query → Nat
  | [] => 0
  | c :: cs => max (depth c) (depthOf cs)

end

/-! ## Text for people -/

mutual

/-- The displayed text of a query, put before `rest`. -/
def displayOnto : Query → List Char → List Char
  | .term f t, rest => f.toList ++ ':' :: (t.toList ++ rest)
  | .phrase f t, rest => f.toList ++ ':' :: '"' :: (t.toList ++ '"' :: rest)
  | .group op cs, rest => '(' :: displayClausesOnto op cs (')' :: rest)

/-- The displayed texts of clauses with their operator between them, put before `rest`. -/
def displayClausesOnto (op : Operator) : List Query → List Char → List Char
  | [], rest => rest
  | c :: [], rest => displayOnto c rest
  | c :: d :: cs, rest =>
      displayOnto c (' ' :: (op.word.toList ++ ' ' :: displayClausesOnto op (d :: cs) rest))

end

/-- The text of a query as people read it: `field:text`, `field:"text"` or `(a AND b)`. -/
def display (q : Query) : String :=
  String.ofList (q.displayOnto [])

end Query
end SearchBox
