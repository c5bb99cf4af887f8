import SearchBox.Query.Parser

/-!
# Places in a query

A place is the way from the root of a query to something in it.  This file defines

* `Query.get?` — what is at a place;
* `Query.replace` — the query with something else there;
* `Query.DifferAt` — two queries that are the same but for one place, as a relation.

The relation is what proofs work with; `DifferAt.get?_left` and `DifferAt.replace_left` turn it into
the two functions.
-/

namespace SearchBox
namespace Query

/-- Which clause to go on with, from the root of a query down. -/
abbrev Place := List Nat

/-- What is at a place of a query. -/
def get? : Query → Place → Option Query
  | q, [] => some q
  | .group _ cs, i :: p => cs[i]?.bind fun c => c.get? p
  | _, _ :: _ => none

/-- The query with something else at a place, if there is such a place, and the rest as it was. -/
def replace : Query → Place → Query → Query
  | _, [], x => x
  | .group op cs, i :: p, x => .group op (cs.modify i fun c => c.replace p x)
  | q, _ :: _, _ => q

/-- Two queries with `x` and `y` at a place that are the same everywhere else. -/
inductive DifferAt (x y : Query) : Place → Query → Query → Prop where
  | here : DifferAt x y [] x y
  | clause (op : Operator) (before after : List Query) {p : Place} {q r : Query} :
      DifferAt x y p q r →
        DifferAt x y (before.length :: p) (.group op (before ++ q :: after))
          (.group op (before ++ r :: after))

/-- The place that something has in the query of so many clauses, by the clause it is in and its
place there.  A clause that is the only one is the query itself. -/
def placeAmong (count i : Nat) (p : Place) : Place :=
  if count = 1 then p else i :: p

theorem ofClauses_of_length_ne_one {field : String} {cs : List Query} (h : cs ≠ [])
    (hone : cs.length ≠ 1) : ofClauses field cs = .group .or cs := by
  match cs with
  | [] => exact absurd rfl h
  | [_] => exact absurd rfl hone
  | _ :: _ :: _ => rfl

namespace DifferAt

variable {x y q r : Query} {p : Place} {i : Nat} {cs ds : List Query} {op : Operator}

/-! ## The two functions -/

theorem get?_left (h : DifferAt x y p q r) : q.get? p = some x := by
  induction h with
  | here => rfl
  | clause op before after _ ih => simpa [Query.get?] using ih

theorem replace_left (h : DifferAt x y p q r) : q.replace p y = r := by
  induction h with
  | here => cases x <;> rfl
  | @clause op before after p q r _ ih =>
      have hmodify : (before ++ q :: after).modify before.length (fun c => c.replace p y)
          = before ++ q.replace p y :: after := by
        rw [List.modify_eq_take_drop, List.take_left, List.drop_left, List.modifyHead_cons]
      rw [Query.replace, hmodify, ih]

/-! ## Clauses side by side -/

/-- A clause that differs as a whole. -/
theorem leaf (op : Operator) (before after : List Query) :
    DifferAt x y [before.length] (.group op (before ++ x :: after))
      (.group op (before ++ y :: after)) :=
  .clause op before after .here

/-- More clauses in front of those that differ. -/
theorem append_left (es : List Query) (h : DifferAt x y (i :: p) (.group op cs) (.group op ds)) :
    DifferAt x y ((es.length + i) :: p) (.group op (es ++ cs)) (.group op (es ++ ds)) := by
  cases h with
  | clause _ before after h =>
      rw [← List.append_assoc, ← List.append_assoc, ← List.length_append]
      exact .clause op (es ++ before) after h

/-- Clauses that differ make queries that differ. -/
theorem ofClauses (field : String) (h : DifferAt x y (i :: p) (.group .or cs) (.group .or ds)) :
    DifferAt x y (placeAmong cs.length i p) (ofClauses field cs) (ofClauses field ds) := by
  unfold placeAmong
  cases h with
  | @clause _ before after _ q r h =>
      have hlength : (before ++ r :: after).length = (before ++ q :: after).length := by simp
      by_cases hone : (before ++ q :: after).length = 1
      · have hzero : before.length = 0 ∧ after.length = 0 := by
          rw [List.length_append, List.length_cons] at hone
          omega
        rw [if_pos hone, List.length_eq_zero_iff.1 hzero.1, List.length_eq_zero_iff.1 hzero.2]
        exact h
      · rw [if_neg hone, ofClauses_of_length_ne_one (by simp) hone,
          ofClauses_of_length_ne_one (by simp) (hlength ▸ hone)]
        exact .clause .or before after h

end DifferAt
end Query
end SearchBox
