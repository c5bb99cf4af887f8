/-!
# Backslash escapes

A backslash in a search text takes the character after it literally.  This file defines

* `unescape` — removes one level of backslashes, and a lone one at the end with nothing after it;
* `escapeWhere p` — puts a backslash before each character that satisfies `p`;
* `dropEnds` — cuts off the two ends of a text, which for a quoted phrase are its quotes.

`dropEnds` does not look at what it cuts off: whether the last character of a phrase is its closing
quote is for the caller to know.
-/

namespace SearchBox
namespace Text

/-- Removes one level of escaping: of a backslash and the character after it, the character stays;
a backslash at the very end is dropped. -/
def unescape : List Char → List Char
  | [] => []
  | '\\' :: [] => []
  | '\\' :: c :: rest => c :: unescape rest
  | c :: rest => c :: unescape rest

/-- Puts a backslash before every character that satisfies `p`. -/
def escapeWhere (p : Char → Bool) : List Char → List Char
  | [] => []
  | c :: rest => if p c then '\\' :: c :: escapeWhere p rest else c :: escapeWhere p rest

/-- The text without its first and its last character, whatever they are. -/
def dropEnds (t : List Char) : List Char :=
  t.tail.dropLast

/-! ## Unfolding one character -/

@[simp] theorem unescape_nil : unescape [] = [] := rfl

@[simp] theorem unescape_lone_backslash : unescape ['\\'] = [] := rfl

@[simp] theorem unescape_backslash_cons (c : Char) (rest : List Char) :
    unescape ('\\' :: c :: rest) = c :: unescape rest := rfl

theorem unescape_cons_of_ne {c : Char} (h : c ≠ '\\') (rest : List Char) :
    unescape (c :: rest) = c :: unescape rest := by
  cases rest <;> simp [unescape, h]

end Text
end SearchBox
