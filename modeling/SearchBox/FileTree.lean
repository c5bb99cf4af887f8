/-!
# File trees

A file tree is a file with its bytes or a directory with named entries.  This file defines

* `FileTree.get?` — what is at a path, the view by which everything else is described;
* `put`, `writeFile`, `remove` — changes at a path, which fail where a directory is needed and a
  file stands, or the other way round.

A path holds names only; how the dots in a route lead to a path is said in
`SearchBox.FileTree.Route`.  There are no links and no permissions.
-/

namespace SearchBox

/-- A file or a directory. -/
inductive FileTree where
  | file (content : ByteArray)
  | dir (entries : List (String × FileTree))

namespace FileTree

/-- The names that lead from a directory to something in it. -/
abbrev Path := List String

/-! ## Entries of a directory -/

/-- The entry with a name. -/
def child? (name : String) : List (String × FileTree) → Option FileTree
  | [] => none
  | (n, t) :: rest => if n = name then some t else child? name rest

/-- Replaces the entry with a name, or adds one. -/
def setChild (name : String) (t : FileTree) :
    List (String × FileTree) → List (String × FileTree)
  | [] => [(name, t)]
  | (n, u) :: rest => if n = name then (n, t) :: rest else (n, u) :: setChild name t rest

/-- Leaves out the entry with a name. -/
def dropChild (name : String) (entries : List (String × FileTree)) : List (String × FileTree) :=
  entries.filter fun e => e.1 ≠ name

/-! ## Looking -/

/-- What is at a path. -/
def get? : FileTree → Path → Option FileTree
  | t, [] => some t
  | .file _, _ :: _ => none
  | .dir entries, name :: rest => (child? name entries).bind fun t => t.get? rest

/-- Whether something is a directory. -/
def isDir : FileTree → Bool
  | .dir _ => true
  | .file _ => false

/-- The text of a file; none for a directory or for bytes that are no text. -/
def text? : FileTree → Option String
  | .file content => String.fromUTF8? content
  | .dir _ => none

/-! ## Changing -/

/-- Puts something at a path, in a directory that exists, in place of what is there. -/
def put (x : FileTree) : FileTree → Path → Option FileTree
  | .file _, _ => none
  | .dir _, [] => none
  | .dir entries, name :: [] => some (.dir (setChild name x entries))
  | .dir entries, name :: rest =>
      ((child? name entries).bind fun t => put x t rest).map fun t =>
        .dir (setChild name t entries)

/-- Puts a file at a path, in a directory that exists, unless there is a directory at the path. -/
def writeFile (t : FileTree) (content : ByteArray) (p : Path) : Option FileTree :=
  if (t.get? p).any isDir then none else put (.file content) t p

/-- Removes what is at a path. -/
def remove : FileTree → Path → Option FileTree
  | _, [] => none
  | .file _, _ :: _ => none
  | .dir entries, name :: [] =>
      (child? name entries).map fun _ => .dir (dropChild name entries)
  | .dir entries, name :: rest =>
      ((child? name entries).bind fun t => t.remove rest).map fun t =>
        .dir (setChild name t entries)

end FileTree
end SearchBox
