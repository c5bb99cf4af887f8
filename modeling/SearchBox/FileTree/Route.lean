import SearchBox.FileTree

/-!
# Routes through a file tree

A route is followed from the top of a tree, one component after the other: a dot or nothing stays
where it is, two dots lead back, and a name leads on.  Every component needs a directory to start
from, so `a/..` leads nowhere if there is no directory `a`.

* `FileTree.follow` — the path that a route leads to; nothing needs to be there yet;
* `look`, `write` — what is at the end of a route, and writing a file there;
* `createDirs` — creates the directories on a route, one by one; those created before a failure
  stay, which can only happen if the route has dots in it or a name that is too long;
* `writeAlong`, `clear` — writing a file with the directories it needs, and removing what is at the
  end of a route;
* `FileTree.State` — what can be seen at the end of a route from outside;
* `Location` — a route with the way it is shown to people.
-/

namespace SearchBox
namespace FileTree

/-- The components that lead from the top of a tree to something in it. -/
abbrev Route := List String

namespace Route

/-- The route of a text whose components are separated by slashes. -/
def ofText (text : String) : Route :=
  text.splitOn "/"

/-- Whether a component stays where it is. -/
def stays (component : String) : Bool :=
  component = "" || component = "."

/-- The route without the components at its end that stay where they are. -/
def trim (r : Route) : Route :=
  (r.reverse.dropWhile stays).reverse

/-- The route to the directory that holds what is at the end of a route. -/
def parent (r : Route) : Route :=
  trim (trim r).dropLast

/-- The last component that is not empty. -/
def last? (r : Route) : Option String :=
  (r.filter (· ≠ "")).getLast?

end Route

/-! ## Limits -/

/-- The greatest length of a name, in bytes of UTF-8. -/
def maxNameLength : Nat := 255

/-- The length of a route in bytes of UTF-8, with a slash before each component. -/
def routeLength : Route → Nat
  | [] => 0
  | component :: rest => component.utf8ByteSize + 1 + routeLength rest

/-- The greatest length of a route. -/
def maxRouteLength : Nat := 4085

/-- Whether a route can be followed in any tree at all: no component has a NUL in it, and the whole
is not too long. -/
def isAdmissible (r : Route) : Bool :=
  r.all (fun c => !c.toList.contains '\x00')
    && routeLength r ≤ maxRouteLength

/-! ## Following a route -/

/-- Where a component leads from a path, at which there has to be a directory. -/
def enter (t : FileTree) (here : Path) (component : String) : Option Path :=
  if !(t.get? here).any isDir then none
  else if Route.stays component then some here
  else if component = ".." then some here.dropLast
  else if maxNameLength < component.utf8ByteSize then none
  else some (here ++ [component])

/-- The path that a route leads to. -/
def follow (t : FileTree) (r : Route) : Option Path :=
  if isAdmissible r then r.foldlM t.enter [] else none

/-- What is at the end of a route. -/
def look (t : FileTree) (r : Route) : Option FileTree :=
  (t.follow r).bind t.get?

/-- Writes a file at the end of a route. -/
def write (t : FileTree) (content : ByteArray) (r : Route) : Option FileTree :=
  (t.follow r).bind (t.writeFile content)

/-! ## Creating directories -/

/-- Whether the rest of a route stays where it is and has a dot in it. -/
def endsInDots (r : Route) : Bool :=
  r.contains "." && r.all Route.stays

/-- Creates the directories on a route that starts at a path.  Gives the tree afterwards and whether
there is a directory at the end of the route now.  A missing directory is not created if the route
goes on with nothing but dots. -/
def createFrom (t : FileTree) (here : Path) : Route → FileTree × Bool
  | [] => (t, (t.get? here).any isDir)
  | component :: rest =>
      match t.enter here component with
      | none => (t, false)
      | some next =>
          if (t.get? next).isSome then createFrom t next rest
          else if endsInDots rest then (t, false)
          else match put (.dir []) t next with
            | none => (t, false)
            | some t => createFrom t next rest

/-- Creates the directories on a route.  Gives the tree afterwards and whether there is a directory
at the end of the route now. -/
def createDirs (t : FileTree) (r : Route) : FileTree × Bool :=
  if isAdmissible r then t.createFrom [] r else (t, false)

/-- Writes a file at the end of a route, after creating the directories that it needs.  Gives the
tree afterwards and whether the file is written. -/
def writeAlong (t : FileTree) (content : ByteArray) (r : Route) : FileTree × Bool :=
  match t.createDirs (Route.parent r) with
  | (t, false) => (t, false)
  | (t, true) =>
      match t.write content r with
      | none => (t, false)
      | some t => (t, true)

/-! ## Removing -/

/-- Makes the directory at a path an empty one. -/
def makeEmpty (t : FileTree) (p : Path) : FileTree :=
  if p.isEmpty then .dir [] else (put (.dir []) t p).getD t

/-- Removes what is at the end of a route.  Gives the tree afterwards and whether that succeeded.
A directory loses its entries first; if the route led through one of them and back, it leads nowhere
now, and the empty directory stays.  A directory that is called by a dot cannot be removed itself. -/
def clear (t : FileTree) (r : Route) : FileTree × Bool :=
  match t.follow r with
  | none => (t, false)
  | some p =>
      let t := if (t.get? p).any isDir then t.makeEmpty p else t
      if (t.follow r).isNone then (t, true)
      else if Route.last? r = some "." then (t, false)
      else match t.remove p with
        | none => (t, false)
        | some t => (t, true)

/-! ## What is seen from outside -/

/-- What can be seen at the end of a route. -/
inductive State where
  | text (s : String)
  | bytes (content : ByteArray)
  | directory
  | missing

/-- What can be seen at the end of a route through a tree. -/
def state (t : FileTree) (r : Route) : State :=
  match t.look r with
  | none => .missing
  | some (.dir _) => .directory
  | some (.file content) =>
      match String.fromUTF8? content with
      | some s => .text s
      | none => .bytes content

end FileTree

/-! ## Locations -/

/-- A route and how it is shown. -/
structure Location where
  route : FileTree.Route
  shown : String
  deriving DecidableEq, Repr

namespace Location

/-- The name of the directory that everything is kept in. -/
def rootName : String := "root"

/-- The directory that everything is kept in.  It is an entry of the top of the tree, so that it can
be removed and created like any other. -/
def root : Location := ⟨[rootName], "<root>"⟩

/-- The shown text with a relative one behind a slash. -/
def extend (shown relative : String) : String :=
  if shown.endsWith "/" then shown ++ relative else shown ++ "/" ++ relative

/-- The location below another one, by the text of the route from there. -/
def below (l : Location) (relative : String) : Location :=
  { route := l.route ++ .ofText relative, shown := extend l.shown relative }

/-- The location of an entry of a directory. -/
def entry (l : Location) (name : String) : Location :=
  { route := l.route ++ [name], shown := extend l.shown name }

end Location

/-- The tree with nothing in it but an empty directory at `Location.root`. -/
def FileTree.fresh : FileTree :=
  .dir [(Location.rootName, .dir [])]

end SearchBox
