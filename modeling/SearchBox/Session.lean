import SearchBox.Search
import SearchBox.Settings.Store

/-!
# Sessions

A session is a file tree and the settings in force, at first the default ones.  Its steps change
files, load and save settings, and search; `Session.run` takes them one after the other and collects
the answers.

Only a load that succeeds changes the settings in force.  A step that cannot be taken in the tree is
answered by `refused`, with the tree as far as it was changed.
-/

namespace SearchBox

/-- A file tree with the settings in force. -/
structure Session where
  tree : FileTree := .fresh
  settings : Settings := {}

namespace Session

/-- What can be done in a session. -/
inductive Step where
  /-- Writes a file and creates the directories it needs. -/
  | write (route : FileTree.Route) (content : ByteArray)
  | createDir (route : FileTree.Route)
  | remove (route : FileTree.Route)
  /-- Shows what is at the end of a route. -/
  | look (route : FileTree.Route)
  /-- Loads the settings of a directory and puts them in force. -/
  | load (base : Location)
  /-- Writes settings into a directory. -/
  | save (base : Location) (settings : Settings)
  /-- Shows the settings in force. -/
  | current
  /-- Searches a field, by default the one of the settings in force. -/
  | search (field : Option String) (text : String)

/-- What a step is answered. -/
inductive Answer where
  | done
  | refused
  | seen (file : FileTree.State)
  | loaded (result : Settings.Loaded) (file : FileTree.State)
  | saved (file : FileTree.State)
  /-- Loading or saving failed; the file of the settings is shown. -/
  | failed (error : Settings.Error) (file : FileTree.State)
  | current (settings : Settings)
  | query (query : Query)

/-- Answers a change of the tree, given with whether it succeeded. -/
def change (s : Session) : FileTree × Bool → Answer × Session
  | (tree, true) => (.done, { s with tree := tree })
  | (tree, false) => (.refused, { s with tree := tree })

/-- Takes one step. -/
def step (s : Session) : Step → Answer × Session
  | .write route content => s.change (s.tree.writeAlong content route)
  | .createDir route => s.change (s.tree.createDirs route)
  | .remove route => s.change (s.tree.clear route)
  | .look route => (.seen (s.tree.state route), s)
  | .load base =>
      let file := (Settings.fileIn base).route
      match Settings.load base s.tree with
      | (.ok result, tree) =>
          (.loaded result (tree.state file), { tree := tree, settings := result.settings })
      | (.error e, tree) => (.failed e (tree.state file), { s with tree := tree })
  | .save base settings =>
      let file := (Settings.fileIn base).route
      match settings.save base s.tree with
      | (.ok (), tree) => (.saved (tree.state file), { s with tree := tree })
      | (.error e, tree) => (.failed e (tree.state file), { s with tree := tree })
  | .current => (.current s.settings, s)
  | .search field text => (.query (s.settings.query (s.settings.fieldFor field) text), s)

/-- Takes steps one after the other. -/
def run (s : Session) : List Step → List Answer × Session
  | [] => ([], s)
  | x :: xs =>
      let (a, s) := s.step x
      let (as, s) := s.run xs
      (a :: as, s)

end Session
end SearchBox
