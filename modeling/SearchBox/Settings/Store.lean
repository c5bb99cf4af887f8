import SearchBox.FileTree.Route
import SearchBox.Settings.Text

/-!
# Settings in a file tree

Settings are kept in the file `search.yaml` of a directory.

* `Settings.save` writes it, in a directory that exists, and does not validate;
* `Settings.load` reads it; if there is none it creates the directory and a file with the default
  settings, and a file whose text is not the normal form of its settings is written again.

Both give the tree afterwards next to the result, also when they fail.  That a failure leaves the
tree as it was is not part of the types.
-/

namespace SearchBox
namespace Settings

def fileName : String := "search.yaml"

/-- The file that holds the settings of a directory. -/
def fileIn (base : Location) : Location :=
  base.entry fileName

/-- Writes settings into a directory. -/
def save (s : Settings) (base : Location) (tree : FileTree) : Except Error Unit × FileTree :=
  match tree.write s.toText.toUTF8 (fileIn base).route with
  | some tree => (.ok (), tree)
  | none => (.error (.cannotWrite (fileIn base).shown), tree)

/-- Settings that were loaded. -/
structure Loaded where
  settings : Settings
  /-- Whether the file had another text and was written again. -/
  normalized : Bool
  deriving DecidableEq, Repr

/-- Sees to it that a directory holds settings: if there is no file for them, the directory and a
file with the default settings are created. -/
def provide (base : Location) (tree : FileTree) : Except Error Unit × FileTree :=
  match tree.look (fileIn base).route with
  | some _ => (.ok (), tree)
  | none =>
      match tree.createDirs base.route with
      | (tree, false) => (.error (.cannotCreate base.shown), tree)
      | (tree, true) => save {} base tree

/-- Reads the settings of a directory that has a file for them. -/
def readBack (base : Location) (tree : FileTree) : Except Error Loaded × FileTree :=
  match (tree.look (fileIn base).route).bind FileTree.text? with
  | none => (.error (.cannotRead (fileIn base).shown), tree)
  | some text =>
      match ofText text with
      | .error e => (.error e, tree)
      | .ok s =>
          -- Only a text that differs from the normal form is written again.
          if text = s.toText then (.ok ⟨s, false⟩, tree)
          else
            match save s base tree with
            | (.ok (), tree) => (.ok ⟨s, true⟩, tree)
            | (.error e, tree) => (.error e, tree)

/-- Loads the settings of a directory. -/
def load (base : Location) (tree : FileTree) : Except Error Loaded × FileTree :=
  match provide base tree with
  | (.error e, tree) => (.error e, tree)
  | (.ok (), tree) => readBack base tree

end Settings
end SearchBox
