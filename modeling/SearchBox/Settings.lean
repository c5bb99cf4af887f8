import SearchBox.Text.Blank

/-!
# Settings of a search box

Two things are set: the field that is searched when a search names none, and the number of operators
that a search may have.  This file defines

* `Settings`, whose default values are those of a search box nobody has configured;
* `Settings.Error` — why settings are refused or cannot be loaded or saved, with its wording;
* `Settings.validate` — which settings are accepted.

Settings are not validated when they are built: a value of `Settings` may be unacceptable.
-/

namespace SearchBox

/-- What can be set for a search box. -/
structure Settings where
  /-- The field that is searched when a search names none. -/
  defaultField : String := "description"
  /-- The number of operators that a search may have. -/
  maxOperators : UInt64 := 512
  deriving DecidableEq, Repr

namespace Settings

/-! ## Errors -/

/-- Why settings are refused, or are not loaded or saved.  The paths are those shown to people. -/
inductive Error where
  /-- The default field has nothing but white space in it. -/
  | blankField
  /-- No operator is allowed. -/
  | noOperators
  /-- The text is not YAML, or not YAML for settings. -/
  | malformed
  | cannotCreate (path : String)
  | cannotRead (path : String)
  | cannotWrite (path : String)
  deriving DecidableEq, Repr

def Error.message : Error → String
  | .blankField => "default_field must not be empty"
  | .noOperators => "max_operators must be greater than 0"
  | .malformed => "search config is malformed"
  | .cannotCreate path => "failed to create " ++ path
  | .cannotRead path => "failed to read " ++ path
  | .cannotWrite path => "failed to write " ++ path

/-! ## Validation -/

/-- Accepts settings whose default field is not blank and that allow an operator.  Of two faults the
blank field is reported. -/
def validate (s : Settings) : Except Error Unit :=
  if Text.isBlank s.defaultField then .error .blankField
  else if s.maxOperators == 0 then .error .noOperators
  else .ok ()

/-- The settings themselves, if they are accepted. -/
def checked (s : Settings) : Except Error Settings :=
  (validate s).map fun _ => s

/-- The default settings are accepted. -/
theorem validate_default : validate {} = .ok () := by
  rfl

end Settings
end SearchBox
