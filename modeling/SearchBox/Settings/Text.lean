import SearchBox.Settings
import SearchBox.Yaml.Integer
import SearchBox.Yaml.Node
import SearchBox.Yaml.Style

/-!
# Settings as YAML text

Settings are kept as a YAML mapping with the keys `default_field` and `max_operators`.

* `Settings.toText` — settings as they are written;
* `Settings.decode` — the settings that a text holds, before validation;
* `Settings.ofText` — the accepted settings that a text holds.

A missing key has its default value and an unknown key is ignored, but a known key may stand only
once.  A text with no node in it has the default settings.
-/

namespace SearchBox
namespace Settings

/-! ## Writing -/

/-- Settings as YAML text. -/
def toText (s : Settings) : String :=
  String.ofList ("default_field: ".toList ++ Yaml.writeValue s.defaultField.toList
    ++ "max_operators: ".toList ++ Nat.toDigits 10 s.maxOperators.toNat ++ ['\n'])

/-! ## Reading -/

/-- What the entries of a mapping say about settings. -/
structure Partial where
  field : Option String := none
  limit : Option UInt64 := none
  deriving DecidableEq, Repr

/-- The settings that entries give, with defaults for what they do not say. -/
def Partial.fill (p : Partial) : Settings :=
  let default : Settings := {}
  ⟨p.field.getD default.defaultField, p.limit.getD default.maxOperators⟩

/-- A field name is any scalar, with its text as written. -/
def fieldOf? : Yaml.Node → Option String
  | .scalar _ text => some (String.ofList text)
  | _ => none

/-- A limit is a natural number of 64 bits, spelled without quotes. -/
def limitOf? : Yaml.Node → Option UInt64
  | .scalar true text =>
      match Yaml.natOf? text with
      | some n => if n < UInt64.size then some (UInt64.ofNat n) else none
      | none => none
  | _ => none

/-- Takes one entry into account. -/
def Partial.add (p : Partial) : Yaml.Node × Yaml.Node → Option Partial
  | (.scalar _ key, value) =>
      if key = "default_field".toList then
        if p.field.isSome then none else (fieldOf? value).map fun f => { p with field := some f }
      else if key = "max_operators".toList then
        if p.limit.isSome then none else (limitOf? value).map fun n => { p with limit := some n }
      else some p
  | _ => none

def Partial.addAll (p : Partial) : List (Yaml.Node × Yaml.Node) → Option Partial
  | [] => some p
  | e :: rest => (p.add e).bind fun p => p.addAll rest

/-- The settings that a node stands for. -/
def ofNode? : Yaml.Node → Option Settings
  | .scalar true [] => some {}
  | .mapping entries => (Partial.addAll {} entries).map Partial.fill
  | _ => none

/-- The settings that a text holds, accepted or not. -/
def decode (text : String) : Option Settings :=
  (Yaml.Node.ofText? text.toList).bind ofNode?

/-- The settings that a text holds, if they are accepted. -/
def ofText (text : String) : Except Error Settings :=
  match decode text with
  | some s => s.checked
  | none => .error .malformed

end Settings
end SearchBox
