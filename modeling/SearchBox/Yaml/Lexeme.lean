/-!
# Lexemes of a YAML text

A YAML text is first cut into lexemes.  Some of them are written (brackets, dashes, scalars), and
some stand for indentation: the beginning of a block collection, its end, and the beginning of a key
that has no mark of its own.

Anchors, aliases, tags and directives have no lexeme; a text with one of them is not read.
-/

namespace SearchBox
namespace Yaml

/-- A unit of a YAML text. -/
inductive Lexeme where
  | documentStart
  | documentEnd
  | blockSequenceStart
  | blockMappingStart
  | blockEnd
  | blockEntry
  | flowSequenceStart
  | flowSequenceEnd
  | flowMappingStart
  | flowMappingEnd
  | flowEntry
  | key
  | value
  /-- A scalar with its text; `plain` tells whether it was written without quotes or block mark. -/
  | scalar (plain : Bool) (text : List Char)
  deriving DecidableEq, Repr

end Yaml
end SearchBox
