import SearchBox.Json
import SearchBox.Query

/-!
# Queries as the backend takes them

The backend takes a query as nested JSON objects with one key each: `text` for a term, `text_phrase`
for a phrase, and `bool` for a group, whose own object has its clauses under `must` if all have to
match and under `should`, next to the least number of matches, if one is enough.

`ofJson?` reads such an object and refuses every other value.
-/

namespace SearchBox
namespace Query

/-! ## Writing -/

mutual

/-- A query as a JSON object. -/
def toJson : Query → Json
  | .term f t => .obj [("text", .obj [(f, .str t)])]
  | .phrase f t => .obj [("text_phrase", .obj [(f, .str t)])]
  | .group .and cs => .obj [("bool", .obj [("must", .arr (clausesToJson cs))])]
  | .group .or cs =>
      .obj [("bool", .obj [("minimum_should_match", .nat 1), ("should", .arr (clausesToJson cs))])]

/-- Clauses as JSON objects. -/
def clausesToJson : List Query → List Json
  | [] => []
  | c :: cs => toJson c :: clausesToJson cs

end

/-! ## Reading -/

mutual

/-- The query that a JSON value stands for, if it has the form that `toJson` gives. -/
def ofJson? : Json → Option Query
  | .obj [("text", .obj [(f, .str t)])] => some (.term f t)
  | .obj [("text_phrase", .obj [(f, .str t)])] => some (.phrase f t)
  | .obj [("bool", .obj [("must", .arr cs)])] => (clausesOfJson? cs).map (.group .and)
  | .obj [("bool", .obj [("minimum_should_match", .nat 1), ("should", .arr cs)])] =>
      (clausesOfJson? cs).map (.group .or)
  | _ => none

/-- The clauses that JSON values stand for. -/
def clausesOfJson? : List Json → Option (List Query)
  | [] => some []
  | v :: vs =>
      match ofJson? v, clausesOfJson? vs with
      | some c, some cs => some (c :: cs)
      | _, _ => none

end

end Query
end SearchBox
