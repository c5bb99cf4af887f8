import SearchBox.Query.Parser
import SearchBox.Settings
import SearchBox.Text.Quoted
import SearchBox.Token.Lexer

/-!
# Searching

A search takes a field and the text of the search box, under given settings, to a query.  It never
fails: a text with too many operators becomes one term with the raw text.

* `Settings.fieldFor` — the field of a search, whether it names one or not;
* `Settings.query` — the query of a text on a field;
* `Settings.log` — the log records of that search.

Both are functions of the settings, the field and the text alone; nothing is kept from one search to
the next.
-/

namespace SearchBox

/-! ## Log records -/

inductive Level where
  | debug
  | warn
  deriving DecidableEq, Repr

def Level.name : Level → String
  | .debug => "DEBUG"
  | .warn => "WARN"

/-- A line of the log. -/
structure Record where
  level : Level
  message : String
  deriving DecidableEq, Repr

def Record.tokens (ts : List Token) : Record :=
  ⟨.debug, "search tokens: " ++ String.ofList (Text.quoteList ts)⟩

def Record.query (q : Query) : Record :=
  ⟨.debug, "search query: " ++ q.display⟩

/-- The record of a search whose tokens could not be read. -/
def Record.degraded (e : Query.ParseError) : Record :=
  ⟨.warn, "search query degraded to plain match: " ++ e.message⟩

/-! ## The search -/

namespace Settings

/-- The clauses of a search text, within the limit of the settings. -/
def clauses (s : Settings) (field text : String) : Except Query.ParseError (List Query) :=
  Query.parse field (Token.tokenize text.toList) s.maxOperators.toNat

/-- The query of a search text on a field. -/
def query (s : Settings) (field text : String) : Query :=
  match s.clauses field text with
  | .ok cs => .ofClauses field cs
  | .error _ => .term field text

/-- The field that a search is for: the one it names, or else the default field. -/
def fieldFor (s : Settings) (named : Option String) : String :=
  named.getD s.defaultField

/-- The log records of one search, in order. -/
def log (s : Settings) (field text : String) : List Record :=
  [.tokens (Token.tokenize text.toList),
    match s.clauses field text with
    | .ok cs => .query (.ofClauses field cs)
    | .error e => .degraded e]

end Settings
end SearchBox
