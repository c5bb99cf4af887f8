import SearchBox.Json.Reader
import SearchBox.Proofs.Grammar
import SearchBox.Proofs.Positions
import SearchBox.Query.Grammar
import SearchBox.Query.Json
import SearchBox.Session
import SearchBox.Yaml.Integer
import SearchBox.Proofs.Escape
import SearchBox.Proofs.Splicing
import SearchBox.Proofs.Range
import SearchBox.Proofs.Yaml.Layout
import SearchBox.Proofs.Yaml.Plain
import SearchBox.Proofs.Yaml.Quoted
import SearchBox.Proofs.Yaml.Literal
import SearchBox.Proofs.Yaml.Document
import SearchBox.Proofs.Settings
import SearchBox.Proofs.Place
import SearchBox.Proofs.Quotation
import SearchBox.Proofs.FileTree
import SearchBox.Proofs.Route
import SearchBox.Proofs.Store
import SearchBox.Proofs.Session
import SearchBox.Proofs.Relexing
import SearchBox.Proofs.Blocks
import SearchBox.Proofs.Nesting
import SearchBox.Proofs.Json
import SearchBox.Proofs.Marks
import SearchBox.Proofs.Cuts
import SearchBox.Proofs.Stretches
import SearchBox.Proofs.Pieces
import SearchBox.Proofs.Visible
import SearchBox.Proofs.Edits
import SearchBox.Proofs.OpenQuote
import SearchBox.Proofs.Spacing
import SearchBox.Proofs.EmptyTerm
import SearchBox.Proofs.Handwritten
