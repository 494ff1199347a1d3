import Knockout.Analysis
import Knockout.Command.Arguments
import Knockout.Command.Check
import Knockout.Command.Failure
import Knockout.Command.GraphExport
import Knockout.Command.Printer
import Knockout.Command.Reports
import Knockout.Command.Run
import Knockout.Command.Session
import Knockout.Command.TokenListing
import Knockout.Decimal.Binary
import Knockout.Decimal.Round
import Knockout.Decimal.Shortest
import Knockout.Diagnostic
import Knockout.Json
import Knockout.Main
import Knockout.Phase
import Knockout.Project.Config
import Knockout.Project.Exclude
import Knockout.Project.Path
import Knockout.Project.Sources
import Knockout.Project.Tree
import Knockout.Proofs.Alignment
import Knockout.Proofs.Blame.Accounts
import Knockout.Proofs.Blame.Errors
import Knockout.Proofs.Blame.Labels
import Knockout.Proofs.Completeness
import Knockout.Proofs.Conservation
import Knockout.Proofs.Content
import Knockout.Proofs.Ensures
import Knockout.Proofs.Grammar.Acceptance
import Knockout.Proofs.Grammar.Balance
import Knockout.Proofs.Grammar.Keywords
import Knockout.Proofs.Grammar.Locality
import Knockout.Proofs.Grammar.Reading
import Knockout.Proofs.Grammar.Rounds
import Knockout.Proofs.Grammar.Sections
import Knockout.Proofs.Grammar.Spelling
import Knockout.Proofs.Grammar.Tree
import Knockout.Proofs.Graph.Labels
import Knockout.Proofs.Graph.Statements
import Knockout.Proofs.Graph.Structure
import Knockout.Proofs.Invariant
import Knockout.Proofs.JsonText
import Knockout.Proofs.Leaderboard
import Knockout.Proofs.Lexing.Cursors
import Knockout.Proofs.Lexing.Delimiters
import Knockout.Proofs.Lexing.Essence
import Knockout.Proofs.Lexing.Lines
import Knockout.Proofs.Lexing.Matching
import Knockout.Proofs.Lexing.Pieces
import Knockout.Proofs.Lexing.Places
import Knockout.Proofs.Lexing.Rendering
import Knockout.Proofs.Lexing.Tiling
import Knockout.Proofs.Lexing.Unmatched
import Knockout.Proofs.LineEndings
import Knockout.Proofs.Progress
import Knockout.Proofs.Project.Paths
import Knockout.Proofs.Project.Patterns
import Knockout.Proofs.Project.Sources
import Knockout.Proofs.Project.Trees
import Knockout.Proofs.Provenance
import Knockout.Proofs.Recovery
import Knockout.Proofs.Relocation
import Knockout.Proofs.Results
import Knockout.Proofs.Scores
import Knockout.Proofs.Standings
import Knockout.Proofs.Strictness
import Knockout.Proofs.Summary
import Knockout.Proofs.TeamCount
import Knockout.Proofs.TeamNames
import Knockout.Proofs.Truncation
import Knockout.Proofs.Verdict
import Knockout.Proofs.Writing.Canonical
import Knockout.Proofs.Writing.RoundTrip
import Knockout.Proofs.Writing.Script
import Knockout.Proofs.Writing.Tokens
import Knockout.Proofs.Writing.Trees
import Knockout.Records
import Knockout.Report.BracketTable
import Knockout.Report.Graph
import Knockout.Report.Leaderboard
import Knockout.Report.Standing
import Knockout.Report.Summary
import Knockout.Saturating
import Knockout.Score
import Knockout.Source.Cursor
import Knockout.Source.Location
import Knockout.Squad
import Knockout.Syntax.Block
import Knockout.Syntax.Elimination
import Knockout.Syntax.Fault
import Knockout.Syntax.Header
import Knockout.Syntax.Parsed
import Knockout.Syntax.Reader
import Knockout.Syntax.Teams
import Knockout.Text.Blank
import Knockout.Text.Counted
import Knockout.Text.Letter
import Knockout.Text.Numeral
import Knockout.Text.Table
import Knockout.Token.Basic
import Knockout.Token.Fault
import Knockout.Token.Kind
import Knockout.Token.Lexed
import Knockout.Token.Piece
import Knockout.Tournament
import Knockout.Yaml.Gap
import Knockout.Yaml.Scalar
import Knockout.Yaml.Token
import Knockout.Yaml.Value
