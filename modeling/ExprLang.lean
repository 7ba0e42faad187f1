import ExprLang.CommandLine
import ExprLang.Compile
import ExprLang.Directory
import ExprLang.Format
import ExprLang.Grammar.Descent
import ExprLang.Grammar.Error
import ExprLang.Grammar.Parser
import ExprLang.Grammar.Session
import ExprLang.Grammar.Source
import ExprLang.Grammar.State
import ExprLang.Json
import ExprLang.Lexical.Cursor
import ExprLang.Lexical.Error
import ExprLang.Lexical.Rule
import ExprLang.Location
import ExprLang.Log.Event
import ExprLang.Log.Level
import ExprLang.Main
import ExprLang.Number.Binary64
import ExprLang.Number.Decimal
import ExprLang.Number.Layout
import ExprLang.Number.Numeral
import ExprLang.Proofs.Grammar.Descent
import ExprLang.Proofs.Grammar.Lookahead
import ExprLang.Proofs.Grammar.Machine
import ExprLang.Proofs.Grammar.Relocation
import ExprLang.Proofs.Grammar.Spelling
import ExprLang.Proofs.Grammar.Viable
import ExprLang.Proofs.Lexical.Cut
import ExprLang.Proofs.Lexical.Drain
import ExprLang.Proofs.Lexical.Fits
import ExprLang.Proofs.Lexical.Position
import ExprLang.Proofs.Parse.Arrangement
import ExprLang.Proofs.Parse.Concatenation
import ExprLang.Proofs.Run.Interleaving
import ExprLang.Proofs.Run.Output
import ExprLang.Run
import ExprLang.Run.Error
import ExprLang.Settings
import ExprLang.Text.Ascii
import ExprLang.Text.Basic
import ExprLang.Text.Blank
import ExprLang.Text.Piece
import ExprLang.Text.Printable
import ExprLang.Text.Quoted
import ExprLang.Token
import ExprLang.Tree
import ExprLang.Tree.Canonical
import ExprLang.Tree.Json
import ExprLang.Tree.Outline
import ExprLang.Proofs.Lexical.Alignment
import ExprLang.Proofs.Parse.ErrorLocation
import ExprLang.Proofs.Grammar.Protocol
import ExprLang.Proofs.Number.Rounding
import ExprLang.Proofs.Number.DigitRun
import ExprLang.Proofs.Number.Grid
import ExprLang.Proofs.Number.ReadBack
import ExprLang.Proofs.Number.Shortest
import ExprLang.Proofs.Parse.BareForm
import ExprLang.Proofs.Lexical.Progress
import ExprLang.Proofs.Text.Quoting
import ExprLang.Proofs.Run.TokenTable
import ExprLang.Proofs.Tree.UniqueReading
import ExprLang.Proofs.Json.Document
import ExprLang.Proofs.Json.Written
import ExprLang.Proofs.Number.Brevity
import ExprLang.Proofs.Tree.JsonForm
import ExprLang.Proofs.Lexical.Stuck
import ExprLang.Proofs.Number.Nearest
import ExprLang.Proofs.Parse.NumberLiteral
import ExprLang.Proofs.Tree.NumberText
import ExprLang.Proofs.Lexical.Message
import ExprLang.Proofs.Lexical.RuleOrder
import ExprLang.Proofs.Tree.Encoding
import ExprLang.Proofs.Parse.Depth
