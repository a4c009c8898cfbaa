import SourceDoc.Braced.Function
import SourceDoc.Braced.Outline
import SourceDoc.Braced.Scan
import SourceDoc.Braced.TypeDecl
import SourceDoc.Chat.Fault
import SourceDoc.Chat.Runner
import SourceDoc.CommandLine.Command
import SourceDoc.CommandLine.Help
import SourceDoc.CommandLine.Reader
import SourceDoc.CommandLine.Session
import SourceDoc.Config.Basic
import SourceDoc.Config.Provider
import SourceDoc.Document.Basic
import SourceDoc.Document.Json
import SourceDoc.Extractor.Basic
import SourceDoc.Extractor.Registry
import SourceDoc.Extractor.Step
import SourceDoc.Files.Output
import SourceDoc.Files.Tree
import SourceDoc.Grammar.Rule
import SourceDoc.Grammar.Tree
import SourceDoc.Ignore.Rule
import SourceDoc.Indented.Block
import SourceDoc.Indented.Header
import SourceDoc.Indented.Member
import SourceDoc.Indented.Outline
import SourceDoc.Indented.Symbol
import SourceDoc.Json.Basic
import SourceDoc.Json.Parser
import SourceDoc.Json.Printer
import SourceDoc.Json.Reader
import SourceDoc.Log
import SourceDoc.Main
import SourceDoc.Moment
import SourceDoc.Number.Binary64
import SourceDoc.Number.Literal
import SourceDoc.Outline.Basic
import SourceDoc.Outline.Json
import SourceDoc.Outline.Normal
import SourceDoc.Page.Basic
import SourceDoc.Page.Html
import SourceDoc.Page.Json
import SourceDoc.Page.Layout
import SourceDoc.Page.Markdown
import SourceDoc.Page.Markup
import SourceDoc.Page.Renderer
import SourceDoc.Page.Style
import SourceDoc.Page.Template
import SourceDoc.Path
import SourceDoc.Proofs.Braced.Body
import SourceDoc.Proofs.Braced.Comment
import SourceDoc.Proofs.Braced.Definition
import SourceDoc.Proofs.Braced.Field
import SourceDoc.Proofs.Braced.Function
import SourceDoc.Proofs.Braced.Group
import SourceDoc.Proofs.Braced.Grouping
import SourceDoc.Proofs.Braced.Heading
import SourceDoc.Proofs.Braced.LineEnding
import SourceDoc.Proofs.Braced.Outline
import SourceDoc.Proofs.Braced.Padded
import SourceDoc.Proofs.Braced.Parameter
import SourceDoc.Proofs.Braced.Recognised
import SourceDoc.Proofs.Braced.Remark
import SourceDoc.Proofs.Braced.Start
import SourceDoc.Proofs.Braced.Stream
import SourceDoc.Proofs.Braced.Struct
import SourceDoc.Proofs.Braced.TypeDecl
import SourceDoc.Proofs.Chat.Runner
import SourceDoc.Proofs.CommandLine.Generate
import SourceDoc.Proofs.Config.Check
import SourceDoc.Proofs.Config.Layer
import SourceDoc.Proofs.Config.Setting
import SourceDoc.Proofs.Document.Declared
import SourceDoc.Proofs.Document.Json
import SourceDoc.Proofs.Extractor.History
import SourceDoc.Proofs.Extractor.Outline
import SourceDoc.Proofs.Extractor.Registry
import SourceDoc.Proofs.Files.Output
import SourceDoc.Proofs.Files.Tree
import SourceDoc.Proofs.Files.Write
import SourceDoc.Proofs.Grammar.Field
import SourceDoc.Proofs.Grammar.Rule
import SourceDoc.Proofs.Grammar.Step
import SourceDoc.Proofs.Grammar.Tree
import SourceDoc.Proofs.Ignore.Rule
import SourceDoc.Proofs.Indented.Above
import SourceDoc.Proofs.Indented.Append
import SourceDoc.Proofs.Indented.Below
import SourceDoc.Proofs.Indented.Block
import SourceDoc.Proofs.Indented.Bracketed
import SourceDoc.Proofs.Indented.ClassBody
import SourceDoc.Proofs.Indented.Documentation
import SourceDoc.Proofs.Indented.Edge
import SourceDoc.Proofs.Indented.Header
import SourceDoc.Proofs.Indented.LineEnding
import SourceDoc.Proofs.Indented.Listed
import SourceDoc.Proofs.Indented.Literal
import SourceDoc.Proofs.Indented.Lookahead
import SourceDoc.Proofs.Indented.Nested
import SourceDoc.Proofs.Indented.Outline
import SourceDoc.Proofs.Indented.Overrun
import SourceDoc.Proofs.Indented.Parameter
import SourceDoc.Proofs.Indented.Reading
import SourceDoc.Proofs.Indented.Reworded
import SourceDoc.Proofs.Indented.Signature
import SourceDoc.Proofs.Indented.Symbol
import SourceDoc.Proofs.Indented.Within
import SourceDoc.Proofs.Indented.Yield
import SourceDoc.Proofs.Json.Extent
import SourceDoc.Proofs.Json.Line
import SourceDoc.Proofs.Json.Record
import SourceDoc.Proofs.Json.RoundTrip
import SourceDoc.Proofs.Json.Token
import SourceDoc.Proofs.List
import SourceDoc.Proofs.Outline.Json
import SourceDoc.Proofs.Outline.Normal
import SourceDoc.Proofs.Page.Contents
import SourceDoc.Proofs.Page.Html
import SourceDoc.Proofs.Page.Json
import SourceDoc.Proofs.Page.Lint
import SourceDoc.Proofs.Page.Listing
import SourceDoc.Proofs.Page.Marks
import SourceDoc.Proofs.Page.Markup
import SourceDoc.Proofs.Page.Name
import SourceDoc.Proofs.Page.Sections
import SourceDoc.Proofs.Page.Slots
import SourceDoc.Proofs.Page.Tag
import SourceDoc.Proofs.Page.Target
import SourceDoc.Proofs.Page.Template
import SourceDoc.Proofs.Path
import SourceDoc.Proofs.Prose.Entries
import SourceDoc.Proofs.Prose.Payload
import SourceDoc.Proofs.Prose.Prompt
import SourceDoc.Proofs.Run.Account
import SourceDoc.Proofs.Run.Events
import SourceDoc.Proofs.Run.Failures
import SourceDoc.Proofs.Run.Merge
import SourceDoc.Proofs.Run.Names
import SourceDoc.Proofs.Run.Outcome
import SourceDoc.Proofs.Run.Pages
import SourceDoc.Proofs.Run.Prose
import SourceDoc.Proofs.Run.Readings
import SourceDoc.Proofs.Run.Request
import SourceDoc.Proofs.Run.Steady
import SourceDoc.Proofs.Scan
import SourceDoc.Proofs.Script.Comment
import SourceDoc.Proofs.Script.Name
import SourceDoc.Proofs.Script.Span
import SourceDoc.Proofs.Script.Statement
import SourceDoc.Proofs.Service.Response
import SourceDoc.Proofs.Table
import SourceDoc.Proofs.Text.Blank
import SourceDoc.Proofs.Text.Comment
import SourceDoc.Proofs.Text.Decimal
import SourceDoc.Proofs.Text.Line
import SourceDoc.Proofs.Text.LineEnding
import SourceDoc.Proofs.Text.Nesting
import SourceDoc.Proofs.Text.Order
import SourceDoc.Proofs.Text.Pattern
import SourceDoc.Proofs.Text.Quote
import SourceDoc.Proofs.Text.Split
import SourceDoc.Proofs.Yaml.Value
import SourceDoc.Prose.Basic
import SourceDoc.Prose.Payload
import SourceDoc.Prose.Prompt
import SourceDoc.Prose.Reply
import SourceDoc.Run.Event
import SourceDoc.Run.Outcome
import SourceDoc.Run.Report
import SourceDoc.Run.Trace
import SourceDoc.Scan
import SourceDoc.Script.Grammar
import SourceDoc.Script.Kind
import SourceDoc.Script.Lexeme
import SourceDoc.Script.Outline
import SourceDoc.Script.Rule.Basic
import SourceDoc.Script.Rule.Declaration
import SourceDoc.Script.Rule.Expression
import SourceDoc.Script.Rule.Pattern
import SourceDoc.Script.Rule.Statement
import SourceDoc.Script.Rule.TypeExpr
import SourceDoc.Service.Request
import SourceDoc.Service.Response
import SourceDoc.Table
import SourceDoc.Text.Basic
import SourceDoc.Text.Blank
import SourceDoc.Text.Bracket
import SourceDoc.Text.Case
import SourceDoc.Text.Comment
import SourceDoc.Text.Pattern
import SourceDoc.Text.Quoted
import SourceDoc.Text.Utf8
import SourceDoc.Text.Word
import SourceDoc.Yaml.Cursor
import SourceDoc.Yaml.Node
import SourceDoc.Yaml.Scalar
import SourceDoc.Yaml.Token
import SourceDoc.Yaml.Value
