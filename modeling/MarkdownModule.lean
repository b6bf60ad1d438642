import MarkdownModule.Component.Reference
import MarkdownModule.Component.Registry
import MarkdownModule.Decimal.Binary64
import MarkdownModule.Decimal.Power
import MarkdownModule.Decimal.Shortest
import MarkdownModule.Error
import MarkdownModule.Framework.Component
import MarkdownModule.Frontmatter
import MarkdownModule.Html.Attribute
import MarkdownModule.Html.CodeMark
import MarkdownModule.Html.Content
import MarkdownModule.Html.Context
import MarkdownModule.Html.ElementName
import MarkdownModule.Html.NameTable
import MarkdownModule.Html.RawText
import MarkdownModule.Html.Reference
import MarkdownModule.Html.StartTag
import MarkdownModule.Html.Tag
import MarkdownModule.Html.TagEnd
import MarkdownModule.Json.Reader
import MarkdownModule.Json.Syntax
import MarkdownModule.Json.Value
import MarkdownModule.Json.Writer
import MarkdownModule.Jsx.Attribute
import MarkdownModule.Jsx.Convert
import MarkdownModule.Jsx.Style
import MarkdownModule.Loader
import MarkdownModule.Loader.Describe
import MarkdownModule.Markdown.Address
import MarkdownModule.Markdown.Block
import MarkdownModule.Markdown.Block.Container
import MarkdownModule.Markdown.Block.Fence
import MarkdownModule.Markdown.Block.Heading
import MarkdownModule.Markdown.Block.Leaf
import MarkdownModule.Markdown.Block.RawHtml
import MarkdownModule.Markdown.Block.Resolve
import MarkdownModule.Markdown.Block.Stack
import MarkdownModule.Markdown.Block.Start
import MarkdownModule.Markdown.Block.Table
import MarkdownModule.Markdown.Block.Write
import MarkdownModule.Markdown.Definition
import MarkdownModule.Markdown.Destination
import MarkdownModule.Markdown.Document
import MarkdownModule.Markdown.Escape
import MarkdownModule.Markdown.Footnote
import MarkdownModule.Markdown.Inline
import MarkdownModule.Markdown.Inline.Autolink
import MarkdownModule.Markdown.Inline.BareLink
import MarkdownModule.Markdown.Inline.CodeSpan
import MarkdownModule.Markdown.Inline.Emphasis
import MarkdownModule.Markdown.Inline.Mail
import MarkdownModule.Markdown.Inline.Piece
import MarkdownModule.Markdown.Inline.RawTag
import MarkdownModule.Markdown.Inline.Scan
import MarkdownModule.Markdown.Inline.Side
import MarkdownModule.Markdown.Inline.Write
import MarkdownModule.Markdown.Label
import MarkdownModule.Markdown.Line
import MarkdownModule.Markdown.Outline
import MarkdownModule.Markdown.Render
import MarkdownModule.Mode
import MarkdownModule.Naming
import MarkdownModule.Options.Loader
import MarkdownModule.Options.Record
import MarkdownModule.Options.Renderer
import MarkdownModule.Render.Channel
import MarkdownModule.Script.Binding
import MarkdownModule.Script.Literal
import MarkdownModule.Script.Module
import MarkdownModule.Text.Basic
import MarkdownModule.Text.Blank
import MarkdownModule.Text.Bytes
import MarkdownModule.Text.LetterCase
import MarkdownModule.Text.Punctuation
import MarkdownModule.Text.Visible
import MarkdownModule.Yaml.BlockScalar
import MarkdownModule.Yaml.Cursor
import MarkdownModule.Yaml.Error
import MarkdownModule.Yaml.Load
import MarkdownModule.Yaml.Node
import MarkdownModule.Yaml.QuotedScalar
import MarkdownModule.Yaml.Scalar
import MarkdownModule.Yaml.Token
import MarkdownModule.Yaml.Token.List
import MarkdownModule.Yaml.Token.Property
import MarkdownModule.Proofs.Html.Settle
import MarkdownModule.Proofs.Jsx.Piece
import MarkdownModule.Proofs.Naming.Spelling
import MarkdownModule.Proofs.Jsx.Coverage
import MarkdownModule.Proofs.Component.Binding
import MarkdownModule.Proofs.Jsx.TagRead
import MarkdownModule.Proofs.Jsx.Translation
import MarkdownModule.Proofs.Decimal.Rounding
import MarkdownModule.Proofs.Decimal.Shortest
import MarkdownModule.Proofs.Json.Lexeme
import MarkdownModule.Proofs.Json.Number
import MarkdownModule.Proofs.Json.Quote
import MarkdownModule.Proofs.Json.RoundTrip
import MarkdownModule.Proofs.Yaml.Value
import MarkdownModule.Proofs.Script.ImportKey
import MarkdownModule.Proofs.Loader.Assembly
import MarkdownModule.Proofs.Script.StringLiteral
import MarkdownModule.Proofs.Script.ValueLiteral
import MarkdownModule.Proofs.Frontmatter.Lines
import MarkdownModule.Proofs.Component.Import
import MarkdownModule.Proofs.Component.Reference
import MarkdownModule.Proofs.Jsx.Leak
import MarkdownModule.Proofs.Jsx.Spelling
import MarkdownModule.Proofs.Loader.Modes
import MarkdownModule.Proofs.Loader.Failure
import MarkdownModule.Proofs.Frontmatter.WholeBlock
import MarkdownModule.Proofs.Html.Token
import MarkdownModule.Proofs.Script.Declaration
import MarkdownModule.Proofs.Options.RoundTrip
import MarkdownModule.Proofs.Markdown.Breaks
import MarkdownModule.Proofs.Naming.RoundTrip
import MarkdownModule.Proofs.Component.NamedImport
import MarkdownModule.Proofs.Component.Registry
import MarkdownModule.Proofs.Component.Lookup
import MarkdownModule.Proofs.Markdown.LineEnding
import MarkdownModule.Proofs.Component.RootClass
import MarkdownModule.Proofs.Mode.Resolution
import MarkdownModule.Proofs.Frontmatter.Again
import MarkdownModule.Proofs.Jsx.Style
import MarkdownModule.Proofs.Html.RawContent
import MarkdownModule.Proofs.Html.TagEndPlace
import MarkdownModule.Proofs.Loader.ByPlace
import MarkdownModule.Proofs.Markdown.Return.Render
