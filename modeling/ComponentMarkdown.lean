import ComponentMarkdown.Attrs
import ComponentMarkdown.CommandLine.Arguments
import ComponentMarkdown.CommandLine.FileAccess
import ComponentMarkdown.CommandLine.FileTree
import ComponentMarkdown.CommandLine.Path
import ComponentMarkdown.CommandLine.Run
import ComponentMarkdown.CommonMark.BlockReader
import ComponentMarkdown.CommonMark.Definition
import ComponentMarkdown.CommonMark.Delimiter
import ComponentMarkdown.CommonMark.Destination
import ComponentMarkdown.CommonMark.Emphasis
import ComponentMarkdown.CommonMark.Entity
import ComponentMarkdown.CommonMark.EntityTable
import ComponentMarkdown.CommonMark.HtmlTag
import ComponentMarkdown.CommonMark.InlineReader
import ComponentMarkdown.CommonMark.Label
import ComponentMarkdown.CommonMark.Line
import ComponentMarkdown.CommonMark.LineStart
import ComponentMarkdown.CommonMark.LinkTarget
import ComponentMarkdown.CommonMark.Token
import ComponentMarkdown.CommonMark.Tree
import ComponentMarkdown.Decimal.Double
import ComponentMarkdown.Decimal.Reader
import ComponentMarkdown.Decimal.Shortest
import ComponentMarkdown.Doc.Mark
import ComponentMarkdown.Doc.Nesting
import ComponentMarkdown.Doc.Node
import ComponentMarkdown.Doc.OfMarkup
import ComponentMarkdown.Doc.Runs
import ComponentMarkdown.Doc.TagKind
import ComponentMarkdown.Doc.ToMarkup
import ComponentMarkdown.Doc.Wire
import ComponentMarkdown.Highlight.Decorate
import ComponentMarkdown.Highlight.Theme
import ComponentMarkdown.Highlight.Token
import ComponentMarkdown.Json.Printer
import ComponentMarkdown.Json.Reader
import ComponentMarkdown.Json.Record
import ComponentMarkdown.Json.Written
import ComponentMarkdown.LinkPolicy
import ComponentMarkdown.Main
import ComponentMarkdown.Markup.AttributeBlock
import ComponentMarkdown.Markup.AttributeReader
import ComponentMarkdown.Markup.CodeFence
import ComponentMarkdown.Markup.CodeInfo
import ComponentMarkdown.Markup.Component
import ComponentMarkdown.Markup.Frontmatter
import ComponentMarkdown.Markup.Inline
import ComponentMarkdown.Markup.Markdown
import ComponentMarkdown.Markup.Node
import ComponentMarkdown.Markup.Placement
import ComponentMarkdown.Markup.Token
import ComponentMarkdown.Markup.Wire
import ComponentMarkdown.Markup.Writer
import ComponentMarkdown.Platform
import ComponentMarkdown.Proofs.AnchorAgreement
import ComponentMarkdown.Proofs.AnchorUniqueness
import ComponentMarkdown.Proofs.Attrs
import ComponentMarkdown.Proofs.Doc.Anchors
import ComponentMarkdown.Proofs.Doc.BlockRoundTrip
import ComponentMarkdown.Proofs.Doc.Bridging
import ComponentMarkdown.Proofs.Doc.ComponentPlace
import ComponentMarkdown.Proofs.Doc.Editable
import ComponentMarkdown.Proofs.Doc.Headings
import ComponentMarkdown.Proofs.Doc.Leaves
import ComponentMarkdown.Proofs.Doc.Line
import ComponentMarkdown.Proofs.Doc.LineRoundTrip
import ComponentMarkdown.Proofs.Doc.Mark
import ComponentMarkdown.Proofs.Doc.Nesting
import ComponentMarkdown.Proofs.Doc.ReadHeadings
import ComponentMarkdown.Proofs.Doc.Reading
import ComponentMarkdown.Proofs.Doc.Runs
import ComponentMarkdown.Proofs.Doc.SameReading
import ComponentMarkdown.Proofs.Doc.Shortcodes
import ComponentMarkdown.Proofs.Doc.Spelling
import ComponentMarkdown.Proofs.Doc.Styled
import ComponentMarkdown.Proofs.Doc.TagKind
import ComponentMarkdown.Proofs.Doc.Tree
import ComponentMarkdown.Proofs.Doc.WireRoundTrip
import ComponentMarkdown.Proofs.Doc.Writing
import ComponentMarkdown.Proofs.Doc.WrittenAlike
import ComponentMarkdown.Proofs.Doc.WrittenAttrs
import ComponentMarkdown.Proofs.Doc.WrittenHeadings
import ComponentMarkdown.Proofs.Doc.WrittenText
import ComponentMarkdown.Proofs.FormattedText
import ComponentMarkdown.Proofs.Highlight.Decoration
import ComponentMarkdown.Proofs.Highlight.Idempotence
import ComponentMarkdown.Proofs.Highlight.Invisibility
import ComponentMarkdown.Proofs.LinkPolicy
import ComponentMarkdown.Proofs.Markup.AttributeBlock
import ComponentMarkdown.Proofs.Markup.Canonical
import ComponentMarkdown.Proofs.Markup.Fenced
import ComponentMarkdown.Proofs.Markup.FencedOrder
import ComponentMarkdown.Proofs.Markup.FencedReading
import ComponentMarkdown.Proofs.Markup.FencedRoundTrip
import ComponentMarkdown.Proofs.Markup.Placement
import ComponentMarkdown.Proofs.Markup.Rendering
import ComponentMarkdown.Proofs.Markup.Scan
import ComponentMarkdown.Proofs.Markup.Text
import ComponentMarkdown.Proofs.Markup.Token
import ComponentMarkdown.Proofs.Markup.Tree
import ComponentMarkdown.Proofs.Merging
import ComponentMarkdown.Proofs.RoundTrip
import ComponentMarkdown.Proofs.Shortcode
import ComponentMarkdown.Proofs.SlugRegistry
import ComponentMarkdown.Proofs.Slugged
import ComponentMarkdown.Proofs.Text
import ComponentMarkdown.Proofs.Value
import ComponentMarkdown.RoundTrip
import ComponentMarkdown.Settings
import ComponentMarkdown.Settings.Schema
import ComponentMarkdown.Shortcode
import ComponentMarkdown.Slug
import ComponentMarkdown.Surroundings
import ComponentMarkdown.Text.Alphanumeric
import ComponentMarkdown.Text.Blank
import ComponentMarkdown.Text.CaseFold
import ComponentMarkdown.Text.CharRanges
import ComponentMarkdown.Text.Escaped
import ComponentMarkdown.Text.Grapheme
import ComponentMarkdown.Text.Lines
import ComponentMarkdown.Text.Punctuation
import ComponentMarkdown.Text.WordChar
import ComponentMarkdown.Toml.Printer
import ComponentMarkdown.Toml.Reader
import ComponentMarkdown.Toml.Scalar
import ComponentMarkdown.Toml.Table
import ComponentMarkdown.Url.Address
import ComponentMarkdown.Url.Host
import ComponentMarkdown.Url.HostChar
import ComponentMarkdown.Url.Punycode
import ComponentMarkdown.Url.Web
import ComponentMarkdown.Value
import ComponentMarkdown.WordDiff
import ComponentMarkdown.Yaml.Cursor
import ComponentMarkdown.Yaml.Node
import ComponentMarkdown.Yaml.Printer
import ComponentMarkdown.Yaml.Reader
import ComponentMarkdown.Yaml.Scalar
import ComponentMarkdown.Yaml.ScalarText
import ComponentMarkdown.Yaml.Token
import ComponentMarkdown.Proofs.Markup.CodeFence
import ComponentMarkdown.Proofs.Markup.ListFence
import ComponentMarkdown.Proofs.Highlight.Written
import ComponentMarkdown.Proofs.Markup.ParseOutcome
import ComponentMarkdown.Proofs.Markup.QuotedStrings
import ComponentMarkdown.Proofs.Doc.Schema
import ComponentMarkdown.Proofs.LiftedComments
import ComponentMarkdown.Proofs.Markup.WireForms
import ComponentMarkdown.Proofs.Markup.LineEnds
import ComponentMarkdown.Proofs.JsonLine
import ComponentMarkdown.Proofs.Markup.Seamless
import ComponentMarkdown.Proofs.Markup.FrontRule
import ComponentMarkdown.Proofs.Doc.AttributeOrder
import ComponentMarkdown.Proofs.Doc.JoinedLines
import ComponentMarkdown.Proofs.Doc.Frames
import ComponentMarkdown.Proofs.Doc.FramedLines
import ComponentMarkdown.Proofs.Doc.FramedBlocks
import ComponentMarkdown.Proofs.Doc.Paragraphs
import ComponentMarkdown.Proofs.KeptOrder
import ComponentMarkdown.Proofs.WordDiff
import ComponentMarkdown.Proofs.WordDiff.Alignment
import ComponentMarkdown.Proofs.WordDiff.Table
import ComponentMarkdown.Proofs.Markup.BlockEnd
import ComponentMarkdown.Proofs.Markup.InlineReading
import ComponentMarkdown.Proofs.Markup.WrittenBlock
import ComponentMarkdown.Proofs.Markup.InlineWriting
import ComponentMarkdown.Proofs.Markup.Binding
import ComponentMarkdown.Proofs.Markup.InlineRoundTrip
import ComponentMarkdown.Proofs.Markup.InlinePieces
import ComponentMarkdown.Proofs.Markup.InlineOffsets
import ComponentMarkdown.Proofs.Markup.InlineKept
import ComponentMarkdown.Proofs.Slug
import ComponentMarkdown.Proofs.SlugSearch
import ComponentMarkdown.Proofs.Markup.FrontBlock
import ComponentMarkdown.Proofs.Markup.ErrorLine
import ComponentMarkdown.Proofs.Markup.CodeInfo
import ComponentMarkdown.Proofs.Markup.CodeSpan
import ComponentMarkdown.Proofs.Markup.Adjacency
import ComponentMarkdown.Proofs.Doc.MarkTree
import ComponentMarkdown.Proofs.Doc.JoinedFormatting
import ComponentMarkdown.Proofs.Doc.MaximalRuns
