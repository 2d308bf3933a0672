import Docsite.CommandLine.Arguments
import Docsite.CommandLine.Run
import Docsite.Conversion
import Docsite.Document.Kind
import Docsite.Document.Matcher
import Docsite.Document.Node
import Docsite.Document.OfTokens
import Docsite.Document.Script
import Docsite.Fault
import Docsite.Files.Change
import Docsite.Files.FileTree
import Docsite.Files.Path
import Docsite.Files.Utf8
import Docsite.FrontMatter
import Docsite.Link.Rewrite
import Docsite.Link.Rewriter
import Docsite.Log
import Docsite.Main
import Docsite.Markdown.Block.Basic
import Docsite.Markdown.Block.Feed
import Docsite.Markdown.Block.OfText
import Docsite.Markdown.Block.Start
import Docsite.Markdown.Block.Table
import Docsite.Markdown.Escape
import Docsite.Markdown.Indent
import Docsite.Markdown.Inline.Emphasis
import Docsite.Markdown.Inline.OfText
import Docsite.Markdown.Inline.Span
import Docsite.Markdown.Line
import Docsite.Markdown.Options
import Docsite.Markdown.RawHtml
import Docsite.Markdown.Reference
import Docsite.Markdown.Render
import Docsite.Markdown.Token
import Docsite.Markdown.Tokenize
import Docsite.Pass.Admonitions
import Docsite.Pass.Basic
import Docsite.Pass.Examples
import Docsite.Pass.Links
import Docsite.Pass.Sequence
import Docsite.Pass.Symbols
import Docsite.Proofs.Pass.Admonitions
import Docsite.Proofs.Pass.Examples
import Docsite.Proofs.Tree.Subtrees
import Docsite.Proofs.Walk.Step
import Docsite.Site.Discover
import Docsite.Site.Generate
import Docsite.Site.Session
import Docsite.Tables
import Docsite.Text.Blank
import Docsite.Text.Lines
import Docsite.Text.Pattern
import Docsite.Text.Quoted
import Docsite.Text.Search
import Docsite.Tree.Basic
import Docsite.Tree.Walk
import Docsite.Unicode.Alphanumeric
import Docsite.Unicode.CaseFold
import Docsite.Unicode.CharacterReference
import Docsite.Unicode.PercentEncoding
import Docsite.Unicode.Printable
import Docsite.Unicode.Punctuation
import Docsite.Unicode.Ranges
import Docsite.Yaml.Resolve
import Docsite.Yaml.Scalar
import Docsite.Proofs.Walk.Coverage
import Docsite.Proofs.Pass.Symbols
import Docsite.Proofs.Pass.Links
import Docsite.Proofs.Document.OfTokens
import Docsite.Proofs.Pass.Shape
import Docsite.Proofs.Walk.Tour
import Docsite.Proofs.Pass.Nesting
import Docsite.Proofs.Pass.Standard
import Docsite.Proofs.Markdown.Words
import Docsite.Proofs.Markdown.Reread
import Docsite.Proofs.Text.Lines
import Docsite.Proofs.Markdown.Escape
import Docsite.Proofs.Markdown.Layout
import Docsite.Proofs.Markdown.LineStarts
import Docsite.Proofs.Conversion
import Docsite.Proofs.Markdown.Containers
import Docsite.Proofs.Pass.Spacing
import Docsite.Proofs.Document.Recut
import Docsite.Proofs.Walk.Survivors
import Docsite.Proofs.Text.Search
import Docsite.Proofs.Site.Discover
import Docsite.Proofs.Link.Rewrite
import Docsite.Proofs.Link.Target
import Docsite.Proofs.Yaml.Reader
import Docsite.Proofs.Yaml.RoundTrip
import Docsite.Proofs.FrontMatter.Block
import Docsite.Proofs.Files.Listing
import Docsite.Proofs.Files.Directories
import Docsite.Proofs.Files.Utf8
import Docsite.Proofs.Site.Contents
import Docsite.Proofs.Site.Run
import Docsite.Proofs.Site.Package
import Docsite.Proofs.Site.Generate
import Docsite.Proofs.Site.Failures
import Docsite.Proofs.Site.Pages
import Docsite.Proofs.Site.Output
import Docsite.Proofs.Site.Sources
import Docsite.Proofs.Site.Course
import Docsite.Proofs.CommandLine.Outcome
import Docsite.Proofs.Markdown.TableLines
import Docsite.Proofs.Markdown.TableCells
import Docsite.Proofs.Markdown.Rest
import Docsite.Proofs.Markdown.CellInlines
import Docsite.Proofs.Markdown.TableBlocks
import Docsite.Proofs.Markdown.Tables
import Docsite.Proofs.Markdown.CodeSpans
import Docsite.Proofs.Markdown.Prefixes
import Docsite.Proofs.Markdown.Fences
import Docsite.Proofs.Markdown.Literals
import Docsite.Proofs.Markdown.Targets
import Docsite.Markdown.Writer
import Docsite.Proofs.Markdown.Writer
import Docsite.Proofs.Markdown.Ancestors
import Docsite.Proofs.Document.Urls
import Docsite.Proofs.Pass.Refusals
import Docsite.Proofs.Pass.Contents
import Docsite.Pass.Relay
import Docsite.Proofs.Pass.Relay
import Docsite.Proofs.Pass.Commuting
import Docsite.Proofs.Link.External
import Docsite.Proofs.Markdown.Options
import Docsite.Proofs.Markdown.CarefulWriter
