import Transclusion.Text.CodeRanges
import Transclusion.Text.WordTable
import Transclusion.Text.Word
import Transclusion.Text.EscapeTable
import Transclusion.Text.Quoted
import Transclusion.Text.Blank
import Transclusion.Text.Numeral
import Transclusion.Table
import Transclusion.Tag
import Transclusion.Token
import Transclusion.Span
import Transclusion.OnlyInclude
import Transclusion.Token.Lexer
import Transclusion.Node
import Transclusion.Node.Parts
import Transclusion.Node.Collapse
import Transclusion.Node.Braces
import Transclusion.Node.Outline
import Transclusion.Arguments
import Transclusion.Source
import Transclusion.Cache
import Transclusion.Magic
import Transclusion.Diagnostic
import Transclusion.Flatten
import Transclusion.Expander
import Transclusion.CommandLine.Options
import Transclusion.CommandLine.Files
import Transclusion.CommandLine.FileTree
import Transclusion.CommandLine.Program
import Transclusion.Main
import Transclusion.Proofs.Braces.Conservation
import Transclusion.Proofs.Braces.Nesting
import Transclusion.Proofs.Braces.RoundTrip
import Transclusion.Proofs.Expansion.Bodies
import Transclusion.Proofs.Expansion.Uncached
import Transclusion.Proofs.Braces.Machine
import Transclusion.Proofs.Expansion.Agreement
import Transclusion.Proofs.Expansion.Repetition
import Transclusion.Proofs.Expansion.Counters
import Transclusion.Proofs.Expansion.Collapsing
import Transclusion.Proofs.Expansion.Scopes
import Transclusion.Proofs.Cache.History
import Transclusion.Proofs.Token.Joints
import Transclusion.Proofs.Token.Lossless
import Transclusion.Proofs.Token.Canonical
import Transclusion.Proofs.Braces.Root
import Transclusion.Proofs.Expansion.SideBySide
import Transclusion.Proofs.Expansion.Uncut
import Transclusion.Proofs.Expansion.Inclusion
import Transclusion.Proofs.Expansion.Unmatched
import Transclusion.Proofs.Expansion.Lookups
import Transclusion.Proofs.Expansion.Missing
import Transclusion.Proofs.CommandLine.Confinement
import Transclusion.Proofs.Expansion.Evaluators
import Transclusion.Proofs.Braces.Pair
import Transclusion.Proofs.Node.Links
import Transclusion.Proofs.Arguments.Binding
import Transclusion.Proofs.Arguments.Reencoding
import Transclusion.Proofs.Token.Tags
import Transclusion.Proofs.Token.OnlyInclude
import Transclusion.Proofs.Expansion.Articles
import Transclusion.Proofs.Token.Spans
import Transclusion.Proofs.Braces.Cursor
import Transclusion.Proofs.Expansion.Cycles
import Transclusion.Proofs.Expansion.Chains
import Transclusion.Proofs.Node.Within
import Transclusion.Proofs.Node.Collapsed
import Transclusion.Proofs.Braces.Skipped
import Transclusion.Proofs.Text.Quoting
import Transclusion.Proofs.Node.Outline
import Transclusion.Proofs.Braces.Sources
import Transclusion.Proofs.Braces.Occurs
import Transclusion.Proofs.Braces.Form
import Transclusion.Proofs.Expansion.LineStart
import Transclusion.Proofs.Braces.Composition
import Transclusion.Proofs.CommandLine.Reporting
