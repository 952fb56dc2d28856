import RuleCanon.Unicode.Property
import RuleCanon.Unicode.CaseFolding
import RuleCanon.Text.Identifier
import RuleCanon.Text.Quoted
import RuleCanon.Text.Trim
import RuleCanon.Text.Wrap
import RuleCanon.Literal.Segment
import RuleCanon.Literal.Quotes
import RuleCanon.Literal.Outside
import RuleCanon.Pattern.Basic
import RuleCanon.Pattern.Template
import RuleCanon.Pattern.Reader
import RuleCanon.Pattern.Word
import RuleCanon.Table
import RuleCanon.Json.Reader
import RuleCanon.Json.Printer
import RuleCanon.Lexicon.Written
import RuleCanon.Lexicon.Registry
import RuleCanon.Lexicon.Builtin
import RuleCanon.Keyword.Substitution
import RuleCanon.Idiom.Punctuation
import RuleCanon.Idiom.Possessive
import RuleCanon.Idiom.Operator
import RuleCanon.Idiom.RuleHeading
import RuleCanon.Idiom.LinePrefix
import RuleCanon.Stage.Builtin
import RuleCanon.Rule.File
import RuleCanon.Pipeline.Locale
import RuleCanon.File.Dialogue
import RuleCanon.File.Disk
import RuleCanon.CommandLine.Run
import RuleCanon.Main
import RuleCanon.Proofs.Text.Slice
import RuleCanon.Proofs.Text.Bytes
import RuleCanon.Proofs.Text.Breaks
import RuleCanon.Proofs.Pattern.Words
import RuleCanon.Proofs.Pattern.Groups
import RuleCanon.Proofs.Pattern.Horizon
import RuleCanon.Proofs.Pattern.Search
import RuleCanon.Proofs.Pattern.Sealed
import RuleCanon.Proofs.Pattern.Window
import RuleCanon.Proofs.Pattern.Lines
import RuleCanon.Proofs.Pattern.Greedy
import RuleCanon.Proofs.Pattern.Parts
import RuleCanon.Proofs.Literal.Body
import RuleCanon.Proofs.Literal.Cut
import RuleCanon.Proofs.Literal.Escape
import RuleCanon.Proofs.Literal.Requote
import RuleCanon.Proofs.Literal.Step
import RuleCanon.Proofs.Literal.Frame
import RuleCanon.Proofs.Literal.Retry
import RuleCanon.Proofs.Literal.Codewise
import RuleCanon.Proofs.Literal.Tame
import RuleCanon.Proofs.Literal.Rewrite
import RuleCanon.Proofs.Literal.Lines
import RuleCanon.Proofs.Literal.Breaks
import RuleCanon.Proofs.Literal.LineEnds
import RuleCanon.Proofs.Literal.Closing
import RuleCanon.Proofs.Literal.Segmentation
import RuleCanon.Proofs.Literal.Stretch
import RuleCanon.Proofs.Literal.Scan
import RuleCanon.Proofs.Literal.LineStart
import RuleCanon.Proofs.Literal.Matches
import RuleCanon.Proofs.Literal.TextLines
import RuleCanon.Proofs.Literal.Locality
import RuleCanon.Proofs.Literal.Ending
import RuleCanon.Proofs.Literal.Loop
import RuleCanon.Proofs.Idiom.Codewise
import RuleCanon.Proofs.Idiom.Lines
import RuleCanon.Proofs.Idiom.Breaks
import RuleCanon.Proofs.Idiom.Binding
import RuleCanon.Proofs.Idiom.Rebinding
import RuleCanon.Proofs.Idiom.Comparison
import RuleCanon.Proofs.Idiom.Branch
import RuleCanon.Proofs.Idiom.Ascii
import RuleCanon.Proofs.Idiom.Possessive
import RuleCanon.Proofs.Idiom.LinePrefix
import RuleCanon.Proofs.Idiom.RuleHeading
import RuleCanon.Proofs.Json.Scalars
import RuleCanon.Proofs.Json.RoundTrip
import RuleCanon.Proofs.Lexicon.Checked
import RuleCanon.Proofs.Lexicon.RoundTrip
import RuleCanon.Proofs.Lexicon.Faults
import RuleCanon.Proofs.Keyword.Border
import RuleCanon.Proofs.Keyword.Index
import RuleCanon.Proofs.Keyword.Runs
import RuleCanon.Proofs.Keyword.Longest
import RuleCanon.Proofs.Stage.Builtin
import RuleCanon.Proofs.Stage.Operator
import RuleCanon.Proofs.Stage.Comparison
import RuleCanon.Proofs.Stage.Idempotent
import RuleCanon.Proofs.Stage.MemberAccess
import RuleCanon.Proofs.Stage.LinePrefix
import RuleCanon.Proofs.Stage.RuleHeading
import RuleCanon.Proofs.Pipeline.Literals
import RuleCanon.Proofs.Pipeline.Lines
import RuleCanon.Proofs.Pipeline.Assembly
import RuleCanon.Proofs.Pipeline.Growth
import RuleCanon.Proofs.Pipeline.Breaks
import RuleCanon.Proofs.Pipeline.Canonical
import RuleCanon.Proofs.Pipeline.Trace
import RuleCanon.Proofs.File.Disk
import RuleCanon.Proofs.CommandLine.Reading
import RuleCanon.Proofs.CommandLine.Canon
