import KotlinHighlight.OutputPane
import KotlinHighlight.Proofs.Editor.Rounds
import KotlinHighlight.Proofs.Editor.Units
import KotlinHighlight.Settings.File
import KotlinHighlight.Proofs.Region.Restart
import KotlinHighlight.Proofs.Highlight.Outside
import KotlinHighlight.Proofs.Editor.Fresh
import KotlinHighlight.Proofs.Editor.Repaints
import KotlinHighlight.Proofs.Editor.Replacing
import KotlinHighlight.Proofs.Cache
import KotlinHighlight.Proofs.Decimal.Nearest
import KotlinHighlight.Proofs.Decimal.Notation
import KotlinHighlight.Proofs.Json.Scalar
import KotlinHighlight.Proofs.Json.Parts
import KotlinHighlight.Proofs.Json.RoundTrip
import KotlinHighlight.Proofs.Settings.File
import KotlinHighlight.Proofs.Vocabulary.Search
import KotlinHighlight.Proofs.Heuristic.Plain
import KotlinHighlight.Proofs.Heuristic.Regions
import KotlinHighlight.Proofs.Heuristic.Open
import KotlinHighlight.Proofs.Highlight.Agreement
import KotlinHighlight.Proofs.Region.Partition
import KotlinHighlight.Proofs.Editor.Queue
import KotlinHighlight.Proofs.Editor.Setup
import KotlinHighlight.Proofs.Editor.Strokes
import KotlinHighlight.Proofs.Palette
import KotlinHighlight.Proofs.Settings.Choices
import KotlinHighlight.Proofs.Editor.Created
import KotlinHighlight.Proofs.LineIndex.Exhaustive
import KotlinHighlight.Proofs.Pattern.Language
import KotlinHighlight.Proofs.Number.Grammar
import KotlinHighlight.Proofs.Pattern.Longest
import KotlinHighlight.Proofs.Number.Longest
import KotlinHighlight.Proofs.Highlight.Numbers
import KotlinHighlight.Proofs.Highlight.Words
import KotlinHighlight.Proofs.Highlight.LineEndings
import KotlinHighlight.Proofs.Highlight.Containment
import KotlinHighlight.Proofs.Cache.Hits
import KotlinHighlight.Proofs.Editor.Refusal
import KotlinHighlight.Proofs.ErrorLocation.Offsets
import KotlinHighlight.Proofs.Pattern.Groups
import KotlinHighlight.Proofs.ErrorLocation.Leftmost
import KotlinHighlight.Proofs.ErrorLocation.Output
import KotlinHighlight.Proofs.Text.Utf16
import KotlinHighlight.Proofs.Highlight.Themes
import KotlinHighlight.Proofs.Highlight.LineComments
import KotlinHighlight.Proofs.Color
import KotlinHighlight.Proofs.Editor.Reads
