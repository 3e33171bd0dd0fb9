import DocCheck.Check
import DocCheck.CommandLine.Run
import DocCheck.Dump
import DocCheck.Main
import DocCheck.Proofs.Stream.Search
import DocCheck.Report.Plain
import DocCheck.Stream.Builder
import DocCheck.Proofs.Ownership
import DocCheck.Proofs.Comment.Conservation
import DocCheck.Proofs.Comment.Reading
import DocCheck.Proofs.Comment.Margin
import DocCheck.Proofs.Position
import DocCheck.Proofs.LineEnding.Text
import DocCheck.Proofs.LineEnding.Stream
import DocCheck.Proofs.LineEnding.Comment
import DocCheck.Proofs.LineEnding.Content
import DocCheck.Proofs.LineEnding.Rule
import DocCheck.Proofs.LineEnding.Column
import DocCheck.Proofs.LineEnding.Run
import DocCheck.Proofs.Comment.TagList
import DocCheck.Proofs.Comment.Order
import DocCheck.Proofs.Comment.Draft
import DocCheck.Proofs.Comment.Rendering
import DocCheck.Proofs.Comment.Indentation
import DocCheck.Proofs.Rule.Author
import DocCheck.Proofs.Rule.PackageName
import DocCheck.Proofs.Rule.Layout
import DocCheck.Proofs.Stream.Builder
import DocCheck.Proofs.Locality
import DocCheck.Proofs.UnknownTag
import DocCheck.Proofs.FileComment
import DocCheck.Proofs.Rule.Stage
import DocCheck.Proofs.Structural
import DocCheck.Proofs.Anchor
import DocCheck.Proofs.CommandLine
import DocCheck.Proofs.Placement
import DocCheck.Proofs.Json.Grammar
import DocCheck.Proofs.Json.Reading
import DocCheck.Proofs.Json.Skipping
import DocCheck.Proofs.Json.Writing
import DocCheck.Proofs.Json.Unambiguity
import DocCheck.Proofs.Report.Json
import DocCheck.Proofs.Dump
import DocCheck.Proofs.Rule.Repetition
import DocCheck.Proofs.Rule.Spacing
import DocCheck.Proofs.Rule.CleanAlignment
import DocCheck.Proofs.Comment.Malformed
import DocCheck.Proofs.Rule.CommentLines
import DocCheck.Proofs.Rule.Suggestion
import DocCheck.Proofs.Stream.DocComment
import DocCheck.Proofs.Report.Colour
import DocCheck.Proofs.Rule.TagGap
import DocCheck.Proofs.Vocabulary
import DocCheck.Proofs.Text.Words
import DocCheck.Proofs.Comment.KeyValue
import DocCheck.Proofs.Sink
