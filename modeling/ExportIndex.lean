import ExportIndex.Main
import ExportIndex.Proofs.Comment.Extent
import ExportIndex.Proofs.Comment.Outside
import ExportIndex.Proofs.Comment.Printing
import ExportIndex.Proofs.Segment.Run
import ExportIndex.Proofs.Segment.Tokens
import ExportIndex.Proofs.Segment.Tags
import ExportIndex.Proofs.Segment.Pieces
import ExportIndex.Proofs.Segment.Brackets
import ExportIndex.Proofs.Declaration.Extent
import ExportIndex.Proofs.Declaration.Places
import ExportIndex.Proofs.Declaration.Placement
import ExportIndex.Proofs.Declaration.Slots
import ExportIndex.Proofs.Declaration.Composition
import ExportIndex.Proofs.Declaration.Truncation
import ExportIndex.Proofs.Declaration.Layout
import ExportIndex.Proofs.Declaration.Comments
import ExportIndex.Proofs.Declaration.Printing
import ExportIndex.Proofs.Declaration.Pieces
import ExportIndex.Proofs.Declaration.Delimiters
import ExportIndex.Proofs.Declaration.Phases
import ExportIndex.Proofs.Source.Concatenation
import ExportIndex.Proofs.Source.Markers
import ExportIndex.Proofs.Index.Building
import ExportIndex.Proofs.Index.LastDeclaration
import ExportIndex.Proofs.Index.Overwrites
import ExportIndex.Proofs.Json.Reader
import ExportIndex.Proofs.Json.Printing
import ExportIndex.Proofs.Report.Document
import ExportIndex.Proofs.FileTree.Below
import ExportIndex.Proofs.FileTree.Resolution
import ExportIndex.Proofs.Glob.Matching
import ExportIndex.Proofs.Glob.Reading
import ExportIndex.Proofs.Glob.Finding
import ExportIndex.Proofs.Glob.Sights
import ExportIndex.Proofs.Discovery.Sources
import ExportIndex.Proofs.Discovery.Canonical
import ExportIndex.Proofs.FileTree.Writing
import ExportIndex.Proofs.Log.Records
import ExportIndex.Proofs.CommandLine.Delivery
import ExportIndex.Proofs.CType.Peeling
import ExportIndex.Proofs.CType.Conservation
import ExportIndex.Proofs.CType.Ambiguity
import ExportIndex.Proofs.Segment.Marks
import ExportIndex.Proofs.Declaration.Marks
import ExportIndex.Proofs.Declaration.Flaws
import ExportIndex.Proofs.Source.Failures
import ExportIndex.Proofs.Comment.Closing
import ExportIndex.Proofs.Comment.Words
import ExportIndex.Proofs.Report.Summary
import ExportIndex.Proofs.Segment.Origins
import ExportIndex.Proofs.Declaration.Words
import ExportIndex.Proofs.Reader.History
import ExportIndex.Proofs.Comment.Calls
import ExportIndex.Proofs.Declaration.Calls
