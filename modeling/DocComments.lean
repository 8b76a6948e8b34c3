import DocComments.Text.WhiteSpace
import DocComments.Text.Pieces
import DocComments.Text.Bytes
import DocComments.Text.Word
import DocComments.Text.CaseFolding
import DocComments.Pattern.Reader
import DocComments.Datum.JsonReader
import DocComments.Datum.JsonWriter
import DocComments.Datum.TomlReader
import DocComments.TagType.Data
import DocComments.TagType.Builtin
import DocComments.Diagnostic
import DocComments.Block.Scanner
import DocComments.Block.Segment
import DocComments.TagValue.ElementName
import DocComments.TagValue.Property
import DocComments.Element.History
import DocComments.Element.List
import DocComments.Block.Classification
import DocComments.Command.Run
import DocComments.Main
import DocComments.Proofs.Entries
import DocComments.Proofs.Segments
import DocComments.Proofs.TreeMerge
import DocComments.Proofs.TreeWalk
import DocComments.Proofs.ParentChain
import DocComments.Proofs.TableCheck
import DocComments.Proofs.TableLookup
import DocComments.Proofs.DeclaredNames
import DocComments.Proofs.Bytes
import DocComments.Proofs.Scanning
import DocComments.Proofs.Parsing
import DocComments.Proofs.Gathering
import DocComments.Proofs.BlockLines
import DocComments.Proofs.Declarations
import DocComments.Proofs.CanonicalTypes
import DocComments.Proofs.ElementPaths
import DocComments.Proofs.Refusals
import DocComments.Proofs.ReportedLines
import DocComments.Proofs.MarkedWords
import DocComments.Proofs.TextOrigins
import DocComments.Proofs.TagPlaces
import DocComments.Proofs.AlikeSources
import DocComments.Proofs.LineEnds
import DocComments.Proofs.Delimiters
import DocComments.Proofs.Indentation
import DocComments.Proofs.ElementLists
import DocComments.Proofs.SourceOrder
import DocComments.Proofs.AttributeShapes
import DocComments.Proofs.BlockExtents
import DocComments.Proofs.MatchOrder
import DocComments.Proofs.RefusalLabels
import DocComments.Proofs.StoredFiles
import DocComments.Proofs.Runs
import DocComments.Proofs.ListedFiles
import DocComments.Proofs.FirstOffence
import DocComments.Proofs.BlockAttributes
import DocComments.Proofs.ShadowedTags
import DocComments.Proofs.CommentEnds
import DocComments.Proofs.IgnoredTags
import DocComments.Proofs.NestedBraces
import DocComments.Proofs.ValueParts
import DocComments.Proofs.ValueGrammars
import DocComments.Proofs.WrittenValues
import DocComments.Proofs.FirstTokens
import DocComments.Proofs.RemainingReferences
import DocComments.Proofs.TagWords
import DocComments.Proofs.ByteOrder
import DocComments.Proofs.VisitedFiles
import DocComments.Proofs.FileDiscovery
import DocComments.Proofs.QuotedTitles
import DocComments.Proofs.TypeLists
