import RelayDescriptor.Main
import RelayDescriptor.Proofs.Ranges.LinePositions
import RelayDescriptor.Proofs.Ranges.ByteLines
import RelayDescriptor.Proofs.Ranges.AnnotationBlock
import RelayDescriptor.Proofs.Ranges.Rounds
import RelayDescriptor.Proofs.Ranges.Placement
import RelayDescriptor.Proofs.Ranges.Concatenation
import RelayDescriptor.Proofs.Ranges.Plain
import RelayDescriptor.Proofs.Text.Encoding
import RelayDescriptor.Proofs.Line.Keywords
import RelayDescriptor.Proofs.Line.Blocks
import RelayDescriptor.Proofs.Reading.Runs
import RelayDescriptor.Proofs.Reading.Utf8Runs
import RelayDescriptor.Proofs.Reading.Steps
import RelayDescriptor.Proofs.Reading.Overlong
import RelayDescriptor.Proofs.Reading.Decoders
import RelayDescriptor.Proofs.Reading.Collection
import RelayDescriptor.Proofs.Reading.Parsing
import RelayDescriptor.Proofs.Reading.Certificate
import RelayDescriptor.Proofs.Reading.Coverage
import RelayDescriptor.Proofs.Reading.Modes
import RelayDescriptor.Proofs.Reading.OwnLines
import RelayDescriptor.Proofs.Reading.Openings
import RelayDescriptor.Proofs.Reading.Locality
import RelayDescriptor.Proofs.Reading.Content
import RelayDescriptor.Proofs.Reading.Blocks
import RelayDescriptor.Proofs.Reading.Detected
import RelayDescriptor.Proofs.Keyword.Occurrences
import RelayDescriptor.Proofs.Record.Writes
import RelayDescriptor.Proofs.Record.Accepted
import RelayDescriptor.Proofs.Field.Readers
import RelayDescriptor.Proofs.Record.Shapes
import RelayDescriptor.Proofs.Record.Declarations
import RelayDescriptor.Proofs.Record.Lists
import RelayDescriptor.Proofs.Record.Once
import RelayDescriptor.Proofs.Record.Invariants
import RelayDescriptor.Proofs.Calendar.Succession
import RelayDescriptor.Proofs.Field.Timestamps
import RelayDescriptor.Proofs.OrderedMap
import RelayDescriptor.Proofs.Text.Separated
import RelayDescriptor.Proofs.Field.Histories
import RelayDescriptor.Proofs.Text.Sorted
import RelayDescriptor.Proofs.Keyword.Verdict
import RelayDescriptor.Proofs.Text.AsciiBytes
import RelayDescriptor.Proofs.Reading.LineOffsets
import RelayDescriptor.Proofs.Reading.LeadingLine
import RelayDescriptor.Proofs.Record.Digests
import RelayDescriptor.Proofs.Field.Sections
import RelayDescriptor.Proofs.Record.Authorities
import RelayDescriptor.Proofs.Field.KeyCounts
import RelayDescriptor.Proofs.Reading.LineEnds
import RelayDescriptor.Proofs.Record.Agreement
import RelayDescriptor.Proofs.Record.Rearrangement
import RelayDescriptor.Proofs.Prevailing
import RelayDescriptor.Proofs.Keyword.Dependencies
import RelayDescriptor.Proofs.Record.SignedPart
import RelayDescriptor.Proofs.Field.StatusEntries
import RelayDescriptor.Proofs.Settings.Layers
import RelayDescriptor.Proofs.Settings.Building
import RelayDescriptor.Proofs.Command.Loading
import RelayDescriptor.Proofs.Json.Notation
import RelayDescriptor.Proofs.Json.Numbers
import RelayDescriptor.Proofs.Json.Rendering
import RelayDescriptor.Proofs.Record.Reals
import RelayDescriptor.Proofs.Command.Results
import RelayDescriptor.Proofs.Command.JsonReport
import RelayDescriptor.Proofs.Tools.CommandLines
import RelayDescriptor.Proofs.Command.Reported
import RelayDescriptor.Proofs.Line.Fields
import RelayDescriptor.Proofs.Number.Underflow
import RelayDescriptor.Proofs.Number.Decimals
import RelayDescriptor.Proofs.Field.Shares
import RelayDescriptor.Proofs.Ranges.Climbing
