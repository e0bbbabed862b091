import TraceContainer.Binary
import TraceContainer.Detail
import TraceContainer.DetailEntry
import TraceContainer.Error
import TraceContainer.Event
import TraceContainer.EventType
import TraceContainer.FileStore
import TraceContainer.Header
import TraceContainer.Json.Assembly
import TraceContainer.Json.Document
import TraceContainer.Json.Basic
import TraceContainer.Json.Integer
import TraceContainer.Json.Literal
import TraceContainer.Json.Numeral
import TraceContainer.Json.Token
import TraceContainer.LogEvent
import TraceContainer.Manifest
import TraceContainer.MappedFile
import TraceContainer.Numeric.Binary64
import TraceContainer.Numeric.Shortest
import TraceContainer.Reader
import TraceContainer.Scan
import TraceContainer.Session.Basic
import TraceContainer.Session.MappedFile
import TraceContainer.Session.Reader
import TraceContainer.Text.Quoted
import TraceContainer.TimeRange
import TraceContainer.TraceFile
import TraceContainer.Proofs.Bytes
import TraceContainer.Proofs.Layout
import TraceContainer.Proofs.Opening
import TraceContainer.Proofs.Records
import TraceContainer.Proofs.Scanning
import TraceContainer.Proofs.FilteredScans
import TraceContainer.Proofs.Numeric.Rounding
import TraceContainer.Proofs.Numeric.RoundingError
import TraceContainer.Proofs.Numeric.Decimal
import TraceContainer.Proofs.Numeric.Shortest
import TraceContainer.Proofs.Json.Literal
import TraceContainer.Proofs.Json.Members
import TraceContainer.Proofs.Json.Numeral
import TraceContainer.Proofs.Json.Real
import TraceContainer.Proofs.Json.Scaling
import TraceContainer.Proofs.Json.Reread
import TraceContainer.Proofs.Json.Token
import TraceContainer.Proofs.Json.Parts
import TraceContainer.Proofs.Json.Assembly
import TraceContainer.Proofs.Json.Document
import TraceContainer.Proofs.Json.Integer
import TraceContainer.Proofs.ManifestText
import TraceContainer.Proofs.DetailText
import TraceContainer.Proofs.Container
import TraceContainer.Proofs.KeptMetadata
import TraceContainer.Proofs.Sessions
import TraceContainer.Proofs.OpenReaders
import TraceContainer.Proofs.Lifecycle
import TraceContainer.Proofs.CurrentOpening
import TraceContainer.Proofs.Snapshots
import TraceContainer.Proofs.Truncation
import TraceContainer.Proofs.Sections
import TraceContainer.Proofs.MappingEvents
import TraceContainer.Proofs.SizeHints
import TraceContainer.Proofs.Trapping.Bytes
import TraceContainer.Proofs.Trapping.Reader
import TraceContainer.Proofs.Json.Denoted
import TraceContainer.Proofs.DetailGrammar
import TraceContainer.Proofs.ManifestGrammar
import TraceContainer.Proofs.UncheckedScans
import TraceContainer.Proofs.MergedMetadata
import TraceContainer.Proofs.Estimates
import TraceContainer.Proofs.Reencoding
import TraceContainer.Proofs.Json.Numbers
import TraceContainer.Proofs.Codecs
import TraceContainer.Proofs.CurrentMapping
import TraceContainer.Proofs.FusedScans
