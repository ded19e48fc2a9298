import WordVectors.Bytes.Lemmas
import WordVectors.Main
import WordVectors.Proofs.Binary.BoundedWindows
import WordVectors.Proofs.Binary.Grammar
import WordVectors.Proofs.Binary.NormalForm
import WordVectors.Proofs.Binary.Reporting
import WordVectors.Proofs.Binary.Segments
import WordVectors.Proofs.Cli.Failures
import WordVectors.Proofs.Compact.RoundTrip
import WordVectors.Proofs.Loading
import WordVectors.Proofs.Number.Widening
import WordVectors.Proofs.Payload.RoundTrip
import WordVectors.Proofs.Search.Backends
import WordVectors.Proofs.Segmentation
import WordVectors.Proofs.Store.Addressing
import WordVectors.Proofs.TextModel.Conversion
import WordVectors.Proofs.TextModel.Grammar
import WordVectors.Proofs.TextModel.Words
import WordVectors.Proofs.Window.Runs
import WordVectors.Store.Import
import WordVectors.Proofs.Truncation
import WordVectors.Proofs.Binary.Recoveries
import WordVectors.Search.Numerics
import WordVectors.Proofs.Search.Direct
import WordVectors.Proofs.TextModel.LineEndings
import WordVectors.Proofs.Store.Allocation
import WordVectors.Proofs.Binary.Announcements
import WordVectors.Proofs.Configuration
import WordVectors.Proofs.Report.Calls
