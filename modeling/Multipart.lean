import Multipart.Boundary
import Multipart.Config.Basic
import Multipart.Config.Store
import Multipart.Decimal.Basic
import Multipart.Decimal.Binary
import Multipart.Decimal.Layout
import Multipart.Decimal.Shortest
import Multipart.Error
import Multipart.Files.Path
import Multipart.Files.System
import Multipart.Files.SystemError
import Multipart.Form.Basic
import Multipart.Form.Json
import Multipart.Form.Scalar
import Multipart.Header.Block
import Multipart.Header.ContentType
import Multipart.Header.List
import Multipart.Header.Parameter
import Multipart.Media.Guess
import Multipart.Media.Table
import Multipart.Message.Basic
import Multipart.Message.Builder
import Multipart.Message.Producer
import Multipart.Message.Progress
import Multipart.Message.Whole
import Multipart.Octet
import Multipart.Part.Basic
import Multipart.Part.File
import Multipart.Part.Rendering
import Multipart.Part.Scalar
import Multipart.Part.Upload
import Multipart.Production
import Multipart.Proofs.Config.Stored
import Multipart.Proofs.Decimal.Integer
import Multipart.Proofs.Decimal.Layout
import Multipart.Proofs.Decimal.Nearest
import Multipart.Proofs.Decimal.Rounding
import Multipart.Proofs.Decimal.Shortest
import Multipart.Proofs.Decoding.HeaderLines
import Multipart.Proofs.Decoding.RoundTrip
import Multipart.Proofs.Decoding.Splitter
import Multipart.Proofs.Files.FileName
import Multipart.Proofs.Files.Growth
import Multipart.Proofs.Form.Json
import Multipart.Proofs.Form.Numbers
import Multipart.Proofs.Header.BoundaryGrammar
import Multipart.Proofs.Header.ContentType
import Multipart.Proofs.Header.Disposition
import Multipart.Proofs.Header.Escaping
import Multipart.Proofs.Header.Names
import Multipart.Proofs.MadeOnce
import Multipart.Proofs.Message.Advance
import Multipart.Proofs.Message.Alone
import Multipart.Proofs.Message.Answers
import Multipart.Proofs.Message.Built
import Multipart.Proofs.Message.Conservation
import Multipart.Proofs.Message.Layout
import Multipart.Proofs.Message.Length
import Multipart.Proofs.Message.Measuring
import Multipart.Proofs.Message.Places
import Multipart.Proofs.Message.Polling
import Multipart.Proofs.Message.Restart
import Multipart.Proofs.Message.Settings
import Multipart.Proofs.Message.Settled
import Multipart.Proofs.Message.Steps
import Multipart.Proofs.Message.Twins
import Multipart.Proofs.Message.Waits
import Multipart.Proofs.Message.Wire
import Multipart.Proofs.Part.Advance
import Multipart.Proofs.Part.Alike
import Multipart.Proofs.Part.Alone
import Multipart.Proofs.Part.Awaited
import Multipart.Proofs.Part.Chunks
import Multipart.Proofs.Part.Conservation
import Multipart.Proofs.Part.Content
import Multipart.Proofs.Part.KeptBody
import Multipart.Proofs.Part.Lineage
import Multipart.Proofs.Part.Measure
import Multipart.Proofs.Part.Rendering
import Multipart.Proofs.Part.Runs
import Multipart.Proofs.Part.TextMode
import Multipart.Proofs.Part.Upload
import Multipart.Proofs.Requests
import Multipart.Proofs.Size
import Multipart.Proofs.Source.Filling
import Multipart.Proofs.Source.Pieces
import Multipart.Proofs.Source.Reading
import Multipart.Proofs.Source.Unread
import Multipart.Proofs.Success
import Multipart.Proofs.Text.Lossy
import Multipart.Proofs.Text.Utf8
import Multipart.Proofs.Toml.Entries
import Multipart.Proofs.Toml.Strings
import Multipart.Size
import Multipart.Source.Basic
import Multipart.Source.Extent
import Multipart.Source.Reader
import Multipart.Source.Script
import Multipart.Source.Stream
import Multipart.Text.Folding
import Multipart.Text.Printable
import Multipart.Text.Quoted
import Multipart.Text.Utf8
import Multipart.Toml.Blank
import Multipart.Toml.Document
import Multipart.Toml.Number
import Multipart.Toml.Text
import Multipart.Toml.Value
import Multipart.Toml.Writer
import Multipart.Trace
