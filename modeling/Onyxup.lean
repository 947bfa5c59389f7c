import Onyxup.Lib.Incremental
import Onyxup.Lib.Grammar
import Onyxup.Lib.Memory
import Onyxup.Lib.CString
import Onyxup.Lib.Search
import Onyxup.Lib.Pieces
import Onyxup.Lib.Transition
import Onyxup.Lib.Progress
import Onyxup.Lib.Simulation
import Onyxup.Lib.Monitor
import Onyxup.Lib.WakeUps
import Onyxup.Lib.Custody
import Onyxup.Lib.Fallible
import Onyxup.Lib.Logged
import Onyxup.Lib.LexicalPath
import Onyxup.Lib.MimeMultipart
import Onyxup.Lib.Rotation
import Onyxup.Lib.Occupancy
import Onyxup.Lib.Admission
import Onyxup.Lib.Documents
import Onyxup.Lib.Transducer
import Onyxup.Lib.Supply
import Onyxup.Queue.ThreadSafeQueue
import Onyxup.Http.Parser
import Onyxup.Http.Grammar
import Onyxup.Http.ResponseParser
import Onyxup.Http.FastPath
import Onyxup.Http.Rendering
import Onyxup.Http.Request
import Onyxup.Http.Query
import Onyxup.Http.Multipart
import Onyxup.Http.MultipartSlices
import Onyxup.Http.MultipartLoop
import Onyxup.Http.MultipartEncoding
import Onyxup.Http.MultipartRoundTrip
import Onyxup.Http.Chunked
import Onyxup.Http.ChunkedGrammar
import Onyxup.Response.Base
import Onyxup.Response.Ranges
import Onyxup.Response.Chain
import Onyxup.Response.Framing
import Onyxup.Response.Gzip
import Onyxup.Response.Handler
import Onyxup.Response.Serialise
import Onyxup.Response.ParseBack
import Onyxup.Response.RangeForms
import Onyxup.Response.RangeReads
import Onyxup.Response.RangeGrammar
import Onyxup.Response.RangeWords
import Onyxup.Response.RangeServing
import Onyxup.Response.Selection
import Onyxup.Response.ByteRanges
import Onyxup.Server.Buffer
import Onyxup.Server.Connection
import Onyxup.Server.Segmentation
import Onyxup.Server.ClientRequest
import Onyxup.Server.Loop
import Onyxup.Server.Protocol
import Onyxup.Server.Step
import Onyxup.Server.Delivery
import Onyxup.Server.Responses
import Onyxup.Server.Isolation
import Onyxup.Server.Slots
import Onyxup.Server.Ledger
import Onyxup.Server.Ownership
import Onyxup.Server.Pipelining
import Onyxup.Server.Routing
import Onyxup.Server.Accounting
import Onyxup.Server.QueueLimit
import Onyxup.Server.Wire
import Onyxup.Server.Order
import Onyxup.Server.Turn
import Onyxup.Server.Attendance
import Onyxup.Server.Provenance
import Onyxup.Server.Statistics
import Onyxup.Server.ScanCoverage
import Onyxup.Server.Expiry
import Onyxup.Server.CompressSetting
import Onyxup.Server.InputBounds
import Onyxup.Server.Configuration
import Onyxup.Static.Resources
import Onyxup.Static.Naming
