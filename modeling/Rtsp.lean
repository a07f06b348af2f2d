import Rtsp.Lib.Resume
import Rtsp.Lib.Search
import Rtsp.Lib.Shrink
import Rtsp.Rust
import Rtsp.Syntax
import Rtsp.Str
import Rtsp.Version
import Rtsp.Method
import Rtsp.Reason
import Rtsp.Status
import Rtsp.Header.Name
import Rtsp.Header.Value
import Rtsp.Header.Map
import Rtsp.Header.Types
import Rtsp.Header.Numbers
import Rtsp.Header.RangeFormat
import Rtsp.Header.Canonical
import Rtsp.Header.Insertion
import Rtsp.Whitespace
import Rtsp.Whitespace.Bytes
import Rtsp.Header.Lists
import Rtsp.Header.Transport.Mode
import Rtsp.Header.Transport.Interleaved
import Rtsp.Header.Transport.Host
import Rtsp.Header.Transport.Address
import Rtsp.Request
import Rtsp.Response
import Rtsp.Codec.Decoder.Common
import Rtsp.Codec.Decoder.Request
import Rtsp.Codec.Decoder.Response
import Rtsp.Codec.Encoder
import Rtsp.Codec.Codec
import Rtsp.Codec.Stability
import Rtsp.Codec.Run
import Rtsp.Codec.Chunks
import Rtsp.Codec.Reading
import Rtsp.Codec.Injection
import Rtsp.Codec.RoundTrip
import Rtsp.Lib.Trans
import Rtsp.Lib.Keyed
import Rtsp.Connection.Async
import Rtsp.Connection.Forwarding
import Rtsp.Connection.Window
import Rtsp.Connection.Line
import Rtsp.Connection.Pending
import Rtsp.Connection.Receiver
import Rtsp.Connection.Actions
import Rtsp.Connection.Sound
import Rtsp.Connection.InOrder
import Rtsp.Connection.Parking
import Rtsp.Connection.Sender
import Rtsp.Connection.Shutdown
import Rtsp.Connection.Connection
import Rtsp.Connection.Running
import Rtsp.Connection.ErrorReplies
import Rtsp.Connection.Closing
import Rtsp.Connection.Handler
import Rtsp.Connection.Serving
import Rtsp.Codec.Turns.Response
import Rtsp.Codec.Stream
import Rtsp.Codec.Events
import Rtsp.Codec.Limits
import Rtsp.Codec.Dispatch
import Rtsp.Codec.Forwarded
import Rtsp.Connection.Attribution
import Rtsp.Lib.Oneshot
import Rtsp.Connection.SendRequest
import Rtsp.Connection.Exchange
import Rtsp.Connection.Ledger
import Rtsp.Connection.Removal
import Rtsp.Connection.Leaks
import Rtsp.Connection.Lifetime
import Rtsp.Connection.Replies
import Rtsp.Connection.Outcome
import Rtsp.Connection.Matching
import Rtsp.Connection.Unsent
import Rtsp.Connection.Outgoing
import Rtsp.Connection.Arithmetic
import Rtsp.Codec.ResponseLimits
import Rtsp.Codec.StatusLine
import Rtsp.Codec.Raising
import Rtsp.Connection.Continues
import Rtsp.Connection.Components
import Rtsp.Connection.Delivery
import Rtsp.Connection.Handle
import Rtsp.Connection.Calls
import Rtsp.Connection.CallOrder
import Rtsp.Connection.OneWay
import Rtsp.Lib.Reads
import Rtsp.Lib.Calendar
import Rtsp.Header.Session
import Rtsp.Header.Common.Chrono
import Rtsp.Header.Common.Date
import Rtsp.Header.Common.Gaps
import Rtsp.Header.Common.Fields
import Rtsp.Header.Common.DateTime
import Rtsp.Header.Common.Panics
import Rtsp.Header.Common.DayName
import Rtsp.Header.Date
import Rtsp.Lib.Abnf
import Rtsp.Header.Common.Grammar
import Rtsp.Header.Common.Comments
import Rtsp.Header.Common.Division
import Rtsp.Header.Common.WellFormed
import Rtsp.Uri.Request
import Rtsp.Uri.Invariant
import Rtsp.Network.EndToEnd
