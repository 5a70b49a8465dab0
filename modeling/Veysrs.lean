import Veysrs.Http2.FrameCodec
import Veysrs.Http2.Slots
import Veysrs.Http2.Ledger
import Veysrs.Http2.Grammar
import Veysrs.Http2.Delivery
import Veysrs.Http2.Credit
import Veysrs.Http2.HpackTable
import Veysrs.Http2.Huffman
import Veysrs.Http2.HpackRoundTrip
import Veysrs.Http2.Refusal
import Veysrs.Http2.Fragments
import Veysrs.Http2.Closing
import Veysrs.Proxy.Hysteresis
import Veysrs.FastCgi.Codec
import Veysrs.Proxy.Fidelity
import Veysrs.Proxy.GzipHead
import Veysrs.Server.Parity
import Veysrs.Server.ServeStream
import Veysrs.Config.Quoting
import Veysrs.Config.RuleLines
import Veysrs.Proxy.Pool
import Veysrs.Proxy.WebSocket
import Veysrs.Config.ReloadRace
import Veysrs.Server.Reload
import Veysrs.Router.Dates
import Veysrs.Router.Negotiation
import Veysrs.Router.Access
import Veysrs.Router.AccessLog
import Veysrs.Server.ThreadPool
