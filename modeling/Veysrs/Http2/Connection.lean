import Veysrs.Core.AssocMap
import Veysrs.Proxy.Route
import Veysrs.Http2.Body
import Veysrs.Http2.Hpack
import Veysrs.Http2.Request

/-!
# The HTTP/2 connection

`Http2Connection` of `server/http2/connection.rs` with its three entry points `process_frame`,
`poll_pending_headers` and `schedule_pending_responses`, as programs over the connection, the log
of what went over the wire and the failures still to come (`H2M`).  A program that fails keeps the
state it had reached, as the source does.

What the connection cannot decide itself is in `Env`: which writes fail, what the upstreams and
the request handler answer, and how much a read delivers.  Left out of the connection are the
HPACK encoder, which has no state that matters, and the read buffer of `handle_connection`.
-/

namespace Veysrs

open Core

/-! ## Frames the server writes -/

def rstFrame (streamId : ℕ) (errorCode : Http2ErrorCode) : Frame :=
  { header := { length := 4, frameType := .rstStream, flags := 0, streamId }
    payload := .rstStream errorCode }

def settingsAckFrame : Frame :=
  { header := { length := 0, frameType := .settings, flags := Flags.ack, streamId := 0 }
    payload := .settings [] true }

def pingAckFrame (opaqueData : Vector UInt8 8) : Frame :=
  { header := { length := 8, frameType := .ping, flags := Flags.ack, streamId := 0 }
    payload := .ping opaqueData true }

def windowUpdateFrame (streamId windowSizeIncrement : ℕ) : Frame :=
  { header := { length := 4, frameType := .windowUpdate, flags := 0, streamId }
    payload := .windowUpdate windowSizeIncrement }

def dataFrame (streamId : ℕ) (data : Bytes) (endStream : Bool) : Frame :=
  { header :=
      { length := data.length
        frameType := .data
        flags := if endStream then Flags.endStream else 0
        streamId }
    payload := .data data endStream }

def goAwayFrame (lastStreamId : ℕ) (errorCode : Http2ErrorCode) : Frame :=
  { header := { length := 8, frameType := .goAway, flags := 0, streamId := 0 }
    payload := .goAway lastStreamId errorCode [] }

/-- The HEADERS frame with the first fragment of a header block. -/
def firstHeaderFrame (streamId max : ℕ) (block : Bytes) (endStream : Bool) : Frame :=
  let first := min block.length max
  { header :=
      { length := first
        frameType := .headers
        flags := (if first = block.length then Flags.endHeaders else 0) |||
          (if endStream then Flags.endStream else 0)
        streamId }
    payload := .headers (block.take first) endStream (first = block.length) }

/-- The CONTINUATION frames of the `while offset < encoded_headers.len()` loop; the fuel is the
length of what is left. -/
def continuationFrames (streamId max : ℕ) : ℕ → Bytes → List Frame
  | 0, _ => []
  | _ + 1, [] => []
  | fuel + 1, b :: bs =>
    let rest := b :: bs
    let fragment := min max rest.length
    { header :=
        { length := fragment
          frameType := .continuation
          flags := if fragment = rest.length then Flags.endHeaders else 0
          streamId }
      payload := .continuation (rest.take fragment) (fragment = rest.length) } ::
      continuationFrames streamId max fuel (rest.drop fragment)

/-- A response head as the frames that carry it. -/
def headerFrames (streamId max : ℕ) (block : Bytes) (endStream : Bool) : List Frame :=
  firstHeaderFrame streamId max block endStream ::
    continuationFrames streamId max block.length (block.drop (min block.length max))

/-! ## The connection -/

structure PendingResponse where
  streamId : ℕ
  body : PendingBody
  deriving DecidableEq, Repr

inductive PendingHeaderSource where
  | proxy
  | fastCgi
  deriving DecidableEq, Repr

structure PendingHeaderResponse where
  streamId : ℕ
  source : PendingHeaderSource
  compress : Bool
  compressionLevel : ℕ
  deriving DecidableEq, Repr

structure Http2Connection where
  config : ServerConfig
  secure : Bool
  hpackDecoder : HpackDecoder
  flowControl : FlowControl
  maxFrameSize : ℕ
  peerMaxFrameSize : ℕ
  peerConnectionWindow : Window
  peerInitialStreamWindowSize : ℕ
  sendStreamWindows : AssocMap ℕ Window
  maxConcurrentStreams : ℕ
  activeStreams : AssocMap ℕ Stream
  lastStreamId : ℕ
  pendingHeadersStreamId : Option ℕ
  pendingHeaderBlock : Bytes
  pendingResponses : List PendingResponse
  pendingHeaderResponses : List PendingHeaderResponse
  closedStreams : List ℕ

namespace Http2Connection

def new (config : ServerConfig) (secure : Bool) : Http2Connection :=
  { config
    secure
    hpackDecoder := HpackDecoder.new 4096 config.http2MaxHeaderBlockSize
    flowControl := FlowControl.new config.http2InitialWindowSize
    maxFrameSize := config.http2MaxFrameSize
    peerMaxFrameSize := defaultMaxFrameSize
    peerConnectionWindow := Window.new 65535
    peerInitialStreamWindowSize := 65535
    sendStreamWindows := ∅
    maxConcurrentStreams := config.http2MaxConcurrentStreams
    activeStreams := ∅
    lastStreamId := 0
    pendingHeadersStreamId := none
    pendingHeaderBlock := []
    pendingResponses := []
    pendingHeaderResponses := []
    closedStreams := [] }

def serverSettingsFrame (c : Http2Connection) : Frame :=
  { header := { length := 18, frameType := .settings, flags := 0, streamId := 0 }
    payload := .settings
      [(.maxConcurrentStreams, c.maxConcurrentStreams),
        (.initialWindowSize, c.flowControl.initialStreamWindowSize),
        (.maxFrameSize, c.maxFrameSize)]
      false }

def trackedStreamCount (c : Http2Connection) : ℕ := c.sendStreamWindows.keys.length

def canAcceptNewStream (c : Http2Connection) : Bool :=
  c.trackedStreamCount < c.maxConcurrentStreams

/-- How many closed streams are remembered. -/
def closedLimit (c : Http2Connection) : ℕ := max (min (c.maxConcurrentStreams * 2) (2 ^ 64 - 1)) 16

def markClosedStream (c : Http2Connection) (streamId : ℕ) : Http2Connection :=
  if streamId ∈ c.closedStreams then c
  else
    let closed := c.closedStreams ++ [streamId]
    { c with closedStreams := closed.drop (closed.length - c.closedLimit) }

/-- `send_stream_windows.remove` and `mark_closed_stream`: the stream gives its slot back. -/
def release (c : Http2Connection) (streamId : ℕ) : Http2Connection :=
  ({ c with sendStreamWindows := c.sendStreamWindows.erase streamId } :
    Http2Connection).markClosedStream streamId

/-- `pending_responses.push_back`. -/
def enqueue (c : Http2Connection) (streamId : ℕ) (body : PendingBody) : Http2Connection :=
  { c with pendingResponses := c.pendingResponses ++ [{ streamId, body }] }

end Http2Connection

/-! ## The outside -/

/-- One thing that happened on the wire or at a body's source. -/
inductive Event where
  | received (frame : Frame)
  | wrote (frame : Frame)
  | bodyRead (streamId : ℕ) (outcome : ReadOutcome)
  deriving DecidableEq, Repr

/-- The answer of `begin_h2_response`: `Ok(Some)`, `Ok(None)` or `Err`. -/
inductive BeginResult where
  | started | declined | failed
  deriving DecidableEq, Repr

/-- The answer of a pending upstream: its response with the bytes its reader will deliver. -/
inductive PollResult where
  | notReady
  | ready (response : HttpResponse) (reader : Option Bytes) (remaining : Option ℕ)
  | failed

/-- What the outside does during one call. -/
structure Env where
  /-- The writes and flushes to come that fail; past the end they succeed. -/
  faults : List Bool
  effectiveConfig : HttpRequest → ServerConfig
  beginProxy : HttpRequest → ServerConfig → BeginResult
  fastcgiMatches : HttpRequest → ServerConfig → Bool
  beginFastcgi : HttpRequest → ServerConfig → BeginResult
  handleRequest : HttpRequest → HttpResponse
  poll : ℕ → PollResult
  readChoice : ℕ → ReadChoice
  cloneOk : ℕ → Bool
  seekOk : ℕ → Bool
  gzip : Bytes → ℕ → Bytes
  qPositive : Str → Option Bool

structure ConnState where
  conn : Http2Connection
  trace : List Event
  faults : List Bool

abbrev H2M := EStateM Http2ErrorCode ConnState

namespace ConnState

def log (s : ConnState) (e : Event) : ConnState := { s with trace := s.trace ++ [e] }

end ConnState

def getConn : H2M Http2Connection := do return (← get).conn

def modifyConn (f : Http2Connection → Http2Connection) : H2M Unit :=
  modify fun s => { s with conn := f s.conn }

def logEvent (e : Event) : H2M Unit := modify fun s => s.log e

/-- Whether the next write or flush fails. -/
def nextFault : H2M Bool := do
  let s ← get
  set { s with faults := s.faults.tail }
  return s.faults.headD false

/-- `write_all`, telling whether it succeeded. -/
def tryWrite (frame : Frame) : H2M Bool := do
  if ← nextFault then
    return false
  else
    logEvent (.wrote frame)
    return true

/-- `stream.write_all(..).map_err(|_| Http2ErrorCode::InternalError)?`. -/
def writeAll (frame : Frame) : H2M Unit := do
  let written ← tryWrite frame
  failIf (written = false) .internalError

def writeFrames : List Frame → H2M Unit
  | [] => pure ()
  | frame :: rest => do
      writeAll frame
      writeFrames rest

def flush : H2M Unit := do
  let fault ← nextFault
  failIf (fault = true) .internalError

/-- `let _ = stream.write_all(..); let _ = stream.flush();`. -/
def writeIgnoringErrors (frame : Frame) : H2M Unit := do
  let _ ← tryWrite frame
  let _ ← nextFault
  pure ()

/-! ## Responses -/

def bodySourceNonempty : BodySource → Bool
  | .bytes data => !data.isEmpty
  | .file _ size => size > 0
  | .fileRange _ _ length => length > 0
  | .gzipFile _ size _ => size > 0

/-- The body a response's own source becomes; cloning and seeking the file may fail. -/
def pendingBodyOf (env : Env) (streamId : ℕ) : BodySource → Except Http2ErrorCode PendingBody
  | .bytes data => .ok (.bytes data 0 (Nat.zero_le _))
  | .file content size =>
    if env.cloneOk streamId then .ok (.file content size) else .error .internalError
  | .fileRange content start length =>
    if env.cloneOk streamId && env.seekOk streamId then .ok (.file (content.drop start) length)
    else .error .internalError
  | .gzipFile content _ level =>
    if env.cloneOk streamId then .ok (.reader (env.gzip content level) none)
    else .error .internalError

def responseHeaderBlock (resp : HttpResponse) : Bytes :=
  encodeHeaders ((":status".toList, decimal resp.status.code) :: resp.headers)

/-- The body to send: the upstream's, or the response's own. -/
def chooseBody (env : Env) (streamId : ℕ) (resp : HttpResponse) (dynamicBody : Option PendingBody) :
    Except Http2ErrorCode PendingBody :=
  match dynamicBody with
  | some body => .ok body
  | none => pendingBodyOf env streamId resp.bodySource

/-- After the head: the body is queued, or the stream is over and gives its slot back. -/
def placeBody (env : Env) (streamId : ℕ) (resp : HttpResponse) (dynamicBody : Option PendingBody)
    (hasBody : Bool) : H2M Unit :=
  if hasBody then do
    let body ← MonadExcept.ofExcept (chooseBody env streamId resp dynamicBody)
    modifyConn fun c => c.enqueue streamId body
  else modifyConn fun c => c.release streamId

/-- `queue_h2_stream_response`. -/
def queueH2StreamResponse (env : Env) (streamId : ℕ) (resp : HttpResponse)
    (dynamicBody : Option PendingBody) : H2M Unit := do
  let hasBody := dynamicBody.isSome || bodySourceNonempty resp.bodySource
  let c ← getConn
  writeFrames (headerFrames streamId c.peerMaxFrameSize (responseHeaderBlock resp) (!hasBody))
  placeBody env streamId resp dynamicBody hasBody
  flush

def queueH2Response (env : Env) (streamId : ℕ) (resp : HttpResponse) : H2M Unit :=
  queueH2StreamResponse env streamId resp none

def badGateway (message : String) : HttpResponse :=
  (HttpResponse.new .badGateway).withBody (utf8 message.toList) "text/plain; charset=utf-8"

/-- The response waits for an upstream's headers. -/
def park (streamId : ℕ) (source : PendingHeaderSource) (compress : Bool) (compressionLevel : ℕ) :
    H2M Unit :=
  modifyConn fun c => { c with
    pendingHeaderResponses := c.pendingHeaderResponses ++
      [{ streamId, source, compress, compressionLevel }] }

/-- The last resort of `dispatch_h2_request`: the static request handler. -/
def dispatchStatic (env : Env) (streamId : ℕ) (req : HttpRequest) : H2M Unit :=
  queueH2Response env streamId (env.handleRequest req)

/-- The FastCGI part of `dispatch_h2_request`, with what follows it. -/
def dispatchFastcgi (env : Env) (streamId : ℕ) (req : HttpRequest) (compress : Bool) : H2M Unit :=
  let config := env.effectiveConfig req
  if env.fastcgiMatches req config then
    match env.beginFastcgi req config with
    | .started => park streamId .fastCgi compress config.compressionLevel
    | .failed =>
      queueH2Response env streamId (badGateway "502 Bad Gateway: FastCGI upstream failure")
    | .declined => dispatchStatic env streamId req
  else dispatchStatic env streamId req

/-- `dispatch_h2_request`. -/
def dispatchH2Request (env : Env) (st : Stream) : H2M Unit := do
  let req ← MonadExcept.ofExcept (acceptRequest st)
  let config := env.effectiveConfig req
  let compress := acceptsGzip env.qPositive (req.getHeader "Accept-Encoding")
  if Proxy.routeMatchesRequest req config then
    match env.beginProxy req config with
    | .started => park st.id .proxy compress config.compressionLevel
    | .failed => queueH2Response env st.id (badGateway "502 Bad Gateway: proxy upstream failure")
    | .declined => dispatchFastcgi env st.id req compress
  else dispatchFastcgi env st.id req compress

/-! ## Received frames -/

/-- Run the HPACK decoder, which keeps its changes when it fails. -/
def decodeHeaderBlock (block : Bytes) : H2M Headers := do
  let c ← getConn
  match (HpackDecoder.decodeHeaderBlock block).run c.hpackDecoder with
  | .ok headers decoder => do
      modifyConn fun c => { c with hpackDecoder := decoder }
      return headers
  | .error e decoder => do
      modifyConn fun c => { c with hpackDecoder := decoder }
      throw e

/-- One setting of the peer.  Its windows are adjusted all or none: where an adjustment fails the
connection ends. -/
def applySetting (setting : SettingId × ℕ) : H2M Unit :=
  let (id, val) := setting
  match id with
  | .maxFrameSize => do
      failIf (val < 16384 ∨ val > 16777215) .frameSizeError
      modifyConn fun c => { c with peerMaxFrameSize := val }
  | .initialWindowSize => do
      failIf (val > 2147483647) .flowControlError
      let c ← getConn
      let delta : ℤ := val - c.peerInitialStreamWindowSize
      let active ← MonadExcept.ofExcept (mapValuesM (fun st : Stream =>
        (st.sendWindow.adjust delta).map fun w => { st with sendWindow := w }) c.activeStreams)
      let windows ← MonadExcept.ofExcept (mapValuesM (Window.adjust · delta) c.sendStreamWindows)
      modifyConn fun c => { c with
        activeStreams := active
        sendStreamWindows := windows
        peerInitialStreamWindowSize := val }
  | _ => pure ()

def applySettings : List (SettingId × ℕ) → H2M Unit
  | [] => pure ()
  | setting :: rest => do
      applySetting setting
      applySettings rest

def processSettings (settings : List (SettingId × ℕ)) (ack : Bool) : H2M Unit :=
  if ack then pure ()
  else do
    applySettings settings
    writeIgnoringErrors settingsAckFrame

def processPing (opaqueData : Vector UInt8 8) (ack : Bool) : H2M Unit :=
  if ack then pure () else writeIgnoringErrors (pingAckFrame opaqueData)

/-- The stream a new HEADERS frame opens. -/
def openStream (sid : ℕ) (endStream : Bool) : H2M Unit := do
  let c ← getConn
  let st ← MonadExcept.ofExcept (Stream.new sid c.flowControl.initialStreamWindowSize)
  let st := { st with sendWindow := Window.new c.peerInitialStreamWindowSize }
  let st ← MonadExcept.ofExcept (st.transitionTo .opened)
  modifyConn fun c => { c with
    sendStreamWindows :=
      c.sendStreamWindows.insert sid (Window.new c.peerInitialStreamWindowSize)
    activeStreams := c.activeStreams.insert sid { st with receivedEndStream := endStream } }

/-- A complete header list goes to its stream; at the end of the request it is dispatched. -/
def finishHeaders (env : Env) (sid : ℕ) (st : Stream) (headers : Headers) (endStream : Bool) :
    H2M Unit :=
  let st := st.appendRequestHeaders headers true
  if endStream then do
    let st := st.tryTransitionTo .halfClosedRemote
    modifyConn fun c => { c with activeStreams := c.activeStreams.insert sid st }
    dispatchH2Request env st
    modifyConn fun c => { c with activeStreams := c.activeStreams.erase sid }
  else
    modifyConn fun c => { c with activeStreams := c.activeStreams.insert sid st }

/-- What HEADERS does on a stream that has been accepted. -/
def acceptHeaders (env : Env) (sid : ℕ) (headerBlock : Bytes) (endStream endHeaders : Bool) :
    H2M Unit := do
  openStream sid endStream
  if endHeaders then
    let headers ← decodeHeaderBlock headerBlock
    let c ← getConn
    match c.activeStreams.lookup sid with
    | some st => finishHeaders env sid st headers endStream
    -- the stream has just been inserted: `unwrap` does not fail
    | none => pure ()
  else
    let c ← getConn
    failIf (headerBlock.length > c.config.http2MaxHeaderBlockSize) .enhanceYourCalm
    modifyConn fun c => { c with
      pendingHeadersStreamId := some sid
      pendingHeaderBlock := headerBlock }

def processHeaders (env : Env) (sid : ℕ) (headerBlock : Bytes) (endStream endHeaders : Bool) :
    H2M Unit := do
  failIf (sid = 0 ∨ Stream.isClientInitiated sid = false) .protocolError
  let c ← getConn
  failIf (sid ≤ c.lastStreamId) .protocolError
  modifyConn fun c => { c with lastStreamId := sid }
  if c.canAcceptNewStream then
    acceptHeaders env sid headerBlock endStream endHeaders
  else
    -- refused; the header block is not decoded
    writeAll (rstFrame sid .refusedStream)
    modifyConn fun c => c.markClosedStream sid

def processContinuation (env : Env) (sid : ℕ) (headerBlock : Bytes) (endHeaders : Bool) :
    H2M Unit := do
  let c ← getConn
  let pendingLen := c.pendingHeaderBlock.length + headerBlock.length
  failIf (pendingLen ≥ 2 ^ 64 ∨ pendingLen > c.config.http2MaxHeaderBlockSize) .enhanceYourCalm
  let block := c.pendingHeaderBlock ++ headerBlock
  if endHeaders then
    modifyConn fun c => { c with pendingHeaderBlock := block, pendingHeadersStreamId := none }
    let headers ← decodeHeaderBlock block
    modifyConn fun c => { c with pendingHeaderBlock := [] }
    let c ← getConn
    match c.activeStreams.lookup sid with
    | some st => finishHeaders env sid st headers st.receivedEndStream
    | none => pure ()
  else
    modifyConn fun c => { c with pendingHeaderBlock := block }

def setConnectionWindow (w : Window) : H2M Unit :=
  modifyConn fun c => { c with flowControl := { c.flowControl with connectionWindow := w } }

/-- The receive windows take the data and are replenished at once; the stream is returned with
its window. -/
def creditData (sid : ℕ) (st : Stream) (dataLen : ℕ) : H2M Stream :=
  if dataLen > 0 then do
    let c ← getConn
    failIf ((Int32.ofInt dataLen).toInt > c.flowControl.connectionWindow.toInt) .flowControlError
    failIf ((Int32.ofInt dataLen).toInt > st.window.toInt) .flowControlError
    let connWindow ← MonadExcept.ofExcept (c.flowControl.connectionWindow.consume dataLen)
    let window ← MonadExcept.ofExcept (st.window.consume dataLen)
    let connWindow ← MonadExcept.ofExcept (connWindow.update dataLen)
    setConnectionWindow connWindow
    let window ← MonadExcept.ofExcept (window.update dataLen)
    writeAll (windowUpdateFrame 0 dataLen)
    writeAll (windowUpdateFrame sid dataLen)
    return { st with window }
  else return st

def processData (env : Env) (sid : ℕ) (data : Bytes) (endStream : Bool) : H2M Unit := do
  let c ← getConn
  match c.activeStreams.lookup sid with
  | none => throw .streamClosed
  | some st => do
      modifyConn fun c => { c with activeStreams := c.activeStreams.erase sid }
      let st ← creditData sid st (data.length % 2 ^ 32)
      failIf (data.length > c.config.maxRequestSize - st.requestBody.length) .enhanceYourCalm
      let st := st.appendRequestData data endStream
      if endStream then
        dispatchH2Request env st
      else
        modifyConn fun c => { c with activeStreams := c.activeStreams.insert sid st }

/-- WINDOW_UPDATE on a stream: one still receiving, one whose response is under way, or one that
closed while the update was in flight. -/
def processStreamUpdate (sid increment : ℕ) : H2M Unit := do
  let c ← getConn
  match c.activeStreams.lookup sid, c.sendStreamWindows.lookup sid with
  | some st, window? => do
      let sendWindow ← MonadExcept.ofExcept (st.sendWindow.update increment)
      let window ← MonadExcept.ofExcept
        ((window?.getD (Window.new c.peerInitialStreamWindowSize)).update increment)
      modifyConn fun c => { c with
        activeStreams := c.activeStreams.insert sid { st with sendWindow }
        sendStreamWindows := c.sendStreamWindows.insert sid window }
  | none, some window => do
      let window ← MonadExcept.ofExcept (window.update increment)
      modifyConn fun c => { c with sendStreamWindows := c.sendStreamWindows.insert sid window }
  | none, none => failIf (sid ∉ c.closedStreams) .protocolError

def processWindowUpdate (sid increment : ℕ) : H2M Unit :=
  if sid = 0 then do
    let c ← getConn
    let window ← MonadExcept.ofExcept (c.peerConnectionWindow.update increment)
    modifyConn fun c => { c with peerConnectionWindow := window }
  else processStreamUpdate sid increment

def processRstStream (sid : ℕ) : H2M Unit :=
  modifyConn fun c => ({ c with
    activeStreams := c.activeStreams.erase sid
    sendStreamWindows := c.sendStreamWindows.erase sid
    pendingResponses := c.pendingResponses.filter (·.streamId ≠ sid)
    pendingHeaderResponses := c.pendingHeaderResponses.filter (·.streamId ≠ sid) } :
      Http2Connection).markClosedStream sid

/-- While a header block is incomplete only its CONTINUATION may come, and it may come only
then. -/
def enforceContinuation (frame : Frame) : H2M Unit := do
  let c ← getConn
  match c.pendingHeadersStreamId with
  | some expectedSid =>
    failIf (frame.header.streamId ≠ expectedSid ∨ frame.header.frameType ≠ .continuation)
      .protocolError
  | none => failIf (frame.header.frameType = .continuation) .protocolError

def processPayload (env : Env) (sid : ℕ) : FramePayload → H2M Unit
  | .settings settings ack => processSettings settings ack
  | .ping opaqueData ack => processPing opaqueData ack
  | .headers headerBlock endStream endHeaders =>
    processHeaders env sid headerBlock endStream endHeaders
  | .continuation headerBlock endHeaders => processContinuation env sid headerBlock endHeaders
  | .data data endStream => processData env sid data endStream
  | .windowUpdate increment => processWindowUpdate sid increment
  | .rstStream _ => processRstStream sid
  | .goAway _ _ _ => throw .noError
  | .priority _ _ _ | .pushPromise _ _ | .unknown _ => pure ()

/-- `process_frame`. -/
def processFrame (env : Env) (frame : Frame) : H2M Unit := do
  enforceContinuation frame
  processPayload env frame.header.streamId frame.payload

/-! ## Pending upstream headers -/

/-- The response and body a ready upstream gives; a compressed body has no declared length. -/
def upstreamResponse (env : Env) (pending : PendingHeaderResponse) (response : HttpResponse)
    (reader : Option Bytes) (remaining : Option ℕ) : HttpResponse × Option PendingBody :=
  if pending.compress && reader.isSome && dynamicResponseCompressible response then
    let headers := removeHeader (removeHeader response.headers "Content-Length") "Content-Encoding"
    let headers := ensureVary (headers ++ [("Content-Encoding".toList, "gzip".toList)])
    ({ response with headers },
      reader.map fun source => .reader (env.gzip source pending.compressionLevel) none)
  else (response, reader.map fun source => .reader source remaining)

/-- One round of `poll_pending_headers`, telling whether it progressed. -/
def pollOne (env : Env) (pending : PendingHeaderResponse) : H2M Bool :=
  match env.poll pending.streamId with
  | .notReady => do
      modifyConn fun c => { c with
        pendingHeaderResponses := c.pendingHeaderResponses ++ [pending] }
      return false
  | .ready response reader remaining => do
      let (response, body) := upstreamResponse env pending response reader remaining
      queueH2StreamResponse env pending.streamId response body
      return true
  | .failed => do
      writeAll (rstFrame pending.streamId .internalError)
      modifyConn fun c => c.release pending.streamId
      return true

def pollRounds (env : Env) : ℕ → Bool → H2M Bool
  | 0, progressed => return progressed
  | rounds + 1, progressed => do
      let c ← getConn
      match c.pendingHeaderResponses with
      | [] => return progressed
      | pending :: rest => do
          modifyConn fun c => { c with pendingHeaderResponses := rest }
          let p ← pollOne env pending
          pollRounds env rounds (progressed || p)

/-- `poll_pending_headers`. -/
def pollPendingHeaders (env : Env) : H2M Bool := do
  let c ← getConn
  let progressed ← pollRounds env c.pendingHeaderResponses.length false
  if progressed then
    flush
    return true
  else return false

/-! ## Sending bodies -/

def requeue (pending : PendingResponse) : H2M Bool := do
  modifyConn fun c => c.enqueue pending.streamId pending.body
  return false

/-- A frame that ends the stream, after which its slot is free. -/
def writeLast (sid : ℕ) (frame : Frame) : H2M Bool := do
  writeAll frame
  modifyConn fun c => c.release sid
  return true

/-- Bytes that were read go out in one DATA frame. -/
def sendChunk (sid : ℕ) (body : PendingBody) (data : Bytes) (done : Bool) : H2M Bool := do
  let c ← getConn
  let connWindow ← MonadExcept.ofExcept (c.peerConnectionWindow.consume data.length)
  match c.sendStreamWindows.lookup sid with
  | none => throw .streamClosed
  | some window => do
      let window ← MonadExcept.ofExcept (window.consume data.length)
      modifyConn fun c => { c with
        peerConnectionWindow := connWindow
        sendStreamWindows := c.sendStreamWindows.insert sid window }
      writeAll (dataFrame sid data done)
      modifyConn fun c => if done then c.release sid else c.enqueue sid body
      return true

/-- The reads a chunk cost at the body's source: one, or none for bytes at hand. -/
def readEvents (sid : ℕ) (chunk : PendingBody.Chunk) : List Event :=
  chunk.outcome.toList.map (.bodyRead sid)

def logReads (sid : ℕ) (chunk : PendingBody.Chunk) : H2M Unit :=
  modify fun s => { s with trace := s.trace ++ readEvents sid chunk }

/-- What follows from a read of the body. -/
def handleChunk (sid : ℕ) (chunk : PendingBody.Chunk) : H2M Bool :=
  match chunk.result with
  | .error errorCode => writeLast sid (rstFrame sid errorCode)
  | .ok .pending => requeue { streamId := sid, body := chunk.body }
  | .ok .done => writeLast sid (dataFrame sid [] true)
  | .ok (.data [] false) => requeue { streamId := sid, body := chunk.body }
  | .ok (.data [] true) => writeLast sid (dataFrame sid [] true)
  | .ok (.data (b :: data) done) => sendChunk sid chunk.body (b :: data) done

/-- How much of a body may go out now. -/
def sendAmount (c : Http2Connection) (quota : ℕ) (streamWindow : Window) : ℕ :=
  min (min (min quota c.peerMaxFrameSize) c.peerConnectionWindow.toInt.toNat)
    streamWindow.toInt.toNat

/-- One round of `schedule_pending_responses`, telling whether it sent anything. -/
def scheduleOne (env : Env) (quota : ℕ) (pending : PendingResponse) : H2M Bool := do
  let c ← getConn
  match c.sendStreamWindows.lookup pending.streamId with
  | none => return false
  | some window =>
    if window.toInt ≤ 0 ∨ c.peerConnectionWindow.toInt ≤ 0 then requeue pending
    else do
      let chunk := pending.body.readChunk (env.readChoice pending.streamId)
        (sendAmount c quota window)
      logReads pending.streamId chunk
      handleChunk pending.streamId chunk

def scheduleRounds (env : Env) (quota : ℕ) : ℕ → Bool → H2M Bool
  | 0, sent => return sent
  | rounds + 1, sent => do
      let c ← getConn
      match c.pendingResponses with
      | [] => return sent
      | pending :: rest => do
          modifyConn fun c => { c with pendingResponses := rest }
          let p ← scheduleOne env quota pending
          scheduleRounds env quota rounds (sent || p)

/-- `schedule_pending_responses`. -/
def schedulePendingResponses (env : Env) : H2M Bool := do
  let c ← getConn
  let rounds := c.pendingResponses.length
  if rounds = 0 ∨ c.peerConnectionWindow.toInt ≤ 0 then
    return false
  else
    let quota := max (c.peerConnectionWindow.toInt.toNat / rounds) 1
    let sent ← scheduleRounds env quota rounds false
    if sent then
      flush
      return true
    else return false

/-! ## Runs -/

/-- A frame off the wire. -/
abbrev ParsedFrame := { f : Frame // f.Parsed }

/-- The calls `handle_connection` makes. -/
inductive Call where
  | frame (f : ParsedFrame)
  | pollHeaders
  | schedule

/-- One call, in an outside that decides what fails. -/
def call (env : Env) : Call → H2M Unit
  | .frame f => do
      modify fun s => { s with faults := env.faults }
      logEvent (.received f.1)
      processFrame env f.1
  | .pollHeaders => do
      modify fun s => { s with faults := env.faults }
      let _ ← pollPendingHeaders env
      pure ()
  | .schedule => do
      modify fun s => { s with faults := env.faults }
      let _ ← schedulePendingResponses env
      pure ()

/-- Calls in any order; the first error ends the run. -/
def runCalls : List (Env × Call) → H2M Unit
  | [] => pure ()
  | (env, c) :: rest => do
      call env c
      runCalls rest

/-- A new connection that has sent its SETTINGS. -/
def ConnState.start (config : ServerConfig) (secure : Bool) : ConnState :=
  { conn := Http2Connection.new config secure
    trace := [.wrote (Http2Connection.new config secure).serverSettingsFrame]
    faults := [] }

/-- The state after the calls, or where one of them failed. -/
def stateAfter (config : ServerConfig) (secure : Bool) (calls : List (Env × Call)) : ConnState :=
  stateOf ((runCalls calls).run (ConnState.start config secure))

/-- `send_goaway`, where it is called and its write succeeds. -/
def sendGoaway (lastStreamId : ℕ) (goAway : Option Http2ErrorCode) : List Event :=
  goAway.toList.map fun e => .wrote (goAwayFrame lastStreamId e)

/-- The log of a whole connection: after its last call `handle_connection` may say GOAWAY, for a
call that failed or for bytes that are no frame. -/
def connectionLog (config : ServerConfig) (secure : Bool) (calls : List (Env × Call))
    (goAway : Option Http2ErrorCode) : List Event :=
  let s := stateAfter config secure calls
  s.trace ++ sendGoaway s.conn.lastStreamId goAway

/-! ## Sample runs -/

/-- An outside in which nothing fails and every request gets the same response. -/
def Env.calm (resp : HttpResponse) : Env :=
  { faults := []
    effectiveConfig := fun _ => {}
    beginProxy := fun _ _ => .declined
    fastcgiMatches := fun _ _ => false
    beginFastcgi := fun _ _ => .declined
    handleRequest := fun _ => resp
    poll := fun _ => .notReady
    readChoice := fun _ => .upTo 65536
    cloneOk := fun _ => true
    seekOk := fun _ => true
    gzip := fun bytes _ => bytes
    qPositive := fun _ => none }

/-- `GET /` on stream 1, in one frame. -/
def sampleGet : ParsedFrame :=
  ⟨{ header := { length := 3, frameType := .headers, flags := 5, streamId := 1 }
     payload := .headers [0x82, 0x86, 0x84] true true },
    [0, 0, 3, 1, 5, 0, 0, 0, 1], [0x82, 0x86, 0x84], rfl, rfl⟩

/-- `POST /` on stream 3, with a body to come. -/
def samplePost : ParsedFrame :=
  ⟨{ header := { length := 3, frameType := .headers, flags := 4, streamId := 3 }
     payload := .headers [0x83, 0x86, 0x84] false true },
    [0, 0, 3, 1, 4, 0, 0, 0, 3], [0x83, 0x86, 0x84], rfl, rfl⟩

def sampleOutside : Env := Env.calm { HttpResponse.new .ok with bodySource := .bytes [1, 2, 3] }

/-- A response of three bytes is on its way out while a second request comes in. -/
def sampleCalls : List (Env × Call) :=
  [(sampleOutside, .frame sampleGet), (sampleOutside, .frame samplePost),
    (sampleOutside, .schedule)]

/-- Room for one stream. -/
def sampleNarrow : ServerConfig := { http2MaxConcurrentStreams := 1 }

/-- `GET /` on stream 5. -/
def sampleSecond : ParsedFrame :=
  ⟨{ header := { length := 3, frameType := .headers, flags := 5, streamId := 5 }
     payload := .headers [0x82, 0x86, 0x84] true true },
    [0, 0, 3, 1, 5, 0, 0, 0, 5], [0x82, 0x86, 0x84], rfl, rfl⟩

end Veysrs
