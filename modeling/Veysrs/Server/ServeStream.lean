import Veysrs.FastCgi.Request
import Veysrs.Proxy.Handler

/-!
# The HTTP/1.1 connection loop

`serve_stream` of `server/listener.rs`.  A connection has one buffer, and two ways to take a request
off it: for a streaming route only the head is taken and the handler takes the body, otherwise head
and body are taken together.  What the loop does is written down in a log (`ServeEvent`), with the
place in the client's stream where it was done.

The claim on the log is `Aligned`: every head is read at the start of the stream or where the last
request ended, and nothing is read after a request whose body was left to a handler.  A round of the
loop keeps `InStep`, which says where the buffer stands in the stream; the two facts about the
handlers this needs are that a streaming handler with a route for the request does not hand it back
(`streaming_isSome`), and that a handler which does hand a request back has not touched the
connection (`handle_none`).
-/

namespace Veysrs

open Core List
open FastCgi (FastCgiEnv)
open Proxy (ProxyEnv)

/-! ## What the loop reads of a request -/

def HttpRequest.isKeepAlive (req : HttpRequest) : Bool :=
  let isHttp11 := decide (req.version = "HTTP/1.1".toList)
  match req.getHeader "Connection" with
  | none => isHttp11
  | some conn =>
    let tokens := (conn.splitOn ',').map trim
    if tokens.any fun token => eqIgnoreAsciiCase token "close".toList then false
    else if tokens.any fun token => eqIgnoreAsciiCase token "keep-alive".toList then true
    else isHttp11

/-- `From<HttpParseError> for StatusCode`. -/
def HttpParseError.status : HttpParseError → StatusCode
  | .unsupportedVersion => .httpVersionNotSupported
  | .chunkedEncodingNotImplemented => .notImplemented
  | .oversizedRequestLine => .uriTooLong
  | .oversizedHeader | .oversizedHeaderLine | .tooManyHeaders => .requestHeaderFieldsTooLarge
  | .oversizedBody => .payloadTooLarge
  | .timeout => .requestTimeout
  | .missingHost | .malformedHost | .conflictingHeaders | .malformedContentLength
  | .malformedRequest | .ioError | .connectionClosed => .badRequest

/-- The body of an error response: code and reason. -/
def StatusCode.page (status : StatusCode) : String :=
  toString status.code ++ " " ++ status.reasonPhrase

/-! ## The connection -/

/-- What the rest of the server and the outside answer while a round of the loop lasts. -/
structure ServeEnv where
  proxy : ProxyEnv
  fastCgi : FastCgiEnv
  effectiveConfig : HttpRequest → ServerConfig
  /-- What `handle_request` and `send_to` write for a request, given whether it is the last one, and
  whether the writing fails. -/
  respond : HttpRequest → Bool → List Sent × Bool

/-- What happened to a head that starts at `offset` in the client's stream. -/
inductive ServeEvent where
  | parsed (offset : ℕ) (head : HttpRequestHead)
  | dispatched (offset : ℕ) (head : HttpRequestHead)
  /-- Dispatched, with the body left to the handler. -/
  | streamed (offset : ℕ) (head : HttpRequestHead)
  deriving DecidableEq, Repr

structure Serve where
  exchange : Exchange
  /-- The length of all that the client sends. -/
  length : ℕ
  requestCount : ℕ
  log : List ServeEvent

/-- A program that leaves the loop by throwing. -/
abbrev ServeM := EStateM Unit Serve

namespace Serve

/-- A new connection. -/
def start (client upstream : Source) : Serve :=
  { exchange := { client, buffered := [], sent := [], upstream, written := [] }
    length := client.bytes.length
    requestCount := 0
    log := [] }

/-- The place of the buffer in the client's stream. -/
def offset (s : Serve) : ℕ := s.length - s.exchange.toCome.length

end Serve

def note (event : ServeEvent) : ServeM Unit := modify fun s => { s with log := s.log ++ [event] }

/-- Run a handler on the connection; its errors are results. -/
def onExchange {α : Type} (x : ExchangeM α) : ServeM (Except IoError α) := fun s =>
  match x s.exchange with
  | .ok a exchange => .ok (.ok a) { s with exchange }
  | .error e exchange => .ok (.error e) { s with exchange }

/-- Write to the client, whether or not it still listens. -/
def tell (parts : List Sent) : ServeM Unit :=
  modify fun s => { s with exchange := { s.exchange with sent := s.exchange.sent ++ parts } }

/-- Tell the client of an error and leave. -/
def leaveWith (status : StatusCode) (message : String) : ServeM Unit := do
  tell [.error status message]
  throw ()

/-- `isize::MAX`, the most a `Vec<u8>` can hold. -/
def maxBuffer : ℕ := 2 ^ 63 - 1

/-- `Vec::extend_from_slice`; a buffer that would be too long ends the thread. -/
def extendBuffer (data : Bytes) : ServeM Unit := do
  let s ← get
  if maxBuffer < s.exchange.buffered.length + data.length then throw ()
  else set { s with exchange := { s.exchange with buffered := s.exchange.buffered ++ data } }

/-- `stream.read` into a chunk of the loop. -/
def readClient : ServeM (Except IoError Bytes) := onExchange (onClient (readSome 1024))

def clientPreface : Bytes := utf8 "PRI * HTTP/2.0\r\n\r\nSM\r\n\r\n".toList

/-- The loop that waits for the preface of HTTP/2: whether it came.  `expired` tells whether the
deadline has passed when the clock is looked at for the `n`th time. -/
def awaitPreface (expired : ℕ → Bool) : ℕ → ℕ → ServeM Bool
  | 0, _ => throw ()
  | fuel + 1, looks => do
      let s ← get
      if clientPreface.length ≤ s.exchange.buffered.length then
        return s.exchange.buffered.take clientPreface.length = clientPreface
      else match ← readClient with
        | .ok data =>
          if data.isEmpty then throw ()
          else do
            extendBuffer data
            let buffered := s.exchange.buffered ++ data
            if clientPreface.length ≤ buffered.length then
              return buffered.take clientPreface.length = clientPreface
            else if !buffered.isPrefixOf clientPreface then return false
            else if expired looks then return false
            else awaitPreface expired fuel (looks + 1)
        | .error e =>
          if !e.waits then throw ()
          else if expired looks || expired (looks + 1) then return false
          else awaitPreface expired fuel (looks + 2)

section Loop

variable (env : ServeEnv) (config : ServerConfig) (peer : IpAddr) (secure : Bool)

/-- `parse_http_request_head_from_buf_with_limits` on the buffer; its errors are left to the parser
of the whole request. -/
def peekHead : ServeM (Option HttpRequestHead) := do
  let s ← get
  match parseHttpRequestHeadFromBufWithLimits s.exchange.buffered config with
  | .ok (some head) => do
      note (.parsed s.offset head)
      return some head
  | _ => return none

/-- Whether the request goes to the proxy, and if not whether its body is streamed to FastCGI. -/
def streamingRoute (head : HttpRequestHead) : Option Bool :=
  let request := head.intoRequest []
  let effective := env.effectiveConfig request
  let proxyRoute := Proxy.routeMatchesRequest request effective
  let fastcgiRoute := FastCgi.routeMatchesRequest env.fastCgi request effective &&
    decide (request.method = .post)
  if (proxyRoute || fastcgiRoute) && (request.getHeader "Upgrade").isNone then some proxyRoute
  else none

/-- The handler that takes the body. -/
def handleStreaming (head : HttpRequestHead) (proxyRoute : Bool) : ExchangeM (Option Bool) :=
  let effective := env.effectiveConfig (head.intoRequest [])
  if proxyRoute then Proxy.handleStreamingBody env.proxy effective peer secure head
  else FastCgi.handleStreamingBody env.fastCgi effective secure peer head

/-- The first half of a round: a head whose body is streamed. -/
def streamRound : ServeM Unit := do
  match ← peekHead config with
  | none => pure ()
  | some head =>
    match streamingRoute env head with
    | none => pure ()
    | some proxyRoute => do
        let s ← get
        note (.streamed s.offset head)
        modify fun s => { s with exchange :=
          { s.exchange with buffered := s.exchange.buffered.drop head.headerLen } }
        match ← onExchange (handleStreaming env peer secure head proxyRoute) with
        | .ok (some _) => throw ()
        | .ok none => pure ()
        | .error e =>
          let status := if e.kind = .timedOut ∨ e.kind = .unexpectedEof
            then StatusCode.requestTimeout else .badGateway
          leaveWith status status.page

/-- A request with its body. -/
def dispatch (req : HttpRequest) : ServeM Unit := do
  modify fun s => { s with requestCount := s.requestCount + 1 }
  let s ← get
  let isLast := decide (config.maxRequestsPerConnection ≤ s.requestCount) || !req.isKeepAlive
  let effective := env.effectiveConfig req
  match ← onExchange (Proxy.handle env.proxy effective peer secure req) with
  | .ok (some _) => throw ()
  | .error e => leaveWith .badGateway ("502 Bad Gateway: " ++ e.message)
  | .ok none =>
    match ← onExchange (FastCgi.handle env.fastCgi effective secure peer req) with
    | .ok (some _) => throw ()
    | .error e => leaveWith .badGateway ("502 Bad Gateway: " ++ e.message)
    | .ok none => do
        tell (env.respond req isLast).1
        if (env.respond req isLast).2 || isLast then throw () else pure ()

/-- There is no request yet. -/
def awaitMore : ServeM Unit := do
  match ← readClient with
  | .ok data => if data.isEmpty then throw () else extendBuffer data
  | .error e =>
    let s ← get
    if e.waits && !s.exchange.buffered.isEmpty then
      leaveWith .requestTimeout "408 Request Timeout"
    else throw ()

/-- The second half of a round: a request with its body, more bytes, or an error. -/
def requestRound : ServeM Unit := do
  let s ← get
  let head ← peekHead config
  match (parseHttpRequestFromBufWithLimits config).run s.exchange.buffered with
  | .ok (some req) rest => do
      head.forM fun head => note (.dispatched s.offset head)
      modify fun s => { s with exchange := { s.exchange with buffered := rest } }
      dispatch env config peer secure req
  | .ok none _ => awaitMore
  | .error e _ =>
    if e = .connectionClosed then throw () else leaveWith e.status e.status.page

/-- The files and the network may change from round to round, hence an environment for each. -/
def serveLoop (envs : ℕ → ServeEnv) : ℕ → ServeM Unit
  | 0 => pure ()
  | fuel + 1 => do
      streamRound (envs fuel) config peer secure
      requestRound (envs fuel) config peer secure
      serveLoop envs fuel

/-- `serve_stream`; a connection of HTTP/2 is not for this loop. -/
def serveStream (envs : ℕ → ServeEnv) (expired : ℕ → Bool) (fuel : ℕ) : ServeM Unit := do
  if config.http2Enabled then
    let isH2 ← awaitPreface expired fuel 0
    if isH2 then throw () else serveLoop config peer secure envs fuel
  else match ← readClient with
    | .ok data =>
      if data.isEmpty then throw ()
      else do
        extendBuffer data
        serveLoop config peer secure envs fuel
    | .error _ => throw ()

end Loop

/-! ## Where heads are read -/

namespace ServeEvent

def offset : ServeEvent → ℕ
  | parsed offset _ | dispatched offset _ | streamed offset _ => offset

def isStreamed : ServeEvent → Bool
  | streamed _ _ => true
  | _ => false

/-- Where the next request starts, given where it was to start before the event. -/
def next (start : ℕ) : ServeEvent → ℕ
  | parsed _ _ => start
  | dispatched offset head | streamed offset head => offset + head.headerLen + head.contentLength

end ServeEvent

/-- The end of the request that was dispatched last; before the first, the start of the stream. -/
def nextStart (log : List ServeEvent) : ℕ := log.foldl ServeEvent.next 0

@[simp] lemma nextStart_append (log : List ServeEvent) (event : ServeEvent) :
    nextStart (log ++ [event]) = event.next (nextStart log) := by
  rw [nextStart, foldl_append, foldl_cons]
  rfl

/-- Every head is read, and every request dispatched, where the request before ended; and nothing
is read after a request whose body was left to its handler. -/
def Aligned (log : List ServeEvent) : Prop :=
  ∀ before event after, log = before ++ event :: after →
    event.offset = nextStart before ∧ (event.isStreamed = true → after = [])

lemma aligned_nil : Aligned [] := by
  intro before event after h
  simp at h

lemma Aligned.append {log : List ServeEvent} (h : Aligned log)
    (hop : ∀ event ∈ log, event.isStreamed = false) {event : ServeEvent}
    (ho : event.offset = nextStart log) : Aligned (log ++ [event]) := by
  intro before found after hl
  rcases eq_nil_or_concat after with rfl | ⟨after, last, rfl⟩
  · obtain ⟨rfl, heq⟩ := append_inj' hl rfl
    obtain rfl : event = found := by simpa using heq
    exact ⟨ho, fun _ => rfl⟩
  · rw [concat_eq_append, ← cons_append, ← append_assoc] at hl
    obtain ⟨rfl, -⟩ := append_inj' hl rfl
    refine ⟨(h before found after rfl).1, fun hs => ?_⟩
    rw [hop found (by simp)] at hs
    cases hs

/-! ## The handlers -/

section Handlers

variable {head : HttpRequestHead} {req : HttpRequest} {config : ServerConfig} {peer : IpAddr}
  {secure : Bool} {s : Exchange}

/-- A handler hands a request back only if it did nothing. -/
def Untouched (s : Exchange) (r : Option Bool) (t : Exchange) : Prop := r = none → t = s

lemma Untouched.some (b : Bool) (t : Exchange) : Untouched s (some b) t := by
  intro h
  cases h

/-- A proxied request without an upgrade is not handed back. -/
lemma Proxy.handleStreamingBody_isSome {env : ProxyEnv}
    (hr : Proxy.routeMatchesRequest (head.intoRequest []) config = true)
    (hu : (head.intoRequest []).getHeader "Upgrade" = none) :
    wp (Proxy.handleStreamingBody env config peer secure head) s (fun r _ => r.isSome = true)
      (fun _ _ => True) := by
  obtain ⟨route, hs⟩ := Proxy.selectRoute_of_matches hr
  have hp : ¬Proxy.isWebsocketUpgrade (head.intoRequest []) = true := by
    rw [Proxy.isWebsocketUpgrade, hu]
    simp
  rw [Proxy.handleStreamingBody]
  simp only [hs, if_neg hp]
  exact wp_bind_any fun _ _ => rfl

/-- A posted request for FastCGI is not handed back. -/
lemma FastCgi.handleStreamingBody_isSome {env : FastCgiEnv}
    (hr : FastCgi.routeMatchesRequest env (head.intoRequest []) config = true)
    (hp : head.method = .post) :
    wp (FastCgi.handleStreamingBody env config secure peer head) s (fun r _ => r.isSome = true)
      (fun _ _ => True) := by
  obtain ⟨⟨route, scriptUri⟩, hs⟩ := Option.isSome_iff_exists.mp hr
  have hm : ¬(head.intoRequest []).method ≠ .post := not_not_intro hp
  rw [FastCgi.handleStreamingBody]
  simp only [hs, if_neg hm]
  refine wp_bind_any fun nested _ => ?_
  cases nested with
  | false => exact wp_bind_any fun _ _ => rfl
  | true => exact wp_bind_any fun _ _ => wp_bind_any fun _ _ => wp_bind_any fun _ _ =>
    wp_bind_any fun _ _ => rfl

lemma Proxy.handle_untouched {env : ProxyEnv} :
    wp (Proxy.handle env config peer secure req) s (Untouched s) (fun _ _ => True) := by
  rw [Proxy.handle]
  cases Proxy.selectRoute req config with
  | none => exact fun _ => rfl
  | some route =>
    by_cases hu : Proxy.isWebsocketUpgrade req = true
    · simp only [if_pos hu]
      exact wp_bind_any fun _ _ => .some _ _
    · simp only [if_neg hu]
      exact wp_bind_any fun _ _ => .some _ _

lemma FastCgi.handle_untouched {env : FastCgiEnv} :
    wp (FastCgi.handle env config secure peer req) s (Untouched s) (fun _ _ => True) := by
  rw [FastCgi.handle]
  cases FastCgi.selectRoute env req config with
  | none => exact fun _ => rfl
  | some selected =>
    by_cases hs : (!FastCgi.servedMethod req.method) = true
    · simp only [if_pos hs]
      exact wp_bind_any fun _ _ => .some _ _
    · simp only [if_neg hs]
      refine wp_bind_any fun nested _ => ?_
      cases nested with
      | false => exact wp_bind_any fun _ _ => .some _ _
      | true => exact wp_bind_any fun _ _ => wp_bind_any fun _ _ => wp_bind_any fun _ _ =>
        wp_bind_any fun _ _ => .some _ _

/-- **A streaming handler that is given a request for its routes takes it.** -/
lemma streaming_isSome {env : ServeEnv} {proxyRoute : Bool}
    (h : streamingRoute env head = some proxyRoute) :
    wp (handleStreaming env peer secure head proxyRoute) s (fun r _ => r.isSome = true)
      (fun _ _ => True) := by
  rw [streamingRoute] at h
  split_ifs at h with hr
  rw [Bool.and_eq_true, Bool.or_eq_true, Option.isNone_iff_eq_none] at hr
  obtain rfl := Option.some.inj h
  rw [handleStreaming]
  split_ifs with hp
  · exact Proxy.handleStreamingBody_isSome hp hr.2
  · have hf := hr.1.resolve_left hp
    rw [Bool.and_eq_true, decide_eq_true_eq] at hf
    exact FastCgi.handleStreamingBody_isSome hf.1 hf.2

end Handlers

/-! ## Rounds -/

section Rules

variable {s : Serve} {E : Unit → Serve → Prop}

@[simp] lemma wp_onExchange {α : Type} (x : ExchangeM α) {Q : Except IoError α → Serve → Prop} :
    wp (onExchange x) s Q E ↔
      wp x s.exchange (fun a exchange => Q (.ok a) { s with exchange })
        (fun e exchange => Q (.error e) { s with exchange }) := by
  simp only [wp, onExchange, EStateM.run]
  cases x s.exchange <;> exact Iff.rfl

variable {P : Unit → Serve → Prop}

@[simp] lemma wp_note (event : ServeEvent) :
    wp (note event) s P E ↔ P () { s with log := s.log ++ [event] } := Iff.rfl

@[simp] lemma wp_tell (parts : List Sent) :
    wp (tell parts) s P E ↔
      P () { s with exchange := { s.exchange with sent := s.exchange.sent ++ parts } } := Iff.rfl

@[simp] lemma wp_leaveWith (status : StatusCode) (message : String) :
    wp (leaveWith status message) s P E ↔ E () { s with exchange :=
      { s.exchange with sent := s.exchange.sent ++ [.error status message] } } := Iff.rfl

end Rules

/-- The loop is where its log says: the buffer stands at the next request. -/
structure InStep (s : Serve) : Prop where
  aligned : Aligned s.log
  unstreamed : ∀ event ∈ s.log, event.isStreamed = false
  next : nextStart s.log = s.offset
  inside : s.exchange.toCome.length ≤ s.length
  fits : s.exchange.buffered.length ≤ maxBuffer

/-- The log alone. -/
def LogAligned (_ : Unit) (s : Serve) : Prop := Aligned s.log

section Rounds

variable {env : ServeEnv} {config : ServerConfig} {peer : IpAddr} {secure : Bool} {s : Serve}

lemma inStep_start (client upstream : Source) : InStep (Serve.start client upstream) := by
  have hc : (Serve.start client upstream).exchange.toCome = client.bytes := rfl
  refine ⟨aligned_nil, by simp [Serve.start], ?_, le_of_eq (congrArg List.length hc),
    Nat.zero_le _⟩
  show 0 = _
  exact (Nat.sub_self _).symm

/-- Writing to the client changes nothing. -/
lemma InStep.tell (h : InStep s) (parts : List Sent) :
    InStep { s with exchange := { s.exchange with sent := s.exchange.sent ++ parts } } :=
  ⟨h.aligned, h.unstreamed, h.next, h.inside, h.fits⟩

lemma InStep.count (h : InStep s) (n : ℕ) : InStep { s with requestCount := n } :=
  ⟨h.aligned, h.unstreamed, h.next, h.inside, h.fits⟩

lemma wp_extendBuffer {data : Bytes} (hl : Aligned s.log)
    (h : s.exchange.buffered.length + data.length ≤ maxBuffer →
      InStep { s with exchange := { s.exchange with buffered := s.exchange.buffered ++ data } }) :
    wp (extendBuffer data) s (fun _ t => InStep t) LogAligned := by
  simp only [extendBuffer, wp_bind, wp_ite]
  exact ⟨fun _ => hl, fun hf => h (Nat.le_of_not_lt hf)⟩

/-- A read moves bytes from the client; the buffer they go to stands where it stood. -/
lemma wp_readClient (h : InStep s) {Q : Except IoError Bytes → Serve → Prop}
    {E : Unit → Serve → Prop}
    (hok : ∀ data t, t.log = s.log → t.exchange.buffered = s.exchange.buffered →
      (t.exchange.buffered.length + data.length ≤ maxBuffer →
        InStep { t with exchange := { t.exchange with buffered := t.exchange.buffered ++ data } }) →
      Q (.ok data) t)
    (her : ∀ e t, InStep t → Q (.error e) t) : wp readClient s Q E := by
  simp only [readClient, wp_onExchange, wp_onClient]
  refine wp_readSome (by decide) (fun k client ha _ _ => ?_) (fun e client ha _ => ?_)
  · refine hok _ _ rfl rfl fun hf => ⟨h.aligned, h.unstreamed, ?_, ?_, ?_⟩
    · refine h.next.trans ?_
      simp only [Serve.offset, Exchange.toCome, ha.bytes, append_assoc,
        take_append_drop]
    · simp only [Exchange.toCome, ha.bytes, append_assoc, take_append_drop]
      exact h.inside
    · rw [← length_append] at hf
      exact hf
  · refine her e _ ⟨h.aligned, h.unstreamed, h.next.trans ?_, ?_, h.fits⟩
    · simp only [Serve.offset, Exchange.toCome, ha.bytes, drop_zero]
    · simp only [Exchange.toCome, ha.bytes]
      exact h.inside

lemma awaitMore_inStep (h : InStep s) : wp awaitMore s (fun _ t => InStep t) LogAligned := by
  simp only [awaitMore, wp_bind]
  refine wp_readClient h (fun data t hl _ hn => ?_) (fun e t ht => ?_)
  · have ha : Aligned t.log := hl ▸ h.aligned
    simp only [wp_ite]
    exact ⟨fun _ => ha, fun _ => wp_extendBuffer ha hn⟩
  · simp only [wp_bind, wp_ite]
    exact ⟨fun _ => ht.aligned, fun _ => ht.aligned⟩

lemma awaitPreface_inStep {expired : ℕ → Bool} (fuel : ℕ) : ∀ (looks : ℕ) (s : Serve),
    InStep s → wp (awaitPreface expired fuel looks) s (fun _ t => InStep t) LogAligned := by
  induction fuel with
  | zero => exact fun _ s h => h.aligned
  | succ fuel ih =>
    intro looks s h
    simp only [awaitPreface, wp_bind, wp_ite]
    refine ⟨fun _ => h, fun _ => wp_readClient h (fun data t hl _ hn => ?_)
      (fun e t ht => ?_)⟩
    · have ha : Aligned t.log := hl ▸ h.aligned
      simp only [wp_ite, wp_bind]
      refine ⟨fun _ => ha, fun _ => wp_mono (wp_extendBuffer ha hn)
        (fun _ u hu => ⟨fun _ => hu, fun _ => ⟨fun _ => hu, fun _ => ⟨fun _ => hu, fun _ => ?_⟩⟩⟩)
        (fun _ _ hu => hu)⟩
      exact ih _ u hu
    · simp only [wp_ite]
      exact ⟨fun _ => ht.aligned, fun _ => ⟨fun _ => ht, fun _ => ih _ t ht⟩⟩

/-- A head is read where the last request ended. -/
lemma peekHead_inStep (h : InStep s) :
    wp (peekHead config) s
      (fun found t => InStep t ∧ t.exchange = s.exchange ∧ t.length = s.length ∧
        match parseHttpRequestHeadFromBufWithLimits s.exchange.buffered config with
        | .ok (some head) => found = some head
        | _ => found = none) LogAligned := by
  simp only [peekHead, wp_bind, wp_get]
  cases hp : parseHttpRequestHeadFromBufWithLimits s.exchange.buffered config with
  | error e => exact ⟨h, rfl, rfl, rfl⟩
  | ok found =>
    cases found with
    | none => exact ⟨h, rfl, rfl, rfl⟩
    | some head =>
      refine ⟨⟨h.aligned.append h.unstreamed h.next.symm, ?_, ?_, h.inside, h.fits⟩, rfl, rfl,
        rfl⟩
      · exact forall_mem_append.mpr ⟨h.unstreamed, forall_mem_singleton.mpr rfl⟩
      · rw [nextStart_append]
        exact h.next

lemma streamRound_inStep (h : InStep s) :
    wp (streamRound env config peer secure) s (fun _ t => InStep t) LogAligned := by
  simp only [streamRound, wp_bind]
  refine wp_mono (peekHead_inStep h) (fun found t ht => ?_) (fun _ _ ht => ht)
  cases found with
  | none => exact ht.1
  | some head =>
    simp only
    cases hro : streamingRoute env head with
    | none => exact ht.1
    | some proxyRoute =>
      simp only [wp_bind, wp_get, wp_note, wp_modify, wp_onExchange]
      have ha : Aligned (t.log ++ [.streamed t.offset head]) :=
        ht.1.aligned.append ht.1.unstreamed ht.1.next.symm
      refine wp_mono (streaming_isSome hro) (fun r e hr => ?_) (fun err e _ => ?_)
      · obtain ⟨keep, rfl⟩ := Option.isSome_iff_exists.mp hr
        exact ha
      · exact ha

/-- A request that is handed back by both dynamic handlers is answered, and the loop goes on. -/
lemma dispatch_inStep {req : HttpRequest} (h : InStep s) :
    wp (dispatch env config peer secure req) s (fun _ t => InStep t) LogAligned := by
  simp only [dispatch, wp_bind, wp_modify, wp_get, wp_onExchange]
  have hc := h.count (s.requestCount + 1)
  refine wp_mono Proxy.handle_untouched (fun r e hr => ?_) (fun err e _ => hc.aligned)
  cases r with
  | some keep => exact hc.aligned
  | none =>
    obtain rfl := hr rfl
    simp only [wp_bind, wp_onExchange]
    refine wp_mono FastCgi.handle_untouched (fun r e hr => ?_) (fun err e _ => hc.aligned)
    cases r with
    | some keep => exact hc.aligned
    | none =>
      obtain rfl := hr rfl
      simp only [wp_bind, wp_ite]
      exact ⟨fun _ => hc.aligned, fun _ => hc.tell _⟩

/-- A request whose head was read at the buffer's place ends where the rest of the buffer is. -/
lemma InStep.dispatched (h : InStep s) {head : HttpRequestHead} {req : HttpRequest} {rest : Bytes}
    (hh : parseHttpRequestHeadFromBufWithLimits s.exchange.buffered config = .ok (some head))
    (hp : (parseHttpRequestFromBufWithLimits config).run s.exchange.buffered =
      .ok (some req) rest) :
    InStep { s with
      exchange := { s.exchange with buffered := rest }
      log := s.log ++ [.dispatched s.offset head] } := by
  obtain ⟨found, hf, hen, -, rfl⟩ := parseHttpRequest_eq_some.mp hp
  obtain rfl : head = found := by
    rw [hh] at hf
    exact Option.some.inj (Except.ok.inj hf)
  -- the sum did not saturate: no buffer is that long
  have ht : head.totalRequired = head.headerLen + head.contentLength := by
    have hfi := h.fits
    rw [HttpRequestHead.totalRequired, saturatingAdd] at hen ⊢
    rw [maxBuffer] at hfi
    omega
  rw [ht] at hen ⊢
  have hi := h.inside
  have hc : (s.exchange.buffered.drop (head.headerLen + head.contentLength) ++
      s.exchange.client.bytes).length + (head.headerLen + head.contentLength) =
        s.exchange.toCome.length := by
    rw [Exchange.toCome, length_append, length_append, length_drop]
    omega
  refine ⟨h.aligned.append h.unstreamed h.next.symm, ?_, ?_, ?_, ?_⟩
  · exact forall_mem_append.mpr ⟨h.unstreamed, forall_mem_singleton.mpr rfl⟩
  · rw [nextStart_append]
    show s.offset + head.headerLen + head.contentLength = s.length - _
    rw [Serve.offset]
    show _ = s.length - (s.exchange.buffered.drop (head.headerLen + head.contentLength) ++
      s.exchange.client.bytes).length
    omega
  · show (s.exchange.buffered.drop (head.headerLen + head.contentLength) ++
      s.exchange.client.bytes).length ≤ s.length
    omega
  · show (s.exchange.buffered.drop _).length ≤ maxBuffer
    rw [length_drop]
    have := h.fits
    omega

lemma requestRound_inStep (h : InStep s) :
    wp (requestRound env config peer secure) s (fun _ t => InStep t) LogAligned := by
  simp only [requestRound, wp_bind, wp_get]
  refine wp_mono (peekHead_inStep h) (fun found t ht => ?_) (fun _ _ ht => ht)
  obtain ⟨hs, hex, hl, hf⟩ := ht
  cases hp : (parseHttpRequestFromBufWithLimits config).run s.exchange.buffered with
  | error e rest =>
    simp only [wp_ite]
    exact ⟨fun _ => hs.aligned, fun _ => hs.aligned⟩
  | ok r rest =>
    cases r with
    | none => exact awaitMore_inStep hs
    | some req =>
      obtain ⟨head, hh, -⟩ := parseHttpRequest_eq_some.mp hp
      simp only [hh] at hf
      obtain rfl := hf
      have ho : s.offset = t.offset := by rw [Serve.offset, Serve.offset, hex, hl]
      rw [← hex] at hh hp
      simp only [ho]
      exact dispatch_inStep (hs.dispatched hh hp)

lemma serveLoop_aligned {envs : ℕ → ServeEnv} (fuel : ℕ) : ∀ s : Serve, InStep s →
    wp (serveLoop config peer secure envs fuel) s LogAligned LogAligned := by
  induction fuel with
  | zero => exact fun s h => h.aligned
  | succ fuel ih =>
    intro s h
    simp only [serveLoop, wp_bind]
    refine wp_mono (streamRound_inStep h) (fun _ t ht => ?_) (fun _ _ ht => ht)
    exact wp_mono (requestRound_inStep ht) (fun _ u hu => ih u hu) (fun _ _ hu => hu)

end Rounds

/-- **The loop never reads a body as a request.**  However the client's bytes are cut into reads, a
head is read only at the start of the stream or at the end of the request dispatched before, and
none after a request whose body was left to its handler. -/
theorem heads_start_at_ends (envs : ℕ → ServeEnv) (expired : ℕ → Bool) (config : ServerConfig)
    (peer : IpAddr) (secure : Bool) (client upstream : Source) (fuel : ℕ) :
    Aligned (stateOf ((serveStream config peer secure envs expired fuel).run
      (Serve.start client upstream))).log := by
  have hstart := inStep_start client upstream
  refine wp_stateOf (P := fun t : Serve => Aligned t.log) ?_
  rw [serveStream]
  split_ifs with hh2
  · rw [wp_bind]
    refine wp_mono (awaitPreface_inStep fuel 0 _ hstart) (fun isH2 t ht => ?_) (fun _ _ ht => ht)
    split_ifs
    · exact ht.aligned
    · exact serveLoop_aligned fuel t ht
  · rw [wp_bind]
    refine wp_readClient hstart (fun data t hlog _ hnext => ?_) (fun e t ht => ht.aligned)
    have halign : Aligned t.log := hlog ▸ hstart.aligned
    simp only [wp_ite, wp_throw, wp_bind]
    exact ⟨fun _ => halign, fun _ => wp_mono (wp_extendBuffer halign hnext)
      (fun _ u hu => serveLoop_aligned fuel u hu) (fun _ _ hu => hu)⟩

/-- A server without routes, whose answers are empty. -/
def plainEnv : ServeEnv :=
  { proxy := Proxy.reachableEnv
    fastCgi := FastCgi.openEnv
    effectiveConfig := fun _ => {}
    respond := fun _ _ => ([], false) }

/-- Two requests in one read: each head is read twice, and then its request dispatched. -/
example : (stateOf ((serveStream {} (.v4 127 0 0 1) false (fun _ => plainEnv) (fun _ => false)
    4).run (Serve.start ⟨utf8 ("GET / HTTP/1.1\r\nHost: a\r\n\r\n" ++
      "GET /b HTTP/1.1\r\nHost: a\r\n\r\n").toList, [], true⟩ ⟨[], [], true⟩))).log.map
        ServeEvent.offset = [0, 0, 0, 27, 27, 27] := by
  decide +kernel

end Veysrs
