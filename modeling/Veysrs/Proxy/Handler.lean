import Veysrs.Proxy.Response

/-!
# Handling a request for an upstream

`handle`, `proxy_http` and `handle_streaming_body` of `server/proxy.rs`: they choose a route, connect
to it, write the request and relay the response.  `handle` has the whole request; for
`handle_streaming_body` the body is still to come, from the buffer of the connection and from the
client, and is passed on as it comes.

What `handle_streaming_body` writes upstream is one request (`streams_one_request`): the head was
accepted by the parser (`AcceptedHead`), so that nothing of it can break its line, and the body loop
takes as many bytes as the head announced (`wp_streamBody`).
-/

namespace Veysrs.Proxy

open Core List
open FastCgi (ResponseParams GzEncoder)

/-! ## The handlers -/

/-- What the network answers. -/
structure ProxyEnv where
  acquireUpstreamPermit : Except IoError Unit
  connectWithRetry : ProxyRoute → Method → Except IoError Unit
  /-- `websocket`, which answers the client or has it talk to the upstream until one hangs up. -/
  websocket : HttpRequest → ProxyRoute → ExchangeM Unit
  /-- Whether a quality of `Accept-Encoding` is above zero. -/
  qPositive : Str → Option Bool
  encoder : GzEncoder

def maxUpstreamHeaders : ℕ := 64 * 1024

section Handlers

variable (env : ProxyEnv) (config : ServerConfig) (peer : IpAddr) (secure : Bool)

def responseParams (req : HttpRequest) : ResponseParams :=
  { maxHeaders := min config.maxHeaderSize maxUpstreamHeaders
    head := req.method = .head
    acceptGzip := acceptsGzip env.qPositive (req.getHeader "Accept-Encoding")
    compressionLevel := config.compressionLevel
    encoder := env.encoder }

/-- What the two handlers have in common: the request is sent if there is a connection to send it
on, and the response is relayed.  Putting the connection back into the pool is left out. -/
def forwardOn (route : ProxyRoute) (req : HttpRequest) (sendRequest : ExchangeM Unit) :
    ExchangeM Unit := do
  MonadExcept.ofExcept env.acquireUpstreamPermit
  match env.connectWithRetry route req.method with
  | .error e => sendError .badGateway ("upstream connection failed: " ++ e.message)
  | .ok () => do
      sendRequest
      let _reusable ← streamUpstreamResponse (responseParams env config req)

def proxyHttp (req : HttpRequest) (route : ProxyRoute) : ExchangeM Unit :=
  forwardOn env config route req
    (writeUpstream (utf8 (forwardText req route peer secure "keep-alive" req.body.length) ++
      req.body))

def handle (req : HttpRequest) : ExchangeM (Option Bool) :=
  match selectRoute req config with
  | none => return none
  | some route =>
    if isWebsocketUpgrade req then do
      env.websocket req route
      return some true
    else do
      proxyHttp env config peer secure req route
      return some true

/-- The request of `handle_streaming_body`: the head, then the body as it comes. -/
def writeStreaming (head : HttpRequestHead) (route : ProxyRoute) : ExchangeM Unit := do
  writeUpstream (utf8 (forwardText (head.intoRequest []) route peer secure "keep-alive"
    head.contentLength))
  streamBody writeUpstream head.contentLength

def handleStreamingBody (head : HttpRequestHead) : ExchangeM (Option Bool) :=
  let request := head.intoRequest []
  match selectRoute request config with
  | none => return none
  | some route =>
    if isWebsocketUpgrade request then return none
    else do
      forwardOn env config route request (writeStreaming peer secure head route)
      return some true

end Handlers

/-! ## Relaying leaves the request alone -/

lemma carrying_relays : Carrying Relays := ⟨relays_onUpstream, relays_sendError, fun _ => relays_send _⟩

/-- Relaying a response takes nothing from the client and writes nothing upstream. -/
lemma relays_streamUpstreamResponse (p : ResponseParams) :
    Moves Relays (streamUpstreamResponse p) := by
  refine moves_get.bind fun s => (carrying_relays.readUpstreamHead _ _ _).bind fun found => ?_
  cases found with
  | none => exact moves_pure _
  | some found => exact carrying_relays.relayUpstream fun _ _ => relays_send _

/-! ## One request in, one request out -/

section Streaming

variable {head : HttpRequestHead} {route : ProxyRoute} {peer : IpAddr} {secure : Bool}

/-- The target stays a target when the route's prefix is taken off. -/
lemma targetText_rewriteTarget {uri : Str} (h : TargetText uri) (route : ProxyRoute) :
    TargetText (rewriteTarget route uri) := by
  have hch : ∀ c ∈ (stripStart route.routePrefix uri).getD uri, 32 < c.toNat ∧ c.toNat ≠ 127 := by
    intro c hc
    refine h.2 c ?_
    rw [stripStart] at hc
    split_ifs at hc
    · exact mem_of_mem_drop hc
    · exact hc
  rw [rewriteTarget]
  split_ifs with hem
  · decide
  · exact ⟨by simpa using hem, hch⟩

lemma originalHost_mem (req : HttpRequest) {host : Str}
    (h : namedValues "Host" req.headers = [host]) :
    ∃ header ∈ req.headers, originalHost req = header.2 ∧ trim header.2 = host := by
  rw [originalHost, HttpRequest.getHeader, findHeader]
  rw [namedValues, map_eq_singleton_iff] at h
  obtain ⟨header, hh, hho⟩ := h
  rw [← List.head?_filter, hh]
  refine ⟨header, ?_, rfl, hho⟩
  exact mem_of_mem_filter (hh ▸ mem_singleton_self header)

/-- The parser keeps the fields as they are: their values are trimmed already. -/
lemma trimmed_forwardedFields {req : HttpRequest} {connection : String} {n : ℕ}
    (hf : ∀ header ∈ req.headers, trim header.2 = header.2)
    (hh : trim (originalHost req) = originalHost req)
    (hc : trim connection.toList = connection.toList) :
    (forwardedFields req peer secure connection n).map trimmed =
      forwardedFields req peer secure connection n := by
  have hp : trim (if secure then "https" else "http").toList =
      (if secure then "https" else "http").toList := by
    cases secure <;> rfl
  have ha : ∀ field ∈ forwardedFields req peer secure connection n, trim field.2 = field.2 := by
    refine forall_mem_append.mpr
      ⟨fun header h => hf header (mem_filter.mp h).1, ?_⟩
    simp only [addedFields, forall_mem_cons, not_mem_nil, false_implies, implies_true,
      and_true]
    exact ⟨hh, peer.trim_text, hp, hh, hc, trim_decimal n⟩
  calc (forwardedFields req peer secure connection n).map trimmed
      = (forwardedFields req peer secure connection n).map id :=
        map_congr_left fun field hfi => by rw [trimmed, ha field hfi, id]
    _ = forwardedFields req peer secure connection n := map_id _

/-- The request that goes upstream for a head and a body. -/
def forwardedRequest (head : HttpRequestHead) (route : ProxyRoute) (peer : IpAddr) (secure : Bool)
    (body : Bytes) : HttpRequest :=
  { method := head.method
    uri := rewriteTarget route head.uri
    version := "HTTP/1.1".toList
    headers := forwardedFields (head.intoRequest []) peer secure "keep-alive" head.contentLength
    body }

/-- The parser reads the bytes as that request and nothing else, its limits and the memory they have
to fit into allowing. -/
def ReadsAs (req : HttpRequest) (wire : Bytes) : Prop :=
  wire.length < 2 ^ 64 → ∀ limits, LargeEnough limits wire.length →
    (parseHttpRequestFromBufWithLimits limits).run wire = .ok (some req) []

/-- What is written for an accepted head and a body of the announced length is one request. -/
lemma readsAs_forwarded (hhe : AcceptedHead head) {body : Bytes}
    (hb : body.length = head.contentLength) :
    ReadsAs (forwardedRequest head route peer secure body)
      (utf8 (forwardText (head.intoRequest []) route peer secure "keep-alive"
        head.contentLength) ++ body) := by
  obtain ⟨host, hn, hho⟩ := hhe.host
  obtain ⟨header, hm, ho, rfl⟩ := originalHost_mem (head.intoRequest []) hn
  obtain ⟨-, hv, ht⟩ := hhe.fields header hm
  have hk : ValueText "keep-alive".toList := by decide
  have hpl : Plain head.method (rewriteTarget route head.uri)
      (forwardedFields (head.intoRequest []) peer secure "keep-alive" head.contentLength)
      (originalHost (head.intoRequest [])) := by
    refine ⟨hhe.method, targetText_rewriteTarget hhe.target route,
      (valueText_forwardedFields_iff hk).mpr ?_, ?_⟩
    · rw [ho]
      exact hv
    · rw [ho]
      exact fun h => hho (by rw [h]; rfl)
  intro hf limits hl
  rw [utf8_forwardText] at hf hl ⊢
  have hp := parseHttpRequest_written (roomy_of_largeEnough hl) hf hhe.known
    (fieldName_forwardedFields _ _ _ _ _) (namedValues_host _ _ _ _ _)
    (by rw [namedValues_contentLength, hb]) hpl
  rw [trimmed_forwardedFields (fun h hh => (hhe.fields h hh).2.2)
    (by rw [ho, ht]) rfl] at hp
  exact hp

/-- The request as `handle_streaming_body` writes it; the rest of the client's bytes stay where they
are. -/
lemma wp_writeStreaming (hh : AcceptedHead head) (s : Exchange) :
    wp (writeStreaming peer secure head route) s
      (fun _ t => ∃ wire, t.written = s.written ++ wire ∧
        head.contentLength ≤ s.toCome.length ∧
        ReadsAs (forwardedRequest head route peer secure (s.toCome.take head.contentLength)) wire ∧
        t.buffered = s.buffered.drop head.contentLength ∧
        t.toCome = s.toCome.drop head.contentLength)
      (fun _ _ => True) := by
  refine wp_mono (wp_streamBody (f := id) (fun _ _ => rfl) head.contentLength _)
    (fun _ t ht => ?_) (fun _ _ _ => trivial)
  obtain ⟨pieces, -, hf, hw⟩ := ht.pieces
  have hen : head.contentLength ≤ s.toCome.length := ht.enough
  refine ⟨_, by rw [hw, append_assoc], hen, ?_, ht.buffered, ?_⟩
  · rw [flatMap_id, hf]
    exact readsAs_forwarded hh (length_take_of_le hen)
  · show t.buffered ++ t.client.bytes = _
    rw [ht.buffered, ht.client.bytes, Exchange.toCome, drop_append]

end Streaming

/-- **One request in, one request out.**  If the call connects and returns, what it wrote upstream
is read back as one request: the head that was accepted, rewritten, and the next bytes of the client
as its body; the bytes behind them are still there. -/
theorem streams_one_request (env : ProxyEnv) (limits config : ServerConfig) (peer : IpAddr)
    (secure : Bool) (buffer : Bytes) (head : HttpRequestHead) (route : ProxyRoute)
    (keep : Bool) (s t : Exchange)
    (hhead : parseHttpRequestHeadFromBufWithLimits buffer limits = .ok (some head))
    (hroute : selectRoute (head.intoRequest []) config = some route)
    (hconnect : env.connectWithRetry route head.method = .ok ())
    (hrun : (handleStreamingBody env config peer secure head).run s = .ok (some keep) t) :
    ∃ wire, t.written = s.written ++ wire ∧ head.contentLength ≤ s.toCome.length ∧
      ReadsAs (forwardedRequest head route peer secure (s.toCome.take head.contentLength)) wire ∧
      t.buffered = s.buffered.drop head.contentLength ∧
      t.toCome = s.toCome.drop head.contentLength := by
  have hspec : wp (handleStreamingBody env config peer secure head) s
      (fun keep t => keep = none ∨ ∃ wire, t.written = s.written ++ wire ∧
        head.contentLength ≤ s.toCome.length ∧
        ReadsAs (forwardedRequest head route peer secure (s.toCome.take head.contentLength)) wire ∧
        t.buffered = s.buffered.drop head.contentLength ∧
        t.toCome = s.toCome.drop head.contentLength) (fun _ _ => True) := by
    rw [handleStreamingBody]
    simp only [hroute]
    by_cases hupgrade : isWebsocketUpgrade (head.intoRequest []) = true
    · rw [if_pos hupgrade]
      exact .inl rfl
    · rw [if_neg hupgrade, forwardOn]
      have hmethod : env.connectWithRetry route (head.intoRequest []).method = .ok () := hconnect
      simp only [hmethod, wp_bind, wp_pure]
      cases env.acquireUpstreamPermit with
      | error e => trivial
      | ok _ =>
        rw [wp_ofExcept_ok]
        refine wp_mono (wp_writeStreaming (acceptedHead_of_parse hhead) s) (fun _ u hu => ?_)
          (fun _ _ _ => trivial)
        obtain ⟨wire, hwritten, henough, hreads, hbuffered, hcome⟩ := hu
        -- the response does not touch what the request left
        refine wp_mono (relays_streamUpstreamResponse _ u) (fun _ t ht => .inr ⟨wire, ?_⟩)
          (fun _ _ _ => trivial)
        refine ⟨ht.written.trans hwritten, henough, hreads, ht.buffered.trans hbuffered, ?_⟩
        rw [Exchange.toCome, ht.buffered, ht.client]
        exact hcome
  rcases wp_ok hspec hrun with hnone | hsome
  · cases hnone
  · exact hsome

/-! ## A sample -/

/-- A network in which every connection is made. -/
def reachableEnv : ProxyEnv :=
  { acquireUpstreamPermit := .ok ()
    connectWithRetry := fun _ _ => .ok ()
    websocket := fun _ _ => pure ()
    qPositive := fun _ => none
    encoder := FastCgi.plainParams.encoder }

/-- A head whose body is to come. -/
def postHead : HttpRequestHead :=
  { method := .post
    uri := "/api/x".toList
    version := "HTTP/1.1".toList
    headers := [("Host".toList, "a".toList), ("Content-Length".toList, "2".toList)]
    contentLength := 2
    headerLen := 52 }

/-- One byte of the body is buffered, the other comes with the next request. -/
def postExchange : Exchange :=
  { FastCgi.exchangeWith (utf8 "HTTP/1.1 200 OK\r\nContent-Length: 0\r\n\r\n".toList) with
    client := { bytes := utf8 "iGET".toList, choices := [], closed := true }
    buffered := utf8 "h".toList }

/-- The two bytes of the body go upstream, and what follows them stays. -/
theorem streams_one_request_sample : ∃ t wire,
    (handleStreamingBody reachableEnv { proxyRoutes := [sampleRoute] } (.v4 127 0 0 1) false
      postHead).run postExchange = .ok (some true) t ∧ t.written = wire ∧
      ReadsAs (forwardedRequest postHead sampleRoute (.v4 127 0 0 1) false (utf8 "hi".toList)) wire ∧
      t.toCome = utf8 "GET".toList := by
  have hrun := eq_ok_of_valueOf (show valueOf ((handleStreamingBody reachableEnv
    { proxyRoutes := [sampleRoute] } (.v4 127 0 0 1) false postHead).run postExchange) =
      some (some true) by decide +kernel)
  obtain ⟨wire, hwritten, -, hreads, -, hcome⟩ := streams_one_request reachableEnv {}
    { proxyRoutes := [sampleRoute] } (.v4 127 0 0 1) false
    (utf8 "POST /api/x HTTP/1.1\r\nHost: a\r\nContent-Length: 2\r\n\r\n".toList) postHead sampleRoute
    true postExchange _ (by decide) (by decide) rfl hrun
  exact ⟨_, wire, hrun, hwritten, hreads, hcome⟩

end Veysrs.Proxy
