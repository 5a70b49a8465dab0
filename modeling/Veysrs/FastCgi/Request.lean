import Veysrs.Core.Net
import Veysrs.FastCgi.Response
import Veysrs.Http2.Request

/-!
# FastCGI requests

`server/fastcgi.rs` from the choice of a route to the last record of a request: `select_route`,
`build_params`, the record writers and the three functions that use them, `handle`,
`handle_streaming_body` and `begin_h2_response`.  What the file system and the network answer is
`FastCgiEnv`.

What is written reads back record by record (`parseAll_wireOf`), so a request stream is described by
its records (`requestItems`), and a writer by the records it sends (`run_writeRequest`,
`run_writeH2Request`, `wp_writeStreamingRequest`).  Two of the three writers end the parameters with
an empty record, as the protocol asks; `handle` does not (`request_stream_iff`).
-/

namespace Veysrs

open Core List

namespace FastCgi

/-! ## Routes -/

/-- What the file system and the network answer. -/
structure FastCgiEnv where
  requestPathIsSafe : HttpRequest → ServerConfig → Bool
  requestHasStaticTarget : HttpRequest → ServerConfig → Bool
  /-- Both roots made canonical, and whether the route's lies beneath the server's. -/
  rootsNested : FastCgiRoute → Except IoError Bool
  /-- The script at a path beneath a document root, or why there is none. -/
  secureScriptPath : Str → Str → Except String Str
  acquireUpstreamPermit : Except IoError Unit
  connect : FastCgiRoute → Except IoError Unit
  /-- Whether a quality of `Accept-Encoding` is above zero. -/
  qPositive : Str → Option Bool
  encoder : GzEncoder

/-- `max_by_key(|route| route.prefix.len())`: of the longest, the last. -/
def longestRoute (routes : List FastCgiRoute) : Option FastCgiRoute :=
  routes.foldl (fun best route => match best with
    | none => some route
    | some b =>
      if (utf8 b.routePrefix).length ≤ (utf8 route.routePrefix).length then some route else best)
    none

/-- The host that routes are compared with. -/
def routeHost (req : HttpRequest) : Str :=
  toAsciiLowercase (((req.getHeader "Host").getD []).takeWhile (· ≠ ':'))

/-- The longest route for the host whose prefix starts `path`. -/
def routeFor (req : HttpRequest) (config : ServerConfig) (path : Str) : Option FastCgiRoute :=
  longestRoute (config.fastcgiRoutes.filter fun route =>
    (route.host = "*".toList || route.host = routeHost req) && route.routePrefix.isPrefixOf path)

/-- The part of the URI before the query. -/
def requestPath (req : HttpRequest) : Str := req.uri.takeWhile (· ≠ '?')

def selectRoute (env : FastCgiEnv) (req : HttpRequest) (config : ServerConfig) :
    Option (FastCgiRoute × Option Str) :=
  if !env.requestPathIsSafe req config then none
  else match routeFor req config req.uri with
    | some route => some (route, none)
    | none =>
      match config.frontController with
      | none => none
      | some controller =>
        if requestPath req = "/metrics".toList || env.requestHasStaticTarget req config then none
        else (routeFor req config controller).map fun route => (route, some controller)

def routeMatchesRequest (env : FastCgiEnv) (req : HttpRequest) (config : ServerConfig) : Bool :=
  (selectRoute env req config).isSome

/-! ## Scripts -/

/-- `char::to_digit(16)`. -/
def hexDigit (b : UInt8) : Option ℕ :=
  if 0x30 ≤ b ∧ b ≤ 0x39 then some (b.toNat - 0x30)
  else if 0x41 ≤ b ∧ b ≤ 0x46 then some (b.toNat - 0x41 + 10)
  else if 0x61 ≤ b ∧ b ≤ 0x66 then some (b.toNat - 0x61 + 10)
  else none

/-- The loop of `percent_decode`. -/
def percentDecodeBytes : Bytes → Option Bytes
  | [] => some []
  | b :: rest =>
    if b = 0x25 then
      match rest with
      | hi :: lo :: rest => do
          let hi ← hexDigit hi
          let lo ← hexDigit lo
          let decoded ← percentDecodeBytes rest
          return UInt8.ofNat (hi * 16 + lo) :: decoded
      | _ => none
    else (percentDecodeBytes rest).map (b :: ·)

def percentDecode (input : Str) : Option Str := (percentDecodeBytes (utf8 input)).bind fromUtf8

def scriptPathForUri (env : FastCgiEnv) (route : FastCgiRoute) (req : HttpRequest)
    (scriptUri : Option Str) : Except IoError Str :=
  match percentDecode (scriptUri.getD (requestPath req)) with
  | none => .error ⟨.invalidInput, "invalid request path"⟩
  | some decoded =>
    let relative := decoded.dropWhile (· = '/')
    if relative.isEmpty || (relative.splitOn '/').any fun part =>
        part.isEmpty || part = ".".toList || part = "..".toList then
      .error ⟨.permissionDenied, "invalid FastCGI script path"⟩
    else match env.secureScriptPath route.documentRoot relative with
      | .ok script => .ok script
      | .error e => .error ⟨.permissionDenied,
          "FastCGI script is not safely beneath document root: " ++ e⟩

/-! ## Parameters -/

/-- `encode_len`: one byte, or four with the top bit set. -/
def encodeLen (len : ℕ) : Bytes :=
  if len < 128 then [UInt8.ofNat len]
  else
    let n := (len % 2 ^ 32) ||| 0x80000000
    [UInt8.ofNat (n / 2 ^ 24), UInt8.ofNat (n / 2 ^ 16), UInt8.ofNat (n / 2 ^ 8), UInt8.ofNat n]

def appendParam (name value : Bytes) : Bytes :=
  encodeLen name.length ++ encodeLen value.length ++ name ++ value

def httpParamName (name : Str) : Str :=
  "HTTP_".toList ++ (name.map fun c => if c = '-' then '_' else c).map Char.toUpper

/-- The parameters of a request, in order. -/
def paramsOf (req : HttpRequest) (route : FastCgiRoute) (script : Str) (scriptUri : Option Str)
    (secure : Bool) (peer : IpAddr) (bodyLength : ℕ) : Headers :=
  let path := scriptUri.getD (requestPath req)
  let query := ((splitOnce '?' req.uri).map Prod.snd).getD []
  [("REQUEST_METHOD".toList, req.method.text), ("QUERY_STRING".toList, query),
    ("CONTENT_TYPE".toList, (req.getHeader "Content-Type").getD []),
    ("CONTENT_LENGTH".toList, decimal bodyLength), ("SCRIPT_FILENAME".toList, script),
    ("SCRIPT_NAME".toList, path), ("REQUEST_URI".toList, req.uri), ("DOCUMENT_URI".toList, path),
    ("DOCUMENT_ROOT".toList, route.documentRoot),
    ("SERVER_NAME".toList, (req.getHeader "Host").getD []),
    ("SERVER_PORT".toList, if secure then "443".toList else "80".toList),
    ("SERVER_PROTOCOL".toList, req.version), ("REMOTE_ADDR".toList, peer.text),
    ("HTTPS".toList, if secure then "on".toList else "off".toList)] ++
  (req.headers.filter fun header =>
    !eqIgnoreAsciiCase header.1 "Content-Type".toList &&
      !eqIgnoreAsciiCase header.1 "Content-Length".toList).map fun header =>
    (httpParamName header.1, header.2)

def buildParams (req : HttpRequest) (route : FastCgiRoute) (script : Str) (scriptUri : Option Str)
    (secure : Bool) (peer : IpAddr) (bodyLength : ℕ) : Bytes :=
  (paramsOf req route script scriptUri secure peer bodyLength).flatMap fun param =>
    appendParam (utf8 param.1) (utf8 param.2)

/-! ## Records -/

def maxRecord : ℕ := 65535

/-- The record `send_record` writes: padded with zeros to a multiple of eight. -/
def recordOf (kind : UInt8) (content : Bytes) (h : content.length < 65536) : Core.FastCgi.Record :=
  { kind
    content
    padding := List.replicate ((8 - content.length % 8) % 8) 0
    reserved := 0
    content_fits := h
    padding_fits := by rw [length_replicate]; omega }

def sendRecord (kind : UInt8) (content : Bytes) : ExchangeM Unit :=
  if h : content.length < 65536 then writeUpstream (recordOf kind content h).encode
  else throw ⟨.invalidInput, "FastCGI record too large"⟩

def sendAllRecords (kind : UInt8) : List Bytes → ExchangeM Unit
  | [] => pure ()
  | chunk :: rest => do
      sendRecord kind chunk
      sendAllRecords kind rest

def sendRecords (kind : UInt8) (data : Bytes) : ExchangeM Unit :=
  sendAllRecords kind (chunks maxRecord data)

/-- The content of the first record: the responder role, and no flags. -/
def beginContent : Bytes := [0, 1, 0, 0, 0, 0, 0, 0]

def sendBegin : ExchangeM Unit := sendRecord Core.FastCgi.beginRequest beginContent

/-! ## The three writers -/

def responseParams (env : FastCgiEnv) (config : ServerConfig) (req : HttpRequest) (head : Bool) :
    ResponseParams :=
  { maxHeaders := min config.maxHeaderSize maxResponseHeaders
    head
    acceptGzip := acceptsGzip env.qPositive (req.getHeader "Accept-Encoding")
    compressionLevel := config.compressionLevel
    encoder := env.encoder }

/-- `matches!(method, Get | Head | Post)`. -/
def servedMethod : Method → Bool
  | .get | .head | .post => true
  | .other _ => false

/-- The part of `handle` that writes the request. -/
def writeRequest (params body : Bytes) : ExchangeM Unit := do
  sendBegin
  sendRecords Core.FastCgi.params params
  sendRecords Core.FastCgi.stdin body
  sendRecord Core.FastCgi.stdin []

/-- The part of `handle_streaming_body` that writes the request. -/
def writeStreamingRequest (params : Bytes) (contentLength : ℕ) : ExchangeM Unit := do
  sendBegin
  sendRecords Core.FastCgi.params params
  sendRecord Core.FastCgi.params []
  streamBody (sendRecords Core.FastCgi.stdin) contentLength
  sendRecord Core.FastCgi.stdin []

/-- The part of `begin_h2_response` that writes the request. -/
def writeH2Request (params body : Bytes) : ExchangeM Unit := do
  sendBegin
  sendRecords Core.FastCgi.params params
  sendRecord Core.FastCgi.params []
  sendRecords Core.FastCgi.stdin body
  sendRecord Core.FastCgi.stdin []

section Handlers

variable (env : FastCgiEnv) (config : ServerConfig) (secure : Bool) (peer : IpAddr)

def handle (req : HttpRequest) : ExchangeM (Option Bool) :=
  match selectRoute env req config with
  | none => return none
  | some (route, scriptUri) =>
    if !servedMethod req.method then do
      sendError .methodNotAllowed "method not supported by FastCGI"
      return some true
    else do
      let nested ← MonadExcept.ofExcept (env.rootsNested route)
      if !nested then
        sendError badGateway "FastCGI document root is outside the vhost root"
        return some true
      else
        let script ← MonadExcept.ofExcept (scriptPathForUri env route req scriptUri)
        MonadExcept.ofExcept (env.connect route)
        writeRequest (buildParams req route script scriptUri secure peer req.body.length) req.body
        streamResponse (responseParams env config req (req.method = .head))
        return some true

def handleStreamingBody (head : HttpRequestHead) : ExchangeM (Option Bool) :=
  let request := head.intoRequest []
  match selectRoute env request config with
  | none => return none
  | some (route, scriptUri) =>
    if request.method ≠ .post then return none
    else do
      let nested ← MonadExcept.ofExcept (env.rootsNested route)
      if !nested then
        sendError badGateway "FastCGI document root is outside the vhost root"
        return some true
      else
        let script ← MonadExcept.ofExcept (scriptPathForUri env route request scriptUri)
        MonadExcept.ofExcept (env.connect route)
        writeStreamingRequest
          (buildParams request route script scriptUri secure peer head.contentLength)
          head.contentLength
        streamResponse (responseParams env config request false)
        return some true

/-- `begin_h2_response`, up to the response still to come: whether there is one. -/
def beginH2Response (req : HttpRequest) : ExchangeM Bool :=
  match selectRoute env req config with
  | none => return false
  | some (route, scriptUri) =>
    if !servedMethod req.method then return false
    else do
      let nested ← MonadExcept.ofExcept (env.rootsNested route)
      if !nested then
        throw ⟨.permissionDenied, "FastCGI document root outside vhost root"⟩
      else
        let script ← MonadExcept.ofExcept (scriptPathForUri env route req scriptUri)
        MonadExcept.ofExcept env.acquireUpstreamPermit
        MonadExcept.ofExcept (env.connect route)
        writeH2Request (buildParams req route script scriptUri secure peer req.body.length)
          req.body
        return true

end Handlers

/-! ## What is written -/

/-- A record on the wire; `send_record` refuses content that does not fit. -/
def recordBytes (item : UInt8 × Bytes) : Bytes :=
  if h : item.2.length < 65536 then (recordOf item.1 item.2 h).encode else []

def wireOf (items : List (UInt8 × Bytes)) : Bytes := items.flatMap recordBytes

/-- What is written reads back. -/
lemma parseAll_wireOf {items : List (UInt8 × Bytes)} (h : ∀ item ∈ items, item.2.length < 65536) :
    Core.FastCgi.parseAll (wireOf items) = some items := by
  have hr : ∃ records : List Core.FastCgi.Record,
      wireOf items = records.flatMap Core.FastCgi.Record.encode ∧
        records.map Core.FastCgi.Record.item = items := by
    induction items with
    | nil => exact ⟨[], rfl, rfl⟩
    | cons item items ih =>
      obtain ⟨records, hw, hit⟩ := ih fun i hi => h i (mem_cons_of_mem _ hi)
      have hf := h item mem_cons_self
      refine ⟨recordOf item.1 item.2 hf :: records, ?_, ?_⟩
      · rw [wireOf, flatMap_cons, recordBytes, dif_pos hf, flatMap_cons, ← hw,
          wireOf]
      · rw [map_cons, hit]
        rfl
  obtain ⟨records, hw, hit⟩ := hr
  rw [hw, Core.FastCgi.parseAll_encodeAll, hit]

/-- The contents of one kind. -/
def ofKind (kind : UInt8) (contents : List Bytes) : List (UInt8 × Bytes) := contents.map (kind, ·)

lemma run_sendRecord (kind : UInt8) {content : Bytes} (h : content.length < 65536) (s : Exchange) :
    (sendRecord kind content).run s =
      .ok () { s with written := s.written ++ wireOf (ofKind kind [content]) } := by
  rw [sendRecord]
  simp [wireOf, ofKind, recordBytes, h]
  rfl

lemma run_sendAllRecords (kind : UInt8) {contents : List Bytes}
    (h : ∀ content ∈ contents, content.length < 65536) (s : Exchange) :
    (sendAllRecords kind contents).run s =
      .ok () { s with written := s.written ++ wireOf (ofKind kind contents) } := by
  induction contents generalizing s with
  | nil => simp [sendAllRecords, wireOf, ofKind]
  | cons content contents ih =>
    have hf := run_sendRecord kind (h content mem_cons_self) s
    have hr := ih (fun c hc => h c (mem_cons_of_mem _ hc))
    rw [sendAllRecords, run_bind_eq_ok]
    refine ⟨(), _, hf, ?_⟩
    rw [hr]
    simp [wireOf, ofKind]

lemma chunk_fits {data content : Bytes} (h : content ∈ chunks maxRecord data) :
    content ≠ [] ∧ content.length ≤ 65535 :=
  chunks_spec (by decide) data content h

lemma run_sendRecords (kind : UInt8) (data : Bytes) (s : Exchange) :
    (sendRecords kind data).run s =
      .ok () { s with written := s.written ++ wireOf (ofKind kind (chunks maxRecord data)) } :=
  run_sendAllRecords kind (fun _ h => Nat.lt_succ_of_le (chunk_fits h).2) s

/-- A request as the responder expects it: the beginning, parameters and body in any number of
records, and after each of the two an empty record. -/
def requestItems (params body : List Bytes) : List (UInt8 × Bytes) :=
  (Core.FastCgi.beginRequest, beginContent) :: ofKind Core.FastCgi.params (params ++ [[]]) ++
    ofKind Core.FastCgi.stdin (body ++ [[]])

def WellFormedRequest (params body wire : Bytes) : Prop :=
  ∃ paramPieces bodyPieces : List Bytes,
    Core.FastCgi.parseAll wire = some (requestItems paramPieces bodyPieces) ∧
    paramPieces.flatten = params ∧ bodyPieces.flatten = body ∧
    ∀ content ∈ paramPieces ++ bodyPieces, content ≠ [] ∧ content.length ≤ 65535

lemma mem_ofKind {kind : UInt8} {contents : List Bytes} {item : UInt8 × Bytes}
    (h : item ∈ ofKind kind contents) : item.1 = kind ∧ item.2 ∈ contents := by
  obtain ⟨content, hm, rfl⟩ := mem_map.mp h
  exact ⟨rfl, hm⟩

/-- Pieces that fit, sent with the two empty records, are a well-formed request. -/
lemma wellFormedRequest_wireOf {params body : List Bytes}
    (h : ∀ content ∈ params ++ body, content ≠ [] ∧ content.length ≤ 65535) :
    WellFormedRequest params.flatten body.flatten (wireOf (requestItems params body)) := by
  refine ⟨params, body, parseAll_wireOf fun item hi => ?_, rfl, rfl, h⟩
  have hf : ∀ {kind : UInt8} {contents : List Bytes},
      (∀ c ∈ contents, c ∈ params ++ body) → item ∈ ofKind kind (contents ++ [[]]) →
        item.2.length < 65536 := by
    intro kind contents hs hm
    rcases mem_append.mp (mem_ofKind hm).2 with hc | hl
    · exact Nat.lt_succ_of_le (h _ (hs _ hc)).2
    · rw [mem_singleton.mp hl]
      decide
  rcases mem_append.mp hi with hfi | hb
  · rcases mem_cons.mp hfi with rfl | hp
    · decide
    · exact hf (fun _ => mem_append_left _) hp
  · exact hf (fun _ => mem_append_right _) hb

/-- With the parameters cut by `send_records` and the body in any pieces that fit. -/
lemma wellFormedRequest_chunks {params body : Bytes} {pieces : List Bytes}
    (hp : ∀ piece ∈ pieces, piece ≠ [] ∧ piece.length ≤ 65535)
    (hf : pieces.flatten = body) :
    WellFormedRequest params body ([] ++ wireOf (requestItems (chunks maxRecord params) pieces)) := by
  have h := wellFormedRequest_wireOf
    (show ∀ content ∈ chunks maxRecord params ++ pieces, content ≠ [] ∧ content.length ≤ 65535 from
    fun content hm => (mem_append.mp hm).elim chunk_fits (hp content))
  rwa [flatten_chunks, hf] at h

lemma run_writeH2Request (params body : Bytes) (s : Exchange) :
    (writeH2Request params body).run s = .ok () { s with
        written := s.written ++
          wireOf (requestItems (chunks maxRecord params) (chunks maxRecord body)) } := by
  simp only [writeH2Request, run_bind_eq_ok]
  refine ⟨_, _, run_sendRecord _ (by decide) s, _, _, run_sendRecords _ _ _, _, _,
    run_sendRecord _ (by decide) _, _, _, run_sendRecords _ _ _, ?_⟩
  rw [run_sendRecord _ (by decide)]
  simp [requestItems, wireOf, ofKind]

/-- The records of `handle`: none ends the parameters. -/
def handleItems (params body : List Bytes) : List (UInt8 × Bytes) :=
  (Core.FastCgi.beginRequest, beginContent) :: ofKind Core.FastCgi.params params ++
    ofKind Core.FastCgi.stdin (body ++ [[]])

lemma run_writeRequest (params body : Bytes) (s : Exchange) :
    (writeRequest params body).run s = .ok () { s with
        written := s.written ++
          wireOf (handleItems (chunks maxRecord params) (chunks maxRecord body)) } := by
  simp only [writeRequest, run_bind_eq_ok]
  refine ⟨_, _, run_sendRecord _ (by decide) s, _, _, run_sendRecords _ _ _, _, _,
    run_sendRecords _ _ _, ?_⟩
  rw [run_sendRecord _ (by decide)]
  simp [handleItems, wireOf, ofKind]

/-- Without an empty record after the parameters a request is not well formed. -/
lemma not_wellFormedRequest {params body wire : Bytes}
    (h : (Core.FastCgi.parseAll wire).all (fun items => !items.contains (Core.FastCgi.params, []))) :
    ¬WellFormedRequest params body wire := by
  rintro ⟨paramPieces, bodyPieces, hp, -, -, -⟩
  rw [hp] at h
  simp [requestItems, ofKind] at h

lemma not_wellFormedRequest_handleItems {params body : List Bytes} {all text : Bytes}
    (h : ∀ content ∈ params ++ body, content ≠ [] ∧ content.length ≤ 65535) :
    ¬WellFormedRequest all text ([] ++ wireOf (handleItems params body)) := by
  have hi : ∀ item ∈ handleItems params body, item.2.length < 65536 ∧
      item ≠ (Core.FastCgi.params, []) := by
    intro item hi
    rcases mem_append.mp hi with hf | hb
    · rcases mem_cons.mp hf with rfl | hp
      · decide
      · have hc := h _ (mem_append_left _ (mem_ofKind hp).2)
        exact ⟨Nat.lt_succ_of_le hc.2, fun heq => hc.1 (congrArg Prod.snd heq)⟩
    · refine ⟨?_, fun heq => ?_⟩
      · rcases mem_append.mp (mem_ofKind hb).2 with hc | hl
        · exact Nat.lt_succ_of_le (h _ (mem_append_right _ hc)).2
        · rw [mem_singleton.mp hl]
          decide
      · exact absurd ((mem_ofKind hb).1.symm.trans (congrArg Prod.fst heq)) (by decide)
  refine not_wellFormedRequest ?_
  rw [nil_append, parseAll_wireOf fun item hm => (hi item hm).1]
  simp only [Option.all_some, Bool.not_eq_true', contains_eq_mem, decide_eq_false_iff_not]
  exact fun hm => (hi _ hm).2 rfl

/-- The pieces of the pieces of a body. -/
lemma flatten_flatMap_chunks (pieces : List Bytes) :
    (pieces.flatMap (chunks maxRecord)).flatten = pieces.flatten := by
  induction pieces with
  | nil => rfl
  | cons piece pieces ih =>
    rw [flatMap_cons, flatten_append, flatten_chunks, ih, flatten_cons]

lemma wp_writeStreamingRequest (params : Bytes) (n : ℕ) (s : Exchange) :
    wp (writeStreamingRequest params n) s
      (fun _ t => ∃ pieces : List Bytes,
        (∀ piece ∈ pieces, piece ≠ [] ∧ piece.length ≤ 65535) ∧
        pieces.flatten = s.toCome.take n ∧
        t.written = s.written ++ wireOf (requestItems (chunks maxRecord params) pieces))
      (fun _ _ => ¬(s.client.Delivers ∧ n ≤ s.toCome.length)) := by
  simp only [writeStreamingRequest, sendBegin, wp_bind]
  rw [wp_of_run_eq_ok (run_sendRecord _ (by decide) s), wp_of_run_eq_ok (run_sendRecords _ _ _),
    wp_of_run_eq_ok (run_sendRecord _ (by decide) _)]
  refine wp_mono (wp_streamBody (run_sendRecords _) n _) (fun _ t ht => ?_) (fun _ _ h => h)
  rw [wp_of_run_eq_ok (run_sendRecord _ (by decide) _)]
  obtain ⟨pieces, -, hf, hw⟩ := ht.pieces
  refine ⟨pieces.flatMap (chunks maxRecord), fun piece hp => ?_, ?_, ?_⟩
  · obtain ⟨data, -, hc⟩ := mem_flatMap.mp hp
    exact chunk_fits hc
  · rw [flatten_flatMap_chunks, hf]
    rfl
  · rw [hw]
    simp [requestItems, wireOf, ofKind, flatMap_assoc, map_flatMap]

/-! ## The three calls -/

/-- A call of one of the functions that write a request. -/
inductive Call where
  | handle (req : HttpRequest)
  | handleStreamingBody (head : HttpRequestHead)
  | beginH2Response (req : HttpRequest)
  deriving DecidableEq, Repr

namespace Call

def request : Call → HttpRequest
  | handle req | beginH2Response req => req
  | handleStreamingBody head => head.intoRequest []

/-- The length of the body. -/
def bodyLength : Call → ℕ
  | handle req | beginH2Response req => req.body.length
  | handleStreamingBody head => head.contentLength

/-- The body: what came with the request, or what the client sends next. -/
def body (s : Exchange) : Call → Bytes
  | handle req | beginH2Response req => req.body
  | handleStreamingBody head => s.toCome.take head.contentLength

def isHandle : Call → Bool
  | handle _ => true
  | _ => false

def run (env : FastCgiEnv) (config : ServerConfig) (secure : Bool) (peer : IpAddr) :
    Call → ExchangeM Unit
  | handle req => do
      let _ ← FastCgi.handle env config secure peer req
  | handleStreamingBody head => do
      let _ ← FastCgi.handleStreamingBody env config secure peer head
  | beginH2Response req => do
      let _ ← FastCgi.beginH2Response env config secure peer req

/-- The call gets to its upstream: there is a route, the method is served, the roots are nested, the
script exists, the connection is made, and a client whose body is still to come sends it. -/
structure Reaches (call : Call) (env : FastCgiEnv) (config : ServerConfig) (s : Exchange)
    (route : FastCgiRoute) (scriptUri : Option Str) (script : Str) : Prop where
  selected : selectRoute env call.request config = some (route, scriptUri)
  served : servedMethod call.request.method = true
  nested : env.rootsNested route = .ok true
  located : scriptPathForUri env route call.request scriptUri = .ok script
  permitted : ∀ req, call = .beginH2Response req → env.acquireUpstreamPermit = .ok ()
  connects : env.connect route = .ok ()
  posted : ∀ head, call = .handleStreamingBody head → head.method = .post ∧
    s.client.Delivers ∧ head.contentLength ≤ s.toCome.length

end Call

/-- Relaying a response changes nothing about what was written. -/
lemma wp_of_relays {α : Type} {x : ExchangeM α} (hx : Moves Relays x) {s : Exchange}
    {P : Bytes → Prop} (h : P s.written) :
    wp x s (fun _ t => P t.written) (fun _ t => P t.written) :=
  wp_mono (hx s) (fun _ _ ht => ht.written ▸ h) (fun _ _ ht => ht.written ▸ h)

/-- The response is relayed and the call is over. -/
lemma relays_finish (p : ResponseParams) :
    Moves Relays ((streamResponse p >>= fun _ => pure (some true)) >>= fun _ => pure ()) :=
  ((relays_streamResponse p).bind fun _ => moves_pure _).bind fun _ => moves_pure _

/-- A request stream is well formed if and only if it is not written by `handle`. -/
theorem request_stream_iff (env : FastCgiEnv) (config : ServerConfig) (secure : Bool)
    (peer : IpAddr) (call : Call) (s : Exchange) (route : FastCgiRoute) (scriptUri : Option Str)
    (script : Str) (h : call.Reaches env config s route scriptUri script) :
    WellFormedRequest
      (buildParams call.request route script scriptUri secure peer call.bodyLength) (call.body s)
      (stateOf ((call.run env config secure peer).run { s with written := [] })).written ↔
    call.isHandle = false := by
  refine wp_stateOf (P := fun t : Exchange =>
    WellFormedRequest _ _ t.written ↔ call.isHandle = false) ?_
  cases call with
  | handle req =>
    have hselected : selectRoute env req config = some (route, scriptUri) := h.selected
    have hserved : servedMethod req.method = true := h.served
    have hlocated : scriptPathForUri env route req scriptUri = .ok script := h.located
    simp only [Call.run, FastCgi.handle, hselected, hserved, h.nested, hlocated, h.connects,
      Bool.not_true, Bool.false_eq_true, if_false, wp_bind, wp_ofExcept_ok]
    rw [wp_of_run_eq_ok (run_writeRequest _ _ _), ← wp_bind, ← wp_bind]
    refine wp_of_relays (P := fun w => WellFormedRequest _ _ w ↔ _) (relays_finish _)
      (iff_of_false (not_wellFormedRequest_handleItems fun content hmem => ?_)
        (by simp [Call.isHandle]))
    exact (mem_append.mp hmem).elim chunk_fits chunk_fits
  | handleStreamingBody head =>
    obtain ⟨hpost, hdelivers, henough⟩ := h.posted head rfl
    have hselected : selectRoute env (head.intoRequest []) config = some (route, scriptUri) :=
      h.selected
    have hlocated : scriptPathForUri env route (head.intoRequest []) scriptUri = .ok script :=
      h.located
    have hmethod : ¬(head.intoRequest []).method ≠ .post := not_not_intro hpost
    simp only [Call.run, FastCgi.handleStreamingBody, hselected, if_neg hmethod, h.nested,
      hlocated, h.connects, Bool.not_true, Bool.false_eq_true, if_false, wp_bind, wp_ofExcept_ok]
    refine wp_mono (wp_writeStreamingRequest _ _ _) (fun _ t ht => ?_)
      (fun _ _ hfail => absurd ⟨hdelivers, henough⟩ hfail)
    obtain ⟨pieces, hpieces, hflat, hwritten⟩ := ht
    rw [← wp_bind, ← wp_bind]
    refine wp_of_relays (P := fun w => WellFormedRequest _ _ w ↔ _) (relays_finish _)
      (iff_of_true ?_ rfl)
    rw [hwritten]
    exact wellFormedRequest_chunks hpieces hflat
  | beginH2Response req =>
    have hselected : selectRoute env req config = some (route, scriptUri) := h.selected
    have hserved : servedMethod req.method = true := h.served
    have hlocated : scriptPathForUri env route req scriptUri = .ok script := h.located
    simp only [Call.run, FastCgi.beginH2Response, hselected, hserved, h.nested, hlocated,
      h.connects, h.permitted req rfl, Bool.not_true, Bool.false_eq_true, if_false, wp_bind,
      wp_ofExcept_ok]
    rw [wp_of_run_eq_ok (run_writeH2Request _ _ _)]
    simp only [wp_pure]
    exact iff_of_true (wellFormedRequest_chunks (fun _ => chunk_fits) (flatten_chunks _ _)) rfl

/-- A responder for every script beneath `/srv`, which nothing keeps from being reached. -/
def openEnv : FastCgiEnv :=
  { requestPathIsSafe := fun _ _ => true
    requestHasStaticTarget := fun _ _ => false
    rootsNested := fun _ => .ok true
    secureScriptPath := fun root script => .ok (root ++ '/' :: script)
    acquireUpstreamPermit := .ok ()
    connect := fun _ => .ok ()
    qPositive := fun _ => none
    encoder := plainParams.encoder }

def phpRoute : FastCgiRoute :=
  { host := "*".toList, routePrefix := "/".toList, endpoint := "tcp://127.0.0.1:9000".toList,
    documentRoot := "/srv".toList }

def phpRequest : HttpRequest :=
  { method := .post, uri := "/a.php".toList, version := "HTTP/1.1".toList,
    headers := [("Host".toList, "h".toList)], body := [0x78, 0x79] }

/-- The same body over HTTP/2. -/
theorem request_stream_sample :
    WellFormedRequest
      (buildParams phpRequest phpRoute "/srv/a.php".toList none false (.v4 127 0 0 1) 2) [0x78, 0x79]
      (stateOf (((Call.beginH2Response phpRequest).run openEnv { fastcgiRoutes := [phpRoute] } false
        (.v4 127 0 0 1)).run { exchangeWith [] with written := [] })).written :=
  (request_stream_iff openEnv { fastcgiRoutes := [phpRoute] } false (.v4 127 0 0 1)
    (.beginH2Response phpRequest) (exchangeWith []) phpRoute none "/srv/a.php".toList
    { selected := by decide
      served := rfl
      nested := rfl
      located := by decide +kernel
      permitted := fun _ _ => rfl
      connects := rfl
      posted := by simp }).mpr rfl

/-- `handle` sends the same request without the record that ends the parameters. -/
theorem parameters_unended :
    ¬WellFormedRequest
      (buildParams phpRequest phpRoute "/srv/a.php".toList none false (.v4 127 0 0 1) 2) [0x78, 0x79]
      (stateOf (((Call.handle phpRequest).run openEnv { fastcgiRoutes := [phpRoute] } false
        (.v4 127 0 0 1)).run { exchangeWith [] with written := [] })).written :=
  not_wellFormedRequest (by decide +kernel)

end FastCgi

end Veysrs
