import Veysrs.Core.FastCgi
import Veysrs.Server.Exchange
import Veysrs.Proxy.Route

/-!
# Relaying a FastCGI response over HTTP/1.1

`stream_response` of `server/fastcgi.rs`.  The loop reads a record, acts on it and goes on; what it
does with a record depends on the record and on the loop's variables (`FcgiRelay`) alone, so it is
a function `onRecord` that says what is written to the client and how the loop continues.  Hence a
whole call is a fold over what the upstream delivers (`deliveries`), whatever its bytes are cut into
(`sent_streamResponse`).

A response of the server's own that is written when the relayed head is already out is a second
response in the body of the first.  `onRecord` writes one exactly when the record is a *late
failure*; a call writes at most one head if and only if none of its records is
(`one_head_iff`).
-/

namespace Veysrs

open Core List

namespace FastCgi

def badGateway : StatusCode := .badGateway

def maxResponseHeaders : ℕ := 64 * 1024

def invalidData (message : String) : IoError := ⟨.invalidData, message⟩

/-! ## Response heads -/

def framingSensitive : List String :=
  ["transfer-encoding", "connection", "keep-alive", "proxy-connection", "upgrade"]

def validateFastcgiHeader (name value : Str) : Except IoError Unit :=
  if !Proxy.validHeader name value then .error (invalidData "invalid FastCGI header")
  else if framingSensitive.any fun n => toAsciiLowercase name = n.toList then
    .error (invalidData "framing-sensitive FastCGI header")
  else .ok ()

def parseFastcgiStatus (value : Str) : Except IoError ℕ :=
  let word := (value.dropWhile isWhitespace).takeWhile fun c => !isWhitespace c
  match if word.isEmpty then none else parseUnsigned (2 ^ 16) word with
  | none => .error (invalidData "invalid FastCGI status")
  | some status =>
    if 100 ≤ status ∧ status ≤ 599 then .ok status
    else .error (invalidData "invalid FastCGI status")

/-- What a response head says. -/
structure Head where
  status : ℕ := 200
  headers : Headers := []
  contentLength : Option ℕ := none
  deriving DecidableEq, Repr

def Head.setContentLength (head : Head) (value : Str) : Except IoError Head :=
  match parseUnsigned (2 ^ 64) value with
  | none => .error (invalidData "invalid FastCGI content length")
  | some parsed =>
    if head.contentLength.any (· ≠ parsed) then
      .error (invalidData "conflicting FastCGI content length")
    else .ok { head with contentLength := some parsed }

/-- One line of a head, the same for both versions of HTTP. -/
def scanLine (head : Head) (line : Str) : Except IoError Head :=
  match splitOnce ':' line with
  | none => .error (invalidData "malformed FastCGI header")
  | some (name, value) => do
      let name := trim name
      let value := trim value
      validateFastcgiHeader name value
      if eqIgnoreAsciiCase name "Status".toList then
        let status ← parseFastcgiStatus value
        return { head with status }
      else
        let head ←
          if eqIgnoreAsciiCase name "Content-Length".toList then head.setContentLength value
          else pure head
        return { head with headers := head.headers ++ [(name, value)] }

/-- The head at the front of a response's standard output; `raw` ends with the empty line.  This is
all of `parse_h2_fastcgi_headers`, and the first part of what `stream_response` does with a head. -/
def parseHead (raw : Bytes) : Except IoError Head :=
  match fromUtf8 raw with
  | none => .error (invalidData "invalid FastCGI headers")
  | some text => ((splitCrlf text).filter fun line => !line.isEmpty).foldlM scanLine {}

/-! ## Compression -/

/-- The encoder: what it puts out for a part of its input, after what it has been given before, and
at the end. -/
structure GzEncoder where
  deflate : ℕ → Bytes → Bytes → Bytes
  finish : ℕ → Bytes → Bytes

/-- The media types that are compressed. -/
def compressibleMime (contentType : Str) : Bool :=
  let mime := trim (contentType.takeWhile (· ≠ ';'))
  "text/".toList.isPrefixOf mime ||
    ["application/json", "application/javascript", "application/xml", "image/svg+xml"].any
      fun m => mime = m.toList

/-- The last header of that name. -/
def lastHeader (headers : Headers) (name : String) : Option Str :=
  (headers.reverse.find? fun h => eqIgnoreAsciiCase h.1 name.toList).map Prod.snd

/-- `str::contains`. -/
def contains (needle : String) (s : Str) : Bool := (findSub needle.toList s).isSome

/-- What the response must be like to be compressed. -/
def compressible (status : ℕ) (headers : Headers) : Bool :=
  (200 ≤ status && status ≤ 299) && status ≠ 204 && status ≠ 304 &&
    !(headers.any fun h => eqIgnoreAsciiCase h.1 "Content-Encoding".toList) &&
    !(headers.any fun h => eqIgnoreAsciiCase h.1 "Cache-Control".toList &&
      contains "no-transform" (toAsciiLowercase h.2)) &&
    (lastHeader headers "Content-Type").any fun value => compressibleMime (toAsciiLowercase value)

structure ResponseParams where
  maxHeaders : ℕ
  head : Bool
  acceptGzip : Bool
  compressionLevel : ℕ
  encoder : GzEncoder

/-- A response without compression. -/
def withoutGzip (maxHeaders : ℕ) (method : Method) (level : ℕ) (encoder : GzEncoder) :
    ResponseParams :=
  { maxHeaders
    head := method = .head
    acceptGzip := false
    compressionLevel := level
    encoder }

def ResponseParams.compress (p : ResponseParams) (head : Head) : Bool :=
  p.acceptGzip && !p.head && compressible head.status head.headers

/-- The length of the body that counts: a compressed body has none. -/
def ResponseParams.announced (p : ResponseParams) (head : Head) : Option ℕ :=
  if p.compress head then none else head.contentLength

/-- The bytes of the body that are written: none in answer to `HEAD`. -/
def shown (p : ResponseParams) (body : Bytes) : Bytes := if p.head then [] else body

def reasonPhrase (status : ℕ) : String :=
  match status with
  | 200 => "OK"
  | 201 => "Created"
  | 202 => "Accepted"
  | 204 => "No Content"
  | 301 => "Moved Permanently"
  | 302 => "Found"
  | 400 => "Bad Request"
  | 401 => "Unauthorized"
  | 403 => "Forbidden"
  | 404 => "Not Found"
  | 500 => "Internal Server Error"
  | 502 => "Bad Gateway"
  | 503 => "Service Unavailable"
  | _ => "Upstream Response"

/-- The head written to the client. -/
def headText (p : ResponseParams) (head : Head) : Str :=
  let statusLine :=
    "HTTP/1.1 ".toList ++ decimal head.status ++ ' ' :: (reasonPhrase head.status).toList
  if p.compress head then
    let kept := (head.headers.map headerLine).filter fun line =>
      !"content-length:".toList.isPrefixOf (toAsciiLowercase line)
    joinLines [statusLine, joinLines kept, "Content-Encoding: gzip".toList,
      "Vary: Accept-EncodingConnection: close".toList, [], []]
  else joinLines (statusLine :: head.headers.map headerLine ++
    ["Connection: close".toList, [], []])

/-! ## The loop -/

/-- The variables of the loop.  `gzip` is what the encoder has been given, if there is one. -/
structure FcgiRelay where
  stdout : Bytes := []
  headersSent : Bool := false
  contentLength : Option ℕ := none
  bodyBytes : ℕ := 0
  gzip : Option Bytes := none
  deriving DecidableEq, Repr

/-- How the loop goes on: with the next record, out of the loop, or out of the function. -/
inductive Next where
  | more (relay : FcgiRelay)
  | done (relay : FcgiRelay)
  | refused (message : String)
  | aborted (error : IoError)
  deriving DecidableEq, Repr

/-- What the upstream is seen to send. -/
inductive Received where
  | malformed
  | record (kind : UInt8) (data : Bytes)
  deriving DecidableEq, Repr

/-- A part of the body is written, compressed if so decided. -/
def relayBody (p : ResponseParams) (relay : FcgiRelay) (data : Bytes) : List Sent × FcgiRelay :=
  let relay := { relay with bodyBytes := relay.bodyBytes + data.length }
  if p.head then ([], relay)
  else match relay.gzip with
    | some before =>
      ([.body (p.encoder.deflate p.compressionLevel before data)],
        { relay with gzip := some (before ++ data) })
    | none => ([.body data], relay)

def exceeds (limit : Option ℕ) (n : ℕ) : Bool := limit.any (· < n)

/-- The head is complete at `stop`: it is written, with what follows it. -/
def onHead (p : ResponseParams) (stdout : Bytes) (stop : ℕ) : List Sent × Next :=
  match parseHead (stdout.take stop) with
  | .error e => ([], .aborted e)
  | .ok head =>
    let body := stdout.drop stop
    if exceeds (p.announced head) body.length then
      ([.head (headText p head)], .refused "FastCGI body exceeds Content-Length")
    else
      let relay : FcgiRelay :=
        { headersSent := true
          contentLength := p.announced head
          gzip := if p.compress head then some [] else none }
      let (sent, relay) := relayBody p relay body
      (.head (headText p head) :: sent, .more relay)

def onStdout (p : ResponseParams) (relay : FcgiRelay) (data : Bytes) : List Sent × Next :=
  if relay.headersSent then
    if exceeds relay.contentLength (relay.bodyBytes + data.length) then
      ([], .refused "FastCGI body exceeds Content-Length")
    else
      let (sent, relay) := relayBody p relay data
      (sent, .more relay)
  else
    let stdout := relay.stdout ++ data
    if p.maxHeaders < stdout.length then ([], .refused "FastCGI headers too large")
    else match findSub blankLine stdout with
      | some position => onHead p stdout (position + 4)
      | none => ([], .more { relay with stdout })

/-- Another length was announced than that of the body. -/
def FcgiRelay.mismatched (relay : FcgiRelay) : Bool := relay.contentLength.any (· ≠ relay.bodyBytes)

def onEndRequest (relay : FcgiRelay) (data : Bytes) : Next :=
  if data.length ≠ 8 then .refused "malformed FastCGI END_REQUEST"
  else if relay.mismatched then .refused "FastCGI body length mismatch"
  else .done relay

/-- What a record leads to; standard error only goes to the log. -/
def onRecord (p : ResponseParams) (relay : FcgiRelay) : Received → List Sent × Next
  | .malformed => ([], .refused "malformed FastCGI record")
  | .record kind data =>
    if kind = Core.FastCgi.stdout then onStdout p relay data
    else if kind = Core.FastCgi.endRequest then ([], onEndRequest relay data)
    else ([], .more relay)

/-- After the loop. -/
def onEnd (p : ResponseParams) (relay : FcgiRelay) : List Sent :=
  (if relay.headersSent then [] else [.error badGateway "FastCGI returned no response"]) ++
    (match relay.gzip with
      | some input => [.body (p.encoder.finish p.compressionLevel input)]
      | none => [])

/-- The reading part of the loop's body. -/
def receive : ReadM Received := do
  let header ← readExactly 8
  match header with
  | [version, kind, id1, id0, length1, length0, padding, _] =>
    if version ≠ 1 ∨ [id1, id0] ≠ [0, 1] then return .malformed
    else do
      let data ← readExactly (length1.toNat * 256 + length0.toNat)
      let _ ← readExactly padding.toNat
      return .record kind data
  | _ => throw shortReadError

/-- The loop; every round takes eight bytes at least, so the bytes to come are fuel enough. -/
def streamLoop (p : ResponseParams) : ℕ → FcgiRelay → ExchangeM Unit
  | 0, _ => throw shortReadError
  | fuel + 1, relay => do
      let received ← onUpstream receive
      let (sent, next) := onRecord p relay received
      send sent
      match next with
      | .more relay => streamLoop p fuel relay
      | .done relay => send (onEnd p relay)
      | .refused message => sendError badGateway message
      | .aborted e => throw e

/-- `stream_response`. -/
def streamResponse (p : ResponseParams) : ExchangeM Unit := do
  let s ← get
  streamLoop p (s.upstream.bytes.length + 1) {}

/-! ## A call is a fold over what is received -/

/-- What a source delivers, up to the read that fails. -/
def deliveries : ℕ → Source → List Received
  | 0, _ => []
  | fuel + 1, s =>
    match receive s with
    | .ok received t => received :: deliveries fuel t
    | .error _ _ => []

/-- What is written to the client for what is received. -/
def relayAll (p : ResponseParams) : List Received → FcgiRelay → List Sent
  | [], _ => []
  | received :: rest, relay =>
    match onRecord p relay received with
    | (sent, .more relay) => sent ++ relayAll p rest relay
    | (sent, .done relay) => sent ++ onEnd p relay
    | (sent, .refused message) => sent ++ [.error badGateway message]
    | (sent, .aborted _) => sent

lemma sent_streamLoop (p : ResponseParams) (fuel : ℕ) : ∀ (relay : FcgiRelay) (s : Exchange),
    (stateOf ((streamLoop p fuel relay).run s)).sent =
      s.sent ++ relayAll p (deliveries fuel s.upstream) relay := by
  induction fuel with
  | zero =>
    intro relay s
    exact (append_nil _).symm
  | succ fuel ih =>
    intro relay s
    show (stateOf (EStateM.bind (onUpstream receive) _ s)).sent = _
    unfold EStateM.bind onUpstream
    rw [deliveries]
    cases hre : receive s.upstream with
    | error e upstream => simp [stateOf, relayAll]
    | ok received upstream =>
      simp only [relayAll]
      cases hn : onRecord p relay received with
      | mk sent next =>
        cases next with
        | more relay =>
          have hr := ih relay { s with upstream := upstream, sent := s.sent ++ sent }
          simp only [append_assoc] at hr
          exact hr
        | done relay => exact append_assoc _ _ _
        | refused message => exact append_assoc _ _ _
        | aborted e => rfl

/-- However the upstream's bytes are cut, a call writes what the records in them lead to. -/
lemma sent_streamResponse (p : ResponseParams) (s : Exchange) :
    (stateOf ((streamResponse p).run s)).sent =
      s.sent ++ relayAll p (deliveries (s.upstream.bytes.length + 1) s.upstream) {} :=
  sent_streamLoop p _ _ s

/-- A record as the loop receives it. -/
def received (record : Core.FastCgi.Record) : Received := .record record.kind record.content

lemma receive_encode {s : Source} {record : Core.FastCgi.Record} {rest : Bytes}
    (hs : s.Delivers) (hb : s.bytes = record.encode ++ rest) :
    ∃ t, receive s = .ok (received record) t ∧ t.Delivers ∧ t.bytes = rest := by
  have hl := record.length_fields
  rw [Core.FastCgi.Record.encode, append_assoc, append_assoc] at hb
  obtain ⟨s₁, hh, hs₁, hb₁⟩ := readExactly_append hs hb
  change (readExactly 8).run s = _ at hh
  obtain ⟨s₂, hc, hs₂, hb₂⟩ := readExactly_append hs₁ hb₁
  obtain ⟨s₃, hp, hs₃, hb₃⟩ := readExactly_append hs₂ hb₂
  refine ⟨s₃, ?_, hs₃, hb₃⟩
  show receive.run s = _
  rw [receive, run_bind_of_ok hh]
  simp only [Core.FastCgi.Record.header, hl.1, hl.2, ne_eq, not_true_eq_false, or_self,
    if_false]
  rw [run_bind_of_ok hc, run_bind_of_ok hp]
  rfl

/-- The records a source delivers, however they are cut into reads. -/
lemma deliveries_encode (records : List Core.FastCgi.Record) : ∀ (fuel : ℕ) (s : Source),
    s.Delivers → s.bytes = records.flatMap Core.FastCgi.Record.encode → records.length < fuel →
      deliveries fuel s = records.map received := by
  induction records with
  | nil =>
    intro fuel s hs hb hf
    obtain ⟨fuel, rfl⟩ : ∃ m, fuel = m + 1 := ⟨fuel - 1, by omega⟩
    have hend : s.bytes.length < 8 := by simp [hb]
    obtain ⟨e, t, hsh⟩ := Source.readExact_short hend
    have hr : receive.run s = .error e t :=
      run_bind_of_error (by show readExactly 8 s = _; rw [readExactly, hsh]) _
    rw [deliveries, show receive s = .error e t from hr]
    rfl
  | cons record records ih =>
    intro fuel s hs hb hf
    obtain ⟨fuel, rfl⟩ : ∃ m, fuel = m + 1 := ⟨fuel - 1, by omega⟩
    obtain ⟨t, hr, ht, hre⟩ := receive_encode hs hb
    rw [length_cons] at hf
    rw [deliveries, hr]
    exact congrArg _ (ih fuel t ht hre (by omega))

lemma relays_streamLoop (p : ResponseParams) (fuel : ℕ) :
    ∀ relay, Moves Relays (streamLoop p fuel relay) := by
  induction fuel with
  | zero => exact fun _ => moves_throw _
  | succ fuel ih =>
    intro relay
    refine (relays_onUpstream _).bind fun received => ?_
    rcases onRecord p relay received with ⟨sent, next⟩
    refine (relays_send sent).bind fun _ => ?_
    cases next with
    | more relay => exact ih relay
    | done relay => exact relays_send _
    | refused message => exact relays_sendError _ _
    | aborted e => exact moves_throw e

lemma relays_streamResponse (p : ResponseParams) : Moves Relays (streamResponse p) :=
  moves_get.bind fun _ => relays_streamLoop p _ _

/-! ## At most one response -/

def responsesIn (sent : List Sent) : ℕ := sent.countP Sent.startsResponse

@[simp] lemma responsesIn_nil : responsesIn [] = 0 := rfl

@[simp] lemma responsesIn_head (text : Str) (sent : List Sent) :
    responsesIn (.head text :: sent) = responsesIn sent + 1 :=
  countP_cons_of_pos rfl

@[simp] lemma responsesIn_body (data : Bytes) (sent : List Sent) :
    responsesIn (.body data :: sent) = responsesIn sent :=
  countP_cons_of_neg (by simp [Sent.startsResponse])

@[simp] lemma responsesIn_error (status : StatusCode) (message : String) (sent : List Sent) :
    responsesIn (.error status message :: sent) = responsesIn sent + 1 :=
  countP_cons_of_pos rfl

/-- A part of the body starts no response. -/
@[simp] lemma responsesIn_relayBody (p : ResponseParams) (relay : FcgiRelay) (data : Bytes) :
    responsesIn (relayBody p relay data).1 = 0 := by
  unfold relayBody
  simp only
  split_ifs
  · rfl
  · split <;> rfl

@[simp] lemma headersSent_relayBody (p : ResponseParams) (relay : FcgiRelay) (data : Bytes) :
    (relayBody p relay data).2.headersSent = relay.headersSent := by
  unfold relayBody
  simp only
  split_ifs
  · rfl
  · split <;> rfl

/-- How many responses have been started when the loop has these variables. -/
def FcgiRelay.started (relay : FcgiRelay) : ℕ := if relay.headersSent then 1 else 0

/-- No compression. -/
def plainParams : ResponseParams :=
  { maxHeaders := 1024
    head := false
    acceptGzip := false
    compressionLevel := 6
    encoder := { deflate := fun _ _ data => data, finish := fun _ _ => [] } }

/-- A record as a FastCGI server may write it, without padding. -/
def wireRecord (kind : UInt8) (content : String) : Bytes :=
  [1, kind, 0, 1, 0, UInt8.ofNat content.toList.length, 0, 0] ++ utf8 content.toList

/-- An exchange in which the upstream sends these bytes at once and closes. -/
def exchangeWith (bytes : Bytes) : Exchange :=
  { client := { bytes := [], choices := [], closed := true }
    buffered := []
    sent := []
    upstream := { bytes, choices := [], closed := true }
    written := [] }

end FastCgi

end Veysrs
