import Veysrs.FastCgi.Boundaries
import Veysrs.Http2.Connection
import Veysrs.Proxy.H2Response

/-!
# The same response over HTTP/1.1 and over HTTP/2

A response of an upstream, proxied or from a FastCGI server, is relayed by four pieces of code, one
for each version of HTTP.  `DynamicResponse.OverHttp1` and `DynamicResponse.OverHttp2` are what a
client is sent when they accept the response, however it is cut into reads, and over HTTP/2 however
often they have to wait for it.

Headers and their order are the same, and so are the bodies that are relayed.  But over HTTP/2 the
status is put into a `StatusCode`, which knows only some of them, and a response whose status has no
body is cut off where over HTTP/1.1 the bytes that came are written.  `parity_iff` says that this
is all.
-/

namespace Veysrs

open Core List
open FastCgi (ResponseParams ResponseStream GzEncoder withoutGzip bodilessStatus FastCgiH2Reader
  H2FastCgiPending)
open Proxy (H2ProxyPending H2ProxyReader closeHeader)

/-! ## What the two clients are sent -/

/-- What came from an upstream. -/
inductive DynamicResponse where
  | proxied (bytes : Bytes) (closed : Bool)
  | fastCgi (stream : ResponseStream)

/-- A relayed response and nothing else: a head and parts of its body. -/
def RelaysOnly (sent : List Sent) : Prop :=
  ∃ text parts, sent = .head text :: parts ∧ ∀ part ∈ parts, ∃ data, part = .body data

/-- A response as it is sent on a stream: the fields of its head, and its body. -/
structure StreamReply where
  fields : Headers
  body : Bytes
  deriving DecidableEq, Repr

/-- The fields `queue_h2_stream_response` encodes. -/
def responseFields (response : HttpResponse) : Headers :=
  (":status".toList, decimal response.status.code) :: response.headers

lemma responseHeaderBlock_eq (response : HttpResponse) :
    responseHeaderBlock response = encodeHeaders (responseFields response) := rfl

/-- What `queue_h2_stream_response` sends for a response and the reader of its body. -/
def SentOnStream {σ : Type} (read : ℕ → EStateM IoError σ Bytes)
    (response : HttpResponse × Option σ × Option ℕ) (reply : StreamReply) : Prop :=
  reply.fields = responseFields response.1 ∧
    match response.2.1 with
    | none => reply.body = []
    | some reader => Drains read response.2.2 reader reply.body

namespace DynamicResponse

/-- The response is accepted over HTTP/1.1, and this is what the client reads. -/
def OverHttp1 (p : ResponseParams) (reply : Reply) : DynamicResponse → Prop
  | proxied bytes closed => ∃ s t keep, s.sent = [] ∧ s.upstream.Delivers ∧
      s.upstream.bytes = bytes ∧ s.upstream.closed = closed ∧
      (Proxy.streamUpstreamResponse p).run s = .ok keep t ∧ RelaysOnly t.sent ∧
      readReply (t.sent.flatMap Sent.bytes) = some reply
  | fastCgi stream => ∃ s t, s.sent = [] ∧ s.upstream.Delivers ∧ s.upstream.bytes = stream.bytes ∧
      (FastCgi.streamResponse p).run s = .ok () t ∧ RelaysOnly t.sent ∧
      readReply (t.sent.flatMap Sent.bytes) = some reply

/-- The response is accepted over HTTP/2, and this is what the client is sent. -/
def OverHttp2 (maxHeaders : ℕ) (reply : StreamReply) : DynamicResponse → Prop
  | proxied bytes closed => ∃ choices expired response,
      Polls H2ProxyPending.poll
        { stream := ⟨bytes, choices, closed⟩, maxHeaders, method := .get, expired } response ∧
      SentOnStream H2ProxyReader.read response reply
  | fastCgi stream => ∃ (upstream : Source) (expired : List Bool) (response : FastCgi.H2Response),
      upstream.bytes = stream.bytes ∧
      Polls FastCgi.poll { reader := { upstream }, maxHeaders, method := .get, expired } response ∧
      SentOnStream FastCgiH2Reader.read response reply

end DynamicResponse

/-- Status, headers in order and body are the same, but for the header that each version adds. -/
def SameResponse (reply : Reply) (stream : StreamReply) : Prop :=
  ∃ headers, reply.headers = headers ++ [closeHeader] ∧
    stream.fields = (":status".toList, decimal reply.status) ::
      (HttpResponse.new .ok).headers ++ headers ∧
    stream.body = reply.rest

/-- The status has a `StatusCode`, and if it is one without a body there is no body. -/
def KeepsMeaning (status : ℕ) (body : Bytes) : Prop :=
  (∃ code : StatusCode, code.code = status) ∧ (bodilessStatus status = true → body = [])

/-- The condition under which nothing is lost over HTTP/2. -/
def DynamicResponse.translates : DynamicResponse → Prop
  | proxied bytes _ =>
    match findSub blankLine bytes with
    | none => True
    | some position =>
      match Proxy.parseUpstreamResponse (bytes.take (position + 4)) with
      | .error _ => True
      | .ok head =>
        KeepsMeaning head.status (bodyIn head.contentLength (bytes.drop (position + 4)))
  | fastCgi stream =>
    match findSub blankLine stream.stdout with
    | none => True
    | some position =>
      match FastCgi.parseHead (stream.stdout.take (position + 4)) with
      | .error _ => True
      | .ok head => KeepsMeaning head.status (stream.stdout.drop (position + 4))

/-! ## What is compared -/

lemma decimal_injective {m n : ℕ} (h : decimal m = decimal n) : m = n := by
  have hv := congrArg (fun digits => Nat.ofDigitChars 10 digits 0) h
  simpa [decimal] using hv

/-- Whatever the head says, the two relays differ in the status and the body only. -/
lemma sameResponse_iff {status : ℕ} {headers : Headers} {rest body : Bytes} :
    SameResponse { status, headers := headers ++ [closeHeader], rest }
        { fields := (":status".toList, decimal (StatusCode.fromU16 status).code) ::
            (HttpResponse.new .ok).headers ++ headers
          body } ↔
      (∃ code : StatusCode, code.code = status) ∧ body = rest := by
  rw [← StatusCode.code_fromU16_iff]
  constructor
  · rintro ⟨other, -, hf, hb⟩
    simp only [cons_append, List.cons.injEq, Prod.mk.injEq, true_and] at hf
    exact ⟨decimal_injective hf.1, hb⟩
  · rintro ⟨hs, rfl⟩
    exact ⟨headers, rfl, by rw [hs], rfl⟩

/-- Where the status has no body nothing is sent over HTTP/2; otherwise the body. -/
lemma body_eq_iff {status : ℕ} {sent body : Bytes}
    (hn : bodilessStatus status = true → sent = [])
    (hb : bodilessStatus status = false → sent = body) :
    sent = body ↔ (bodilessStatus status = true → body = []) := by
  cases hs : bodilessStatus status with
  | true =>
    rw [hn hs]
    exact ⟨fun h _ => h.symm, fun h => (h rfl).symm⟩
  | false =>
    rw [hb hs]
    exact ⟨fun _ h => absurd h Bool.false_ne_true, fun _ => rfl⟩

variable {bytes : Bytes}

section Parity

variable {maxHeaders level : ℕ} {encoder : GzEncoder} {reply : Reply} {stream : StreamReply}

lemma not_relaysOnly_error {status : StatusCode} {message : String} {parts : List Sent}
    (hp : .error status message ∈ parts) : ¬RelaysOnly parts := by
  rintro ⟨text, bodies, rfl, hb⟩
  rcases mem_cons.mp hp with h | h
  · cases h
  · obtain ⟨data, hd⟩ := hb _ h
    cases hd

/-- What a client is sent for a head with these headers, and a body. -/
def fieldsOf (status : ℕ) (headers : Headers) : Headers :=
  (":status".toList, decimal (StatusCode.fromU16 status).code) ::
    (HttpResponse.new .ok).headers ++ headers

/-- Over HTTP/2, in terms of the head the other parser sees. -/
lemma proxied_http2 {closed : Bool}
    (h : (DynamicResponse.proxied bytes closed).OverHttp2 maxHeaders stream) :
    ∃ position head, findSub blankLine bytes = some position ∧
      Proxy.parseUpstreamResponse (bytes.take (position + 4)) = .ok head ∧
      (∀ header ∈ head.headers, PlainHeader header) ∧
      Proxy.ReadsStatus head.statusLine head.status ∧
      stream.fields = fieldsOf head.status head.headers ∧
      (bodilessStatus head.status = true → stream.body = []) ∧
      (bodilessStatus head.status = false →
        stream.body = bodyIn head.contentLength (bytes.drop (position + 4))) := by
  obtain ⟨choices, expired, response, hpo, hf, hs⟩ := h
  obtain ⟨position, head, hfo, hp, hpl, hst, hr, hb⟩ :=
    H2ProxyPending.polls_cases hpo (show H2ProxyPending.Brings _ bytes from rfl)
  refine ⟨position, head, hfo, hp, hpl, hst, ?_, ?_⟩
  · rw [hf, hr]
    rfl
  · dsimp only at hb
    rw [show decide (Method.get = Method.head) = false from rfl] at hb
    split_ifs at hb with hu
    · rw [hb] at hs
      refine ⟨fun _ => hs, fun hbo => hs.trans ?_⟩
      have hz : head.contentLength = some 0 := by
        simpa [hbo] using hu
      rw [hz]
      rfl
    · obtain ⟨reader, hre, ho⟩ := hb
      rw [hre] at hs
      refine ⟨fun hn => absurd ?_ hu, fun _ => ?_⟩
      · rw [hn]
        rfl
      · exact drains_eq Proxy.handsOut_h2ProxyReader hs _ ho

/-- Over HTTP/1.1, given that head. -/
lemma proxied_http1 {closed : Bool} {position : ℕ} {head : Proxy.UpstreamHead}
    (h : (DynamicResponse.proxied bytes closed).OverHttp1
      (withoutGzip maxHeaders .get level encoder) reply)
    (hf : findSub blankLine bytes = some position)
    (hp : Proxy.parseUpstreamResponse (bytes.take (position + 4)) = .ok head)
    (hpl : ∀ header ∈ head.headers, PlainHeader header)
    (hs : Proxy.ReadsStatus head.statusLine head.status) :
    reply = { status := head.status, headers := head.headers ++ [closeHeader]
              rest := bodyIn head.contentLength (bytes.drop (position + 4)) } := by
  obtain ⟨s, t, keep, hse, hd, hb, -, hrun, hre, hr⟩ := h
  have hc : Proxy.compresses (withoutGzip maxHeaders .get level encoder) head = false := rfl
  have hhe : ∀ header ∈ head.headers ++ [closeHeader], PlainHeader header := by
    intro header hh
    rcases mem_append.mp hh with hh | hh
    · exact hpl header hh
    · rw [mem_singleton.mp hh]
      exact Proxy.plainHeader_closeHeader
  have hca := wp_ok (Proxy.streamUpstreamResponse_cases hf hp hc hb)
    hrun
  simp only [hse, nil_append] at hca
  rcases hca with ⟨message, ht⟩ | ⟨parts, ht, hpa⟩
  · exact absurd hre (not_relaysOnly_error (by rw [ht]; exact mem_singleton_self _))
  · rw [ht, flatMap_cons, hpa, Sent.bytes, Proxy.headText_eq hc,
      readReply_written hs.status ⟨hs.nonempty, hs.oneLine⟩ hhe] at hr
    exact (Option.some.inj hr).symm

lemma proxied_parity {closed : Bool} (h1 : (DynamicResponse.proxied bytes closed).OverHttp1
      (withoutGzip maxHeaders .get level encoder) reply)
    (h2 : (DynamicResponse.proxied bytes closed).OverHttp2 maxHeaders stream) :
    SameResponse reply stream ↔ (DynamicResponse.proxied bytes closed).translates := by
  obtain ⟨position, head, hf, hp, hpl, hs, hfi, hn, hb⟩ := proxied_http2 h2
  obtain rfl := proxied_http1 h1 hf hp hpl hs
  obtain ⟨fields, body⟩ := stream
  obtain rfl : fields = _ := hfi
  rw [fieldsOf, sameResponse_iff, body_eq_iff hn hb]
  simp only [DynamicResponse.translates, hf, hp]
  rfl

/-- What a FastCGI head that was accepted is like. -/
structure GoodHead (head : FastCgi.Head) : Prop where
  headers : ∀ header ∈ head.headers, PlainHeader header
  status : 100 ≤ head.status ∧ head.status ≤ 599

lemma range_parseFastcgiStatus {value : Str} {status : ℕ}
    (h : FastCgi.parseFastcgiStatus value = .ok status) : 100 ≤ status ∧ status ≤ 599 := by
  rw [FastCgi.parseFastcgiStatus] at h
  split at h
  · cases h
  · split_ifs at h with hr
    cases h
    exact hr

lemma setContentLength_keeps {head next : FastCgi.Head} {value : Str}
    (h : head.setContentLength value = .ok next) :
    next.headers = head.headers ∧ next.status = head.status := by
  rw [FastCgi.Head.setContentLength] at h
  split at h
  · cases h
  · split_ifs at h
    cases h
    exact ⟨rfl, rfl⟩

lemma goodHead_scanLine {head head' : FastCgi.Head} {line : Str} (h : GoodHead head)
    (hs : FastCgi.scanLine head line = .ok head') : GoodHead head' := by
  rw [FastCgi.scanLine] at hs
  cases hsp : splitOnce ':' line with
  | none =>
    rw [hsp] at hs
    cases hs
  | some field =>
    obtain ⟨name, value⟩ := field
    rw [hsp] at hs
    simp only [except_bind_eq_ok] at hs
    obtain ⟨_, hv, hs⟩ := hs
    have hh : Proxy.validHeader (trim name) (trim value) = true := by
      rw [FastCgi.validateFastcgiHeader] at hv
      by_contra hnot
      rw [Bool.not_eq_true] at hnot
      simp [hnot] at hv
    by_cases hst : eqIgnoreAsciiCase (trim name) "Status".toList = true
    · rw [if_pos hst, except_bind_eq_ok] at hs
      obtain ⟨status, hp, hs⟩ := hs
      cases hs
      exact ⟨h.headers, range_parseFastcgiStatus hp⟩
    · rw [if_neg hst] at hs
      obtain ⟨next, hsa, rfl⟩ : ∃ next : FastCgi.Head,
          (next.headers = head.headers ∧ next.status = head.status) ∧
          head' = { next with headers := next.headers ++ [(trim name, trim value)] } := by
        split_ifs at hs with hl
        · rw [except_bind_eq_ok] at hs
          obtain ⟨next, hn, hs⟩ := hs
          cases hs
          exact ⟨next, setContentLength_keeps hn, rfl⟩
        · cases hs
          exact ⟨head, ⟨rfl, rfl⟩, rfl⟩
      refine ⟨fun header hm => ?_, hsa.2 ▸ h.status⟩
      rw [hsa.1] at hm
      rcases mem_append.mp hm with hm | hm
      · exact h.headers header hm
      · rw [mem_singleton.mp hm]
        exact Proxy.plainHeader_of_validHeader hh (trim_trim value)

lemma goodHead_parseHead {raw : Bytes} {head : FastCgi.Head}
    (h : FastCgi.parseHead raw = .ok head) : GoodHead head := by
  rw [FastCgi.parseHead] at h
  split at h
  · cases h
  · exact except_foldlM_keeps goodHead_scanLine
      ⟨fun _ hm => absurd hm not_mem_nil, by decide⟩ h

lemma reasonPhrase_no_break (status : ℕ) : '\r' ∉ (FastCgi.reasonPhrase status).toList := by
  unfold FastCgi.reasonPhrase
  split <;> decide

lemma readReply_fastCgi {p : ResponseParams} {head : FastCgi.Head} (hp : p.acceptGzip = false)
    (hg : GoodHead head) (rest : Bytes) :
    readReply (utf8 (FastCgi.headText p head) ++ rest) =
      some { status := head.status, headers := head.headers ++ [closeHeader], rest } := by
  have hc : p.compress head = false := by
    rw [ResponseParams.compress, hp, Bool.false_and, Bool.false_and]
  have ht : FastCgi.headText p head = joinLines
      (statusText head.status (FastCgi.reasonPhrase head.status).toList ::
        (head.headers ++ [closeHeader]).map headerLine ++ [[], []]) := by
    rw [FastCgi.headText, hc, map_append]
    simp only [cons_append, append_assoc]
    rfl
  rw [ht]
  refine readReply_written (replyStatus_statusText _ (lt_of_le_of_lt hg.status.2 (by decide)))
    ⟨statusText_ne_nil _ _, oneLine_statusText _ (reasonPhrase_no_break _)⟩ (fun header hm => ?_)
    rest
  · rcases mem_append.mp hm with hm | hm
    · exact hg.headers header hm
    · rw [mem_singleton.mp hm]
      exact Proxy.plainHeader_closeHeader

/-- The head of a FastCGI response that was accepted over HTTP/2, with where it is. -/
structure HeadLocated (a : ResponseStream) (maxHeaders : ℕ) (position : ℕ) (head : FastCgi.Head)
    (pre : List Core.FastCgi.Record) (record : Core.FastCgi.Record)
    (post : List Core.FastCgi.Record) : Prop where
  records : a.records = pre ++ record :: post
  kinds : ∀ r ∈ post, r.kind ≠ Core.FastCgi.endRequest
  completes : FastCgi.Completes pre record position
  found : findSub blankLine a.stdout = some position
  parsed : FastCgi.parseHead (a.stdout.take (position + 4)) = .ok head
  short : position + 4 + (FastCgi.carried pre record position).length ≤ maxHeaders
  inside : FastCgi.exceeds head.contentLength (FastCgi.carried pre record position).length = false

section FastCgi

variable {a : ResponseStream} {position : ℕ} {head : FastCgi.Head}
  {pre post : List Core.FastCgi.Record} {record : Core.FastCgi.Record}

lemma HeadLocated.body (h : HeadLocated a maxHeaders position head pre record post) :
    a.stdout.drop (position + 4) = FastCgi.carried pre record position ++ FastCgi.stdoutOf post := by
  rw [ResponseStream.stdout, h.records, h.completes.drop]

/-- Over HTTP/2 a body is what the reader owes, up to what was announced. -/
lemma fastCgi_http2 (h : (DynamicResponse.fastCgi a).OverHttp2 maxHeaders stream) :
    ∃ position head pre record post, HeadLocated a maxHeaders position head pre record post ∧
      stream.fields = fieldsOf head.status head.headers ∧
      if FastCgi.bodyUnread .get head then stream.body = []
      else stream.body = bodyIn head.contentLength (FastCgi.carried pre record position ++
        (FastCgi.drained head.contentLength (FastCgi.carried pre record position).length
          (post ++ [a.last])).1) := by
  obtain ⟨upstream, expired, response, hby, hpo, hf, hs⟩ := h
  have hb : FastCgiH2Reader.Brings { upstream } (a.records ++ [a.last]) := hby
  obtain ⟨head, body, rest, reader, hp, rfl, hrest, hr⟩ :=
    FastCgi.polls_brings hpo _ hb
  obtain ⟨pre, record, post, position, hre, hk, hc, hfo, hpa, hsh, hi,
    rfl, rfl⟩ := a.of_polled hp
  refine ⟨position, head, pre, record, post,
    ⟨hre, hk, hc, hfo, hpa, hsh, hi⟩, ?_⟩
  have hrea : reader.ready = [] := by rw [hr]
  have ho : reader.offset = 0 := by rw [hr]
  have hd : reader.done = false := by rw [hr]
  by_cases hu : FastCgi.bodyUnread .get head = true
  · simp only [FastCgi.readyResponse] at hf hs
    rw [FastCgi.bodyUnread] at hu
    rw [if_pos hu] at hf hs
    rw [FastCgi.bodyUnread, if_pos hu]
    exact ⟨hf, hs⟩
  · simp only [FastCgi.readyResponse] at hf hs
    rw [FastCgi.bodyUnread] at hu
    rw [if_neg hu] at hf hs
    rw [FastCgi.bodyUnread, if_neg hu]
    have hg := FastCgiH2Reader.gives_of_brings (r := { reader with
      ready := reader.ready ++ FastCgi.carried pre record position,
      contentLength := head.contentLength,
      bodyBytes := (FastCgi.carried pre record position).length }) hrest ho hd
    simp only [hrea] at hg hs
    exact ⟨hf, drains_eq FastCgiH2Reader.handsOut_read hs _ ⟨_, hg⟩⟩

/-- Over HTTP/1.1 the body is all of the output after the head, and as long as announced. -/
lemma fastCgi_http1 {p : ResponseParams} (hg : p.acceptGzip = false) (hh : p.head = false)
    (h : (DynamicResponse.fastCgi a).OverHttp1 p reply)
    (hl : HeadLocated a p.maxHeaders position head pre record post) :
    reply = { status := head.status, headers := head.headers ++ [closeHeader]
              rest := a.stdout.drop (position + 4) } ∧
      head.contentLength.any (· ≠ (a.stdout.drop (position + 4)).length) = false := by
  obtain ⟨s, t, hse, hd, hby, hrun, hre, hr⟩ := h
  have hs := FastCgi.sent_eq p s hd hby
  have hp := hl.parsed
  rw [ResponseStream.stdout, hl.records, hl.completes.take] at hp
  rw [hrun, hse, nil_append, hl.records, map_append, append_assoc,
    map_cons, cons_append, FastCgi.relayAll_completes hl.completes hg,
    if_neg (Nat.not_lt.mpr hl.short), hp] at hs
  simp only [hl.inside, hh, Bool.false_eq_true, if_false] at hs
  have ht : t.sent = _ := hs
  obtain ⟨text, parts, hpa, hb⟩ := hre
  rw [ht, List.cons.injEq] at hpa
  obtain ⟨hrest, hle⟩ := FastCgi.relayAll_bodies hh
    (FastCgi.noEnd_of_forall hl.kinds) a.ends
    (FastCgi.started head (FastCgi.carried pre record position).length) rfl rfl
    (fun part hpart => hb part (hpa.2 ▸ mem_append_right _ hpart))
  rw [ht, flatMap_cons, flatMap_append, hrest, Sent.bytes, flatMap_singleton,
    Sent.bytes, ← hl.body, readReply_fastCgi hg (goodHead_parseHead hl.parsed)]
    at hr
  refine ⟨(Option.some.inj hr).symm, ?_⟩
  rw [hl.body, length_append]
  exact hle

lemma fastCgi_parity (h1 : (DynamicResponse.fastCgi a).OverHttp1
      (withoutGzip maxHeaders .get level encoder) reply)
    (h2 : (DynamicResponse.fastCgi a).OverHttp2 maxHeaders stream) :
    SameResponse reply stream ↔ (DynamicResponse.fastCgi a).translates := by
  obtain ⟨position, head, pre, record, post, hl, hf, hs⟩ := fastCgi_http2 h2
  obtain ⟨rfl, hle⟩ := fastCgi_http1 rfl rfl h1 hl
  obtain ⟨fields, body⟩ := stream
  obtain rfl : fields = _ := hf
  -- the length that was announced is that of the body
  have hfi : FastCgi.exceeds head.contentLength
      ((FastCgi.carried pre record position).length + (FastCgi.stdoutOf post).length) = false := by
    rw [← length_append, ← hl.body]
    cases hli : head.contentLength with
    | none => rfl
    | some n =>
      rw [hli, Option.any_some, decide_eq_false_iff_not, not_not] at hle
      rw [FastCgi.exceeds, ← hle]
      exact decide_eq_false (lt_irrefl n)
  have hw : bodyIn head.contentLength (a.stdout.drop (position + 4)) =
      a.stdout.drop (position + 4) := by
    cases hli : head.contentLength with
    | none => rfl
    | some n =>
      rw [hli, Option.any_some, decide_eq_false_iff_not, not_not] at hle
      exact take_of_length_le hle.ge
  have hend : a.last.kind ≠ Core.FastCgi.stdout := by rw [a.ends]; decide
  rw [FastCgi.drained_body [a.last] (FastCgi.noEnd_of_forall hl.kinds) _ hfi,
    FastCgi.drained, if_neg hend,
    if_pos a.ends, append_nil, ← hl.body, hw] at hs
  rw [fieldsOf, sameResponse_iff, body_eq_iff]
  · simp only [DynamicResponse.translates, hl.found, hl.parsed]
    rfl
  · intro hn
    rwa [FastCgi.bodyUnread, hn, Bool.or_true, Bool.true_or] at hs
  · intro hb
    split_ifs at hs with hu
    · have hz : head.contentLength = some 0 := by
        simpa [FastCgi.bodyUnread, hb] using hu
      rw [hz] at hw
      exact hs.trans hw
    · exact hs

end FastCgi

end Parity

/-- **A response that is accepted over both versions is relayed alike by both exactly if its status
has a `StatusCode` and, where it is a status without a body, there is no body.** -/
theorem parity_iff (response : DynamicResponse) (maxHeaders level : ℕ) (encoder : GzEncoder)
    (reply : Reply) (stream : StreamReply)
    (h1 : response.OverHttp1 (withoutGzip maxHeaders .get level encoder) reply)
    (h2 : response.OverHttp2 maxHeaders stream) :
    SameResponse reply stream ↔ response.translates := by
  cases response with
  | proxied bytes closed => exact proxied_parity h1 h2
  | fastCgi a => exact fastCgi_parity h1 h2

/-! ## Samples -/

section Samples

open FastCgi (plainParams exchangeWith)

/-- The parameters of the samples. -/
def sampleParams : ResponseParams := withoutGzip 8192 .get 6 plainParams.encoder

lemma overHttp1_of_sent (bytes : Bytes) (keep : Bool) (text : Str) (parts : List Bytes)
    (reply : Reply)
    (hrun : valueOf ((Proxy.streamUpstreamResponse sampleParams).run (exchangeWith bytes)) =
      some keep)
    (hs : (stateOf ((Proxy.streamUpstreamResponse sampleParams).run (exchangeWith bytes))).sent =
      .head text :: parts.map .body)
    (hr : readReply ((.head text :: parts.map .body : List Sent).flatMap Sent.bytes) =
      some reply) :
    (DynamicResponse.proxied bytes true).OverHttp1 sampleParams reply := by
  refine ⟨exchangeWith bytes, _, keep, rfl, fun _ h => absurd h not_mem_nil, rfl, rfl,
    eq_ok_of_valueOf hrun, ⟨text, parts.map .body, hs, fun part hp => ?_⟩, ?_⟩
  · obtain ⟨data, -, hd⟩ := mem_map.mp hp
    exact ⟨data, hd.symm⟩
  · rw [hs]
    exact hr

/-- What a poll finds in one go. -/
def pendingOf (bytes : Bytes) : H2ProxyPending :=
  { stream := ⟨bytes, [], true⟩, maxHeaders := 8192, method := .get, expired := [] }

lemma overHttp2_of_polled (bytes : Bytes)
    (response : HttpResponse × Option H2ProxyReader × Option ℕ) (stream : StreamReply)
    (hp : valueOf (H2ProxyPending.poll.run (pendingOf bytes)) = some (some response))
    (hs : SentOnStream H2ProxyReader.read response stream) :
    (DynamicResponse.proxied bytes true).OverHttp2 8192 stream :=
  ⟨[], [], response, .ready (eq_ok_of_valueOf hp), hs⟩

lemma translates_of_parsed {position : ℕ} {head : Proxy.UpstreamHead}
    (hf : findSub blankLine bytes = some position)
    (hp : Proxy.parseUpstreamResponse (bytes.take (position + 4)) = .ok head) :
    (DynamicResponse.proxied bytes true).translates ↔
      KeepsMeaning head.status (bodyIn head.contentLength (bytes.drop (position + 4))) := by
  simp only [DynamicResponse.translates, hf, hp]

/-- A page. -/
def pageBytes : Bytes := utf8 "HTTP/1.1 200 OK\r\nContent-Length: 2\r\n\r\nhi".toList

def pageReply : Reply :=
  { status := 200
    headers := [("Content-Length".toList, "2".toList), closeHeader]
    rest := utf8 "hi".toList }

def pageStream : StreamReply :=
  { fields := [(":status".toList, "200".toList), ("Server".toList, "veysrs/0.6.1".toList),
      ("Content-Length".toList, "2".toList)]
    body := utf8 "hi".toList }

def pageReader : H2ProxyReader := { stream := ⟨[], [], true⟩, already := utf8 "hi".toList }

def pageResponse : HttpResponse :=
  { HttpResponse.new .ok with
    headers := (HttpResponse.new .ok).headers ++ [("Content-Length".toList, "2".toList)] }

lemma page_translates : (DynamicResponse.proxied pageBytes true).translates := by
  have hp : Proxy.parseUpstreamResponse (pageBytes.take 38) =
      .ok { statusLine := "HTTP/1.1 200 OK".toList, http11 := true, status := 200,
            headers := [("Content-Length".toList, "2".toList)], contentLength := some 2 } := by
    decide
  rw [translates_of_parsed (show findSub blankLine pageBytes = some 34 by decide) hp]
  exact ⟨⟨.ok, rfl⟩, fun h => absurd h (by decide)⟩

/-- The page over HTTP/1.1 and over HTTP/2. -/
theorem page_relayed_alike :
    (DynamicResponse.proxied pageBytes true).OverHttp1 sampleParams pageReply ∧
      (DynamicResponse.proxied pageBytes true).OverHttp2 8192 pageStream ∧
      SameResponse pageReply pageStream := by
  have h1 : (DynamicResponse.proxied pageBytes true).OverHttp1 sampleParams pageReply :=
    overHttp1_of_sent pageBytes true
      "HTTP/1.1 200 OK\r\nContent-Length: 2\r\nConnection: close\r\n\r\n".toList
      [utf8 "hi".toList] pageReply (by decide +kernel) (by decide +kernel) (by decide +kernel)
  have hread : readChunkFrom H2ProxyReader.read 16384 (some 2) pageReader =
      (.ok (.data (utf8 "hi".toList) true), some 0, { pageReader with offset := 2 }) := rfl
  have h2 : (DynamicResponse.proxied pageBytes true).OverHttp2 8192 pageStream :=
    overHttp2_of_polled pageBytes (pageResponse, some pageReader, some 2) pageStream
      (by decide) ⟨by decide, .last (by decide) hread⟩
  exact ⟨h1, h2, (parity_iff _ 8192 6 plainParams.encoder _ _ h1 h2).mpr page_translates⟩

/-- A redirect with a status that `StatusCode` does not know. -/
def seeOtherBytes : Bytes :=
  utf8 "HTTP/1.1 303 See Other\r\nContent-Length: 0\r\n\r\n".toList

def seeOtherReply : Reply :=
  { status := 303
    headers := [("Content-Length".toList, "0".toList), closeHeader]
    rest := [] }

def seeOtherStream : StreamReply :=
  { fields := [(":status".toList, "500".toList), ("Server".toList, "veysrs/0.6.1".toList),
      ("Content-Length".toList, "0".toList)]
    body := [] }

def seeOtherResponse : HttpResponse :=
  { HttpResponse.new .internalServerError with
    headers := (HttpResponse.new .internalServerError).headers ++
      [("Content-Length".toList, "0".toList)] }

/-- The redirect is one over HTTP/1.1, and an internal server error over HTTP/2. -/
theorem see_other_becomes_server_error :
    (DynamicResponse.proxied seeOtherBytes true).OverHttp1 sampleParams seeOtherReply ∧
      (DynamicResponse.proxied seeOtherBytes true).OverHttp2 8192 seeOtherStream ∧
      ¬ SameResponse seeOtherReply seeOtherStream := by
  refine ⟨?_, ?_, ?_⟩
  · exact overHttp1_of_sent seeOtherBytes true
      "HTTP/1.1 303 See Other\r\nContent-Length: 0\r\nConnection: close\r\n\r\n".toList
      [] seeOtherReply (by decide +kernel) (by decide +kernel) (by decide +kernel)
  · exact overHttp2_of_polled seeOtherBytes (seeOtherResponse, none, some 0) seeOtherStream
      (by decide +kernel) ⟨by decide +kernel, rfl⟩
  · rintro ⟨headers, -, hfields, -⟩
    rw [cons_append, seeOtherStream, List.cons.injEq, Prod.mk.injEq] at hfields
    exact absurd hfields.1.2 (by decide)

end Samples

end Veysrs
