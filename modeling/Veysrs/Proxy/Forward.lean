import Veysrs.Core.Net
import Veysrs.Http.Wire
import Veysrs.Http2.Request
import Veysrs.Proxy.Route

/-!
# Forwarding a request upstream

The request text that `begin_h2_response`, `handle_streaming_body` and `proxy_http` of
`server/proxy.rs` write; they differ in the Connection value and in where the length comes from.

The headers that are passed on go through `valid_header`.  The method, the target and the Host value
do not, and for a request that came in over HTTP/2 nothing before has looked at them either.  What
is written is one request exactly if these three are plain (`downgrade_one_request_iff`); a path
with a line break in it starts a second request (`path_starts_second_request`).
-/

namespace Veysrs.Proxy

open Core List

/-! ## The text -/

/-- The target sent upstream: the route's prefix is taken off. -/
def rewriteTarget (route : ProxyRoute) (uri : Str) : Str :=
  let target := (stripStart route.routePrefix uri).getD uri
  if target.isEmpty then "/".toList else target

/-- The headers that are passed on. -/
def isForwarded (header : Str × Str) : Bool :=
  !(hopByHop header.1 || eqIgnoreAsciiCase header.1 "Host".toList ||
    eqIgnoreAsciiCase header.1 "Content-Length".toList) && validHeader header.1 header.2

def originalHost (req : HttpRequest) : Str := (req.getHeader "Host").getD []

/-- What is written before the body. -/
def forwardText (req : HttpRequest) (route : ProxyRoute) (peer : IpAddr) (secure : Bool)
    (connection : String) (contentLength : ℕ) : Str :=
  req.method.text ++ " ".toList ++ rewriteTarget route req.uri ++ " HTTP/1.1\r\n".toList ++
    (req.headers.filter isForwarded).flatMap
      (fun header => header.1 ++ ": ".toList ++ header.2 ++ "\r\n".toList) ++
    "Host: ".toList ++ originalHost req ++
    "\r\nX-Forwarded-For: ".toList ++ peer.text ++
    "\r\nX-Forwarded-Proto: ".toList ++ (if secure then "https" else "http").toList ++
    "\r\nX-Forwarded-Host: ".toList ++ originalHost req ++
    "\r\nConnection: ".toList ++ connection.toList ++
    "\r\nContent-Length: ".toList ++ decimal contentLength ++ "\r\n\r\n".toList

/-- `begin_h2_response` as far as what it writes to an upstream that takes it all; without a route,
and for an upgrade, it writes nothing. -/
def beginH2Response (req : HttpRequest) (config : ServerConfig) (peer : IpAddr) (secure : Bool) :
    Option Bytes :=
  match selectRoute req config with
  | none => none
  | some route =>
    if isWebsocketUpgrade req then none
    else some (utf8 (forwardText req route peer secure "close" req.body.length) ++ req.body)

/-! ## The fields -/

/-- The fields added behind those that are passed on. -/
def addedFields (host : Str) (peer : IpAddr) (secure : Bool) (connection : String)
    (contentLength : ℕ) : Headers :=
  [("Host".toList, host), ("X-Forwarded-For".toList, peer.text),
    ("X-Forwarded-Proto".toList, (if secure then "https" else "http").toList),
    ("X-Forwarded-Host".toList, host), ("Connection".toList, connection.toList),
    ("Content-Length".toList, decimal contentLength)]

def forwardedFields (req : HttpRequest) (peer : IpAddr) (secure : Bool) (connection : String)
    (contentLength : ℕ) : Headers :=
  req.headers.filter isForwarded ++
    addedFields (originalHost req) peer secure connection contentLength

lemma joinLines_cons (l : Str) (lines : List Str) :
    joinLines (l :: lines) = l ++ lines.flatMap fun m => "\r\n".toList ++ m := by
  induction lines generalizing l with
  | nil => simp [joinLines_singleton]
  | cons m lines ih =>
    rw [joinLines_cons_cons, ih]
    rfl

/-- Line breaks behind the lines are line breaks before them. -/
lemma crlf_flatMap (headers : Headers) (rest : Str) :
    "\r\n".toList ++ ((headers.flatMap fun h => h.1 ++ (": ".toList ++ (h.2 ++ "\r\n".toList))) ++
        rest) =
      (headers.flatMap fun h => "\r\n".toList ++ (h.1 ++ (": ".toList ++ h.2))) ++
        ("\r\n".toList ++ rest) := by
  induction headers with
  | nil => rfl
  | cons header headers ih =>
    simp only [flatMap_cons, append_assoc]
    rw [ih]

/-- The text is the lines of the request, one for each field, and an empty line. -/
lemma forwardText_eq (req : HttpRequest) (route : ProxyRoute) (peer : IpAddr) (secure : Bool)
    (connection : String) (n : ℕ) :
    forwardText req route peer secure connection n =
      joinLines (headLines req.method (rewriteTarget route req.uri)
        (forwardedFields req peer secure connection n)) ++ "\r\n\r\n".toList := by
  have hv : " HTTP/1.1\r\n".toList = ' ' :: ("HTTP/1.1".toList ++ "\r\n".toList) := rfl
  have hh : "Host: ".toList = "Host".toList ++ ": ".toList := rfl
  have hfor : "\r\nX-Forwarded-For: ".toList =
      "\r\n".toList ++ ("X-Forwarded-For".toList ++ ": ".toList) := rfl
  have hp : "\r\nX-Forwarded-Proto: ".toList =
      "\r\n".toList ++ ("X-Forwarded-Proto".toList ++ ": ".toList) := rfl
  have hf : "\r\nX-Forwarded-Host: ".toList =
      "\r\n".toList ++ ("X-Forwarded-Host".toList ++ ": ".toList) := rfl
  have hc : "\r\nConnection: ".toList =
      "\r\n".toList ++ ("Connection".toList ++ ": ".toList) := rfl
  have hl : "\r\nContent-Length: ".toList =
      "\r\n".toList ++ ("Content-Length".toList ++ ": ".toList) := rfl
  have hb : " ".toList = [' '] := rfl
  rw [headLines, joinLines_cons, forwardedFields, map_append, flatMap_append,
    flatMap_map]
  delta forwardText
  simp only [requestLine, addedFields, map_cons, map_nil, flatMap_cons, flatMap_nil]
  simp only [headerLine, hv, hh, hfor, hp, hf, hc, hl, hb,
    append_assoc, cons_append, nil_append]
  rw [crlf_flatMap]

lemma utf8_forwardText (req : HttpRequest) (route : ProxyRoute) (peer : IpAddr) (secure : Bool)
    (connection : String) (n : ℕ) (body : Bytes) :
    utf8 (forwardText req route peer secure connection n) ++ body =
      writtenRequest req.method (rewriteTarget route req.uri)
        (forwardedFields req peer secure connection n) body := by
  rw [forwardText_eq, utf8_append, append_assoc]
  rfl

/-! ## What is known of the fields -/

lemma isTchar_of_isHeaderNameByte {b : UInt8} (h : isHeaderNameByte b = true) :
    isTchar b = true := by
  simp only [isHeaderNameByte, Bool.or_eq_true] at h
  simp only [isTchar, isAsciiAlphabetic, Bool.or_eq_true]
  tauto

lemma fieldName_of_isForwarded {header : Str × Str} (h : isForwarded header = true) :
    FieldName header.1 := by
  simp only [isForwarded, validHeader, Bool.and_eq_true, Bool.not_eq_true', Bool.or_eq_false_iff,
    all_eq_true] at h
  obtain ⟨⟨⟨hh, _⟩, _⟩, ⟨hne, hn⟩, _⟩ := h
  refine ⟨⟨by simpa using hne, ?_⟩, ?_⟩
  · exact all_eq_true.mpr fun b hb => isTchar_of_isHeaderNameByte (hn b hb)
  · rw [Bool.eq_false_iff]
    intro hf
    rw [Bool.eq_false_iff, hopByHop, ne_eq, any_eq_true] at hh
    refine hh ⟨"transfer-encoding", by decide, ?_⟩
    rw [eqIgnoreAsciiCase, beq_iff_eq] at hf
    rw [toAsciiLowercase, hf]
    decide

lemma valueText_of_isForwarded {header : Str × Str} (h : isForwarded header = true) :
    ValueText header.2 := by
  simp only [isForwarded, validHeader, Bool.and_eq_true, Bool.not_eq_true',
    any_eq_false] at h
  have hv := h.2.2
  refine valueText_of_not_mem (fun hc => ?_) fun hc => ?_
  · exact absurd rfl (hv (byteOf '\r') ((mem_utf8_iff (by decide)).mpr hc))
  · exact absurd rfl (hv (byteOf '\n') ((mem_utf8_iff (by decide)).mpr hc))

lemma fieldName_addedFields {host : Str} {peer : IpAddr} {secure : Bool} {connection : String}
    {n : ℕ} : ∀ field ∈ addedFields host peer secure connection n, FieldName field.1 := by
  have hn : ∀ name ∈ ["Host", "X-Forwarded-For", "X-Forwarded-Proto", "X-Forwarded-Host",
      "Connection", "Content-Length"].map String.toList, FieldName name := by
    have ha : ∀ name ∈ ["Host", "X-Forwarded-For", "X-Forwarded-Proto", "X-Forwarded-Host",
        "Connection", "Content-Length"].map String.toList, name ≠ [] ∧
        (utf8 name).all isTchar = true ∧
        eqIgnoreAsciiCase name "Transfer-Encoding".toList = false := by decide
    exact fun name h => ⟨⟨(ha name h).1, (ha name h).2.1⟩, (ha name h).2.2⟩
  intro field hf
  refine hn field.1 ?_
  have : field.1 ∈ (addedFields host peer secure connection n).map Prod.fst :=
    mem_map_of_mem hf
  exact this

lemma namedValues_append (name : String) (fields more : Headers) :
    namedValues name (fields ++ more) = namedValues name fields ++ namedValues name more := by
  simp [namedValues]

lemma namedValues_forwarded {name : String} (req : HttpRequest)
    (hn : ∀ header, eqIgnoreAsciiCase header.1 name.toList = true → isForwarded header = false) :
    namedValues name (req.headers.filter isForwarded) = [] := by
  rw [namedValues, map_eq_nil_iff, filter_eq_nil_iff]
  intro header hh heq
  rw [mem_filter] at hh
  rw [hn header heq] at hh
  cases hh.2

section Fields

variable (req : HttpRequest) (peer : IpAddr) (secure : Bool) (connection : String) (n : ℕ)

lemma namedValues_host :
    namedValues "Host" (forwardedFields req peer secure connection n) =
      [trim (originalHost req)] := by
  rw [forwardedFields, namedValues_append, namedValues_forwarded]
  · rfl
  · intro header h
    rw [isForwarded, h]
    simp

lemma namedValues_contentLength :
    namedValues "Content-Length" (forwardedFields req peer secure connection n) = [decimal n] := by
  rw [forwardedFields, namedValues_append, namedValues_forwarded]
  · exact congrArg (fun v => [v]) (trim_decimal n)
  · intro header h
    rw [isForwarded, h]
    simp

lemma fieldName_forwardedFields :
    ∀ field ∈ forwardedFields req peer secure connection n, FieldName field.1 :=
  forall_mem_append.mpr ⟨fun _ h => fieldName_of_isForwarded (mem_filter.mp h).2,
    fieldName_addedFields⟩

variable {req peer secure connection n}

/-- Of all the values only the host can break its line. -/
lemma valueText_forwardedFields_iff (hco : ValueText connection.toList) :
    (∀ field ∈ forwardedFields req peer secure connection n, ValueText field.2) ↔
      ValueText (originalHost req) := by
  have hpe : ValueText peer.text := by
    refine valueText_of_not_mem (fun hc => ?_) fun hc => ?_ <;>
      exact absurd (IpAddr.isAddressChar_of_mem_text peer _ hc) (by decide)
  have hp : ValueText (if secure then "https" else "http").toList := by
    cases secure <;> decide
  have hl : ValueText (decimal n) := by
    refine valueText_of_not_mem (fun hc => ?_) fun hc => ?_ <;>
      exact absurd (isDigit_of_mem_decimal hc) (by decide)
  constructor
  · intro h
    exact h ("Host".toList, originalHost req)
      (mem_append_right _ mem_cons_self)
  · intro hh
    refine forall_mem_append.mpr
      ⟨fun _ h => valueText_of_isForwarded (mem_filter.mp h).2, ?_⟩
    simp only [addedFields, forall_mem_cons, not_mem_nil, false_implies, implies_true,
      and_true]
    exact ⟨hh, hpe, hp, hh, hco, hl⟩

end Fields

/-! ## Requests from HTTP/2 -/

/-- **A downgraded request is one request exactly if its method, its target and its host are
plain.** -/
theorem downgrade_one_request_iff {st : Stream} {req : HttpRequest} {config : ServerConfig}
    {route : ProxyRoute} (peer : IpAddr) (secure : Bool) (haccept : acceptRequest st = .ok req)
    (hroute : selectRoute req config = some route) :
    ∃ wire, beginH2Response req config peer secure = some wire ∧
      (wire.length < 2 ^ 64 →
        (OneRequest req.method (rewriteTarget route req.uri)
            (forwardedFields req peer secure "close" req.body.length) req.body wire ↔
          MethodText req.method.text ∧ TargetText (rewriteTarget route req.uri) ∧
            ValueText (originalHost req) ∧ trim (originalHost req) ≠ [])) := by
  rw [acceptRequest, except_bind_eq_ok] at haccept
  obtain ⟨⟨⟩, hheaders, haccept⟩ := haccept
  rw [except_bind_eq_ok] at haccept
  obtain ⟨⟨⟩, _, haccept⟩ := haccept
  obtain rfl : requestOf st = req := Except.ok.inj haccept
  have hupgrade : isWebsocketUpgrade (requestOf st) = false := by
    rw [isWebsocketUpgrade, not_upgrade_of_validate hheaders]
    rfl
  refine ⟨_, by rw [beginH2Response, hroute]; simp only [hupgrade]; rfl, fun hfits => ?_⟩
  rw [utf8_forwardText] at hfits ⊢
  rw [oneRequest_iff hfits (method_requestOf st) (fieldName_forwardedFields _ _ _ _ _)
    (namedValues_host _ _ _ _ _) (namedValues_contentLength _ _ _ _ _)]
  have hclose : ValueText "close".toList := by decide
  have hvalues : (∀ field ∈ forwardedFields (requestOf st) peer secure "close"
      (requestOf st).body.length, ValueText field.2) ↔ ValueText (originalHost (requestOf st)) :=
    valueText_forwardedFields_iff hclose
  exact ⟨fun h => ⟨h.method, h.target, hvalues.mp h.values, h.host⟩,
    fun ⟨hm, ht, hv, hh⟩ => ⟨hm, ht, hvalues.mpr hv, hh⟩⟩

/-- A route for every host. -/
def sampleRoute : ProxyRoute :=
  { host := "*".toList, routePrefix := "/api".toList, upstream := "127.0.0.1:9000".toList }

/-- A GET request for `path` on host `a`. -/
def sampleStream (path : String) : Stream :=
  { id := 1
    state := .halfClosedRemote
    window := Window.new 65535
    sendWindow := Window.new 65535
    requestHeaders := [(":method".toList, "GET".toList), (":scheme".toList, "http".toList),
      (":path".toList, path.toList), (":authority".toList, "a".toList)]
    requestBody := []
    receivedEndStream := true
    receivedEndHeaders := true }

/-- What is written for it. -/
def sampleWire (path : String) : Option Bytes :=
  beginH2Response (requestOf (sampleStream path)) { proxyRoutes := [sampleRoute] }
    (.v4 127 0 0 1) false

/-- What is to be read back. -/
def SampleOneRequest (path : String) (wire : Bytes) : Prop :=
  OneRequest (requestOf (sampleStream path)).method
    (rewriteTarget sampleRoute (requestOf (sampleStream path)).uri)
    (forwardedFields (requestOf (sampleStream path)) (.v4 127 0 0 1) false "close" 0) [] wire

/-- An ordinary path goes through. -/
theorem downgrade_one_request_sample :
    ∃ wire, sampleWire "/api/x" = some wire ∧ SampleOneRequest "/api/x" wire := by
  obtain ⟨wire, hwire, hiff⟩ := downgrade_one_request_iff (.v4 127 0 0 1) false
    (show acceptRequest (sampleStream "/api/x") = .ok (requestOf (sampleStream "/api/x")) by
      decide)
    (show selectRoute (requestOf (sampleStream "/api/x")) { proxyRoutes := [sampleRoute] } =
      some sampleRoute by decide)
  have hshort : ∀ w, sampleWire "/api/x" = some w → w.length < 2 ^ 64 := by
    have hall : (sampleWire "/api/x").all (·.length < 2 ^ 64) = true := by decide +kernel
    intro w hw
    rw [hw] at hall
    simpa using hall
  refine ⟨wire, hwire, (hiff (hshort wire hwire)).mpr ?_⟩
  unfold MethodText
  decide

/-- A path that ends the request and begins another one. -/
def samplePath : String := "/api/ HTTP/1.1\r\nHost: a\r\n\r\nGET /admin"

/-- The target of the request at the front of the bytes, and what stands behind it. -/
def parsedUri (wire : Bytes) : Option (Str × Bytes) :=
  match (parseHttpRequestFromBufWithLimits { maxHeaders := 500 }).run wire with
  | .ok (some r) rest => some (r.uri, rest)
  | _ => none

/-- A line break in the path starts a second request, of the client's making. -/
theorem path_starts_second_request :
    acceptRequest (sampleStream samplePath) = .ok (requestOf (sampleStream samplePath)) ∧
    selectRoute (requestOf (sampleStream samplePath)) { proxyRoutes := [sampleRoute] } =
      some sampleRoute ∧
    ∃ wire rest, sampleWire samplePath = some wire ∧ parsedUri wire = some ("/".toList, rest) ∧
      parsedUri rest = some ("/admin".toList, []) ∧ ¬ SampleOneRequest samplePath wire := by
  have hboth : ((sampleWire samplePath).filter (·.length ≤ 500)).bind (fun wire =>
      (parsedUri wire).bind fun first => (parsedUri first.2).map fun second =>
        (first.1, second)) = some ("/".toList, "/admin".toList, []) := by
    decide +kernel
  obtain ⟨wire, hwire, hparsed⟩ := Option.bind_eq_some_iff.mp hboth
  obtain ⟨hwire, hlen⟩ := Option.filter_eq_some_iff.mp hwire
  obtain ⟨⟨uri, rest⟩, hfirst, hrest⟩ := Option.bind_eq_some_iff.mp hparsed
  obtain ⟨second, hsecond, hpair⟩ := Option.map_eq_some_iff.mp hrest
  obtain ⟨rfl, rfl⟩ := Prod.mk.inj hpair
  refine ⟨by decide, by decide, wire, rest, hwire, hfirst, hsecond, fun hone => ?_⟩
  -- all of the bytes would have been the first request
  rw [decide_eq_true_eq] at hlen
  obtain ⟨r, hrun, _⟩ := hone.parses { maxHeaders := 500 }
    ⟨by show _ ≤ 65536; omega, by show _ ≤ 16384; omega, hlen, by show _ ≤ 8192; omega,
      by show _ ≤ 8192; omega⟩
  have hall : parsedUri wire = some (r.uri, []) := by rw [parsedUri, hrun]
  obtain rfl : rest = [] := congrArg Prod.snd (Option.some.inj (hfirst.symm.trans hall))
  exact absurd hsecond (by decide)

end Veysrs.Proxy
