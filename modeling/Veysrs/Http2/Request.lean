import Veysrs.Core.Subslice
import Veysrs.Core.Wp
import Veysrs.Http.Message
import Veysrs.Http2.Stream

/-!
# From a stream to a request

The functions of `server/http2/connection.rs` that need no connection: the checks a header list
must pass, the request built from it, and the gzip negotiation of dynamic responses.
-/

namespace Veysrs

open Core List

/-! ## Validation -/

/-- The loop variables of `validate_request_headers`. -/
structure PseudoHeaders where
  seenRegular : Bool := false
  method : Option Str := none
  scheme : Option Str := none
  path : Option Str := none
  authority : Option Str := none

/-- A name is refused if it is empty or has an upper-case, blank, control or DEL byte. -/
def badHeaderName (name : Str) : Bool :=
  name.isEmpty || (utf8 name).any fun b => (0x41 ≤ b && b ≤ 0x5a) || b ≤ 0x20 || b == 0x7f

def connectionSpecific : List String :=
  ["connection", "keep-alive", "proxy-connection", "upgrade", "transfer-encoding"]

/-- `slot.replace(value)`: a second value is an error. -/
def fillSlot (slot : Option Str) (value : Str) : Except Http2ErrorCode (Option Str) :=
  match slot with
  | none => .ok (some value)
  | some _ => .error .protocolError

def checkPseudoHeader (seen : PseudoHeaders) (name value : Str) :
    Except Http2ErrorCode PseudoHeaders :=
  if seen.seenRegular then .error .protocolError
  else if name = ":method".toList then
    (fillSlot seen.method value).map fun m => { seen with method := m }
  else if name = ":scheme".toList then
    (fillSlot seen.scheme value).map fun s => { seen with scheme := s }
  else if name = ":path".toList then
    (fillSlot seen.path value).map fun p => { seen with path := p }
  else if name = ":authority".toList then
    (fillSlot seen.authority value).map fun a => { seen with authority := a }
  else .error .protocolError

def checkHeader (seen : PseudoHeaders) (header : Str × Str) :
    Except Http2ErrorCode PseudoHeaders :=
  let (name, value) := header
  if badHeaderName name then .error .protocolError
  else if name.head? = some ':' then checkPseudoHeader seen name value
  else if connectionSpecific.any (fun n => name = n.toList) ||
      (name = "te".toList && !eqIgnoreAsciiCase value "trailers".toList) then
    .error .protocolError
  else .ok { seen with seenRegular := true }

/-- `validate_request_headers`. -/
def validateRequestHeaders (requestHeaders : Headers) : Except Http2ErrorCode Unit := do
  let seen ← requestHeaders.foldlM checkHeader {}
  match seen.method with
  | none => .error .protocolError
  | some method =>
    if method ≠ "CONNECT".toList ∧ (seen.scheme = none ∨ seen.path = none) then
      .error .protocolError
    else .ok ()

/-- One round of the loop of `validate_content_length`. -/
def checkContentLength (contentLength : Option ℕ) (header : Str × Str) :
    Except Http2ErrorCode (Option ℕ) :=
  if header.1 = "content-length".toList then
    match parseUnsigned (2 ^ 64) header.2, contentLength with
    | none, _ => .error .protocolError
    | some parsed, none => .ok (some parsed)
    | some _, some _ => .error .protocolError
  else .ok contentLength

/-- `validate_content_length`. -/
def validateContentLength (headers : Headers) (actualBodyLen : ℕ) :
    Except Http2ErrorCode Unit := do
  let contentLength ← headers.foldlM checkContentLength none
  if contentLength.any (· ≠ actualBodyLen) then .error .protocolError else .ok ()

/-! ## The request -/

/-- The loop variables of `dispatch_h2_request`. -/
structure RequestParts where
  method : Method := .get
  uri : Str := "/".toList
  headers : Headers := []
  authority : Option Str := none

def addHeader (parts : RequestParts) (header : Str × Str) : RequestParts :=
  let (name, value) := header
  if name = ":method".toList then { parts with method := Method.ofStr value }
  else if name = ":path".toList then { parts with uri := value }
  else if name = ":authority".toList then { parts with authority := some value }
  else if name.head? ≠ some ':' then { parts with headers := parts.headers ++ [(name, value)] }
  else parts

/-- The headers of the request: the regular ones, then the authority as Host. -/
def RequestParts.allHeaders (parts : RequestParts) : Headers :=
  match parts.authority with
  | some authority => parts.headers ++ [("Host".toList, authority)]
  | none => parts.headers

/-- The request `dispatch_h2_request` builds from a stream. -/
def requestOf (st : Stream) : HttpRequest :=
  let parts := st.requestHeaders.foldl addHeader {}
  { method := parts.method
    uri := parts.uri
    version := "HTTP/2.0".toList
    headers := parts.allHeaders
    body := st.requestBody }

/-- Both checks a stream's request passes before it is dispatched. -/
def acceptRequest (st : Stream) : Except Http2ErrorCode HttpRequest := do
  validateRequestHeaders st.requestHeaders
  validateContentLength (requestOf st).headers st.requestBody.length
  return requestOf st

/-! ### What a request looks like -/

lemma foldl_addHeader_method (headers : Headers) (parts : RequestParts)
    (h : ∃ s, parts.method = Method.ofStr s) :
    ∃ s, (headers.foldl addHeader parts).method = Method.ofStr s := by
  induction headers generalizing parts with
  | nil => exact h
  | cons header headers ih =>
    refine ih _ ?_
    simp only [addHeader]
    split_ifs
    · exact ⟨header.2, rfl⟩
    all_goals exact h

/-- The method went through `Method::from`. -/
lemma method_requestOf (st : Stream) : ∃ s, (requestOf st).method = Method.ofStr s :=
  foldl_addHeader_method st.requestHeaders {} ⟨"GET".toList, by decide⟩

variable {header : Str × Str}

lemma mem_foldl_addHeader (headers : Headers) (parts : RequestParts)
    (h : header ∈ (headers.foldl addHeader parts).headers) :
    header ∈ parts.headers ∨ (header ∈ headers ∧ header.1.head? ≠ some ':') := by
  induction headers generalizing parts with
  | nil => exact .inl h
  | cons first headers ih =>
    rcases ih _ h with hp | ⟨hm, hn⟩
    · simp only [addHeader] at hp
      split_ifs at hp with _ _ _ hr
      · exact .inl hp
      · exact .inl hp
      · exact .inl hp
      · rw [mem_append, mem_singleton] at hp
        rcases hp with hp | rfl
        · exact .inl hp
        · exact .inr ⟨mem_cons_self, hr⟩
      · exact .inl hp
    · exact .inr ⟨mem_cons_of_mem first hm, hn⟩

/-- A header of the request is a regular one of the stream, or the authority. -/
lemma mem_headers_requestOf {st : Stream} (h : header ∈ (requestOf st).headers) :
    (header ∈ st.requestHeaders ∧ header.1.head? ≠ some ':') ∨ header.1 = "Host".toList := by
  have hp : header ∈ (st.requestHeaders.foldl addHeader {}).headers ∨
      header.1 = "Host".toList := by
    simp only [requestOf, RequestParts.allHeaders] at h
    split at h
    · rw [mem_append, mem_singleton] at h
      exact h.imp id fun heq => by rw [heq]
    · exact .inl h
  rcases hp with hp | hh
  · exact .inl ((mem_foldl_addHeader _ _ hp).resolve_left (by simp))
  · exact .inr hh

/-- What the validation of a header says about a regular one. -/
lemma checkHeader_regular {seen after : PseudoHeaders} (h : checkHeader seen header = .ok after)
    (hr : header.1.head? ≠ some ':') :
    badHeaderName header.1 = false ∧ ∀ n ∈ connectionSpecific, header.1 ≠ n.toList := by
  simp only [checkHeader] at h
  split_ifs at h with hb hs
  · simp only [Bool.or_eq_true, any_eq_true, decide_eq_true_eq, not_or, not_exists,
      not_and] at hs
    exact ⟨by simpa using hb, fun n hn => hs.1 n hn⟩

/-- A name without upper-case letters is its own lower-case form. -/
lemma toLower_of_not_bad {name : Str} (h : badHeaderName name = false) :
    name.map Char.toLower = name := by
  conv_rhs => rw [← map_id name]
  refine map_congr_left fun c hc => ?_
  unfold Char.toLower
  rw [dif_neg]
  · rfl
  · rintro ⟨hlo, hhi⟩
    have hlo' : 65 ≤ c.toNat := hlo
    have hhi' : c.toNat ≤ 90 := hhi
    have ha : c.toNat < 128 := by omega
    rw [badHeaderName, Bool.or_eq_false_iff, any_eq_false] at h
    refine h.2 (byteOf c) ((mem_utf8_iff ha).mpr hc) ?_
    simp only [Bool.or_eq_true, Bool.and_eq_true, decide_eq_true_eq, UInt8.le_iff_toNat_le,
      byteOf_toNat ha]
    exact .inl (.inl ⟨hlo', hhi'⟩)

/-- **An accepted request never asks for an upgrade.** -/
lemma not_upgrade_of_validate {st : Stream}
    (h : validateRequestHeaders st.requestHeaders = .ok ()) :
    (requestOf st).getHeader "Upgrade" = none := by
  rw [validateRequestHeaders, except_bind_eq_ok] at h
  obtain ⟨seen, hse, _⟩ := h
  rw [HttpRequest.getHeader, findHeader, Option.map_eq_none_iff, List.find?_eq_none]
  intro header hh hn
  rw [eqIgnoreAsciiCase, beq_iff_eq] at hn
  rcases mem_headers_requestOf hh with ⟨hm, hr⟩ | hho
  · obtain ⟨s, t, hok⟩ := except_foldlM_forall hse header hm
    obtain ⟨hg, hs⟩ := checkHeader_regular hok hr
    rw [toLower_of_not_bad hg] at hn
    exact hs "upgrade" (by decide) (hn.trans (by decide))
  · rw [hho] at hn
    exact absurd hn (by decide)

/-! ## Compression of dynamic responses -/

/-- `str::strip_prefix`. -/
def stripStart (start s : Str) : Option Str :=
  if start.isPrefixOf s then some (s.drop start.length) else none

lemma stripStart_append (start s : Str) : stripStart start (start ++ s) = some s := by
  rw [stripStart, if_pos ( isPrefixOf_iff_prefix.mpr (prefix_append start s)),
    drop_left]

/-- `accepts_gzip`; `qPositive` reads a quality as `parse::<f32>` does and tells whether it is
above zero. -/
def acceptsGzip (qPositive : Str → Option Bool) : Option Str → Bool
  | none => false
  | some value => (value.splitOn ',').any fun entry =>
    let parts := (trim entry).splitOn ';'
    let coding := trim (parts.headD [])
    let q := parts.tail.findSome? fun part => (stripStart "q=".toList (trim part)).bind qPositive
    (eqIgnoreAsciiCase coding "gzip".toList || coding = "*".toList) && q.getD true

def compressibleTypes : List String :=
  ["application/json", "application/javascript", "application/xml", "image/svg+xml"]

def dynamicResponseCompressible (response : HttpResponse) : Bool :=
  if response.status = .noContent ∨ response.status = .notModified then false
  else if response.headers.any (fun h =>
      eqIgnoreAsciiCase h.1 "Content-Encoding".toList ||
        (eqIgnoreAsciiCase h.1 "Cache-Control".toList &&
          (findSub "no-transform".toList (toAsciiLowercase h.2)).isSome)) then false
  else match findHeader response.headers "Content-Type" with
    | none => false
    | some value =>
      let mime := toAsciiLowercase (trim ((value.splitOn ';').headD []))
      "text/".toList.isPrefixOf mime || compressibleTypes.any fun t => mime = t.toList

def removeHeader (headers : Headers) (name : String) : Headers :=
  headers.filter fun h => !eqIgnoreAsciiCase h.1 name.toList

def ensureVary (headers : Headers) : Headers :=
  if headers.any (fun h => eqIgnoreAsciiCase h.1 "Vary".toList &&
      (h.2.splitOn ',').any fun part => eqIgnoreAsciiCase (trim part) "Accept-Encoding".toList) then
    headers
  else headers ++ [("Vary".toList, "Accept-Encoding".toList)]

end Veysrs
