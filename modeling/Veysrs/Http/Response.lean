import Veysrs.Http.Wire

/-!
# Responses on the wire

The rest of `StatusCode` and the part of `HttpResponse::send_to` that writes a response whose body
is in memory.

`readReply` is a client: it cuts a response into status, headers and what follows the head, and
`Reply.body` takes the body out of what follows.  A head that is written line by line is read back
(`readReply_written`).
-/

namespace Veysrs

open Core List

namespace StatusCode

def reasonPhrase : StatusCode → String
  | ok => "OK"
  | created => "Created"
  | accepted => "Accepted"
  | noContent => "No Content"
  | movedPermanently => "Moved Permanently"
  | found => "Found"
  | partialContent => "Partial Content"
  | notModified => "Not Modified"
  | badRequest => "Bad Request"
  | unauthorized => "Unauthorized"
  | forbidden => "Forbidden"
  | notFound => "Not Found"
  | methodNotAllowed => "Method Not Allowed"
  | requestTimeout => "Request Timeout"
  | payloadTooLarge => "Payload Too Large"
  | uriTooLong => "URI Too Long"
  | rangeNotSatisfiable => "Range Not Satisfiable"
  | requestHeaderFieldsTooLarge => "Request Header Fields Too Large"
  | tooManyRequests => "Too Many Requests"
  | internalServerError => "Internal Server Error"
  | badGateway => "Bad Gateway"
  | notImplemented => "Not Implemented"
  | serviceUnavailable => "Service Unavailable"
  | gatewayTimeout => "Gateway Timeout"
  | httpVersionNotSupported => "HTTP Version Not Supported"

/-- The codes that have a `StatusCode` of their own. -/
def all : List StatusCode :=
  [ok, created, accepted, noContent, movedPermanently, found, partialContent, notModified,
    badRequest, unauthorized, forbidden, notFound, methodNotAllowed, requestTimeout,
    payloadTooLarge, uriTooLong, rangeNotSatisfiable, requestHeaderFieldsTooLarge, tooManyRequests,
    internalServerError, notImplemented, badGateway, serviceUnavailable, gatewayTimeout,
    httpVersionNotSupported]

/-- `StatusCode::from_u16`: a code without a `StatusCode` becomes 400 or 500. -/
def fromU16 (code : ℕ) : StatusCode :=
  match all.find? fun status => status.code = code with
  | some status => status
  | none => if 400 ≤ code ∧ code ≤ 499 then badRequest else internalServerError

lemma code_fromU16_iff (code : ℕ) :
    (fromU16 code).code = code ↔ ∃ status : StatusCode, status.code = code := by
  constructor
  · intro h
    exact ⟨_, h⟩
  · rintro ⟨status, rfl⟩
    cases status <;> rfl

end StatusCode

namespace HttpResponse

/-- The head `send_to` writes for a body in memory. -/
def headText (resp : HttpResponse) : Str :=
  joinLines
    (("HTTP/1.1 ".toList ++ decimal resp.status.code ++ ' ' :: resp.status.reasonPhrase.toList) ::
      resp.headers.map (fun header => header.1 ++ ": ".toList ++ header.2) ++
      (if resp.headers.any fun header => eqIgnoreAsciiCase header.1 "Connection".toList then []
      else if resp.closeConnection then ["Connection: close".toList]
      else ["Connection: keep-alive".toList]) ++
      [[], []])

/-- `send_error` of the proxy and of the FastCGI client. -/
def errorBytes (status : StatusCode) (message : String) : Bytes :=
  let body := utf8 message.toList
  let resp := { HttpResponse.new status with closeConnection := true }.withBody body
    "text/plain; charset=utf-8"
  utf8 resp.headText ++ body

end HttpResponse

/-- The body in what follows a head. -/
def bodyIn (contentLength : Option ℕ) (rest : Bytes) : Bytes :=
  match contentLength with
  | some length => rest.take length
  | none => rest

/-! ## A client -/

/-- A response as a client takes it apart; `rest` is what follows the head. -/
structure Reply where
  status : ℕ
  headers : Headers
  rest : Bytes
  deriving DecidableEq, Repr

/-- The code in a status line. -/
def replyStatus (statusLine : Str) : Option ℕ :=
  ((statusLine.splitOn ' ')[1]?).bind (parseUnsigned (2 ^ 16))

/-- A status line. -/
def statusText (status : ℕ) (reason : Str) : Str :=
  "HTTP/1.1 ".toList ++ decimal status ++ ' ' :: reason

lemma statusText_eq (status : ℕ) (reason : Str) : statusText status reason =
    "HTTP/1.1".toList ++ ' ' :: (decimal status ++ ' ' :: reason) := by
  rw [show statusText status reason = "HTTP/1.1".toList ++ [' '] ++ decimal status ++ ' ' :: reason
    from rfl]
  simp only [append_assoc, cons_append, nil_append]

lemma utf8_statusText (status : ℕ) (reason : Str) : utf8 (statusText status reason) =
    utf8 ("HTTP/1.1 ".toList ++ decimal status) ++ 0x20 :: utf8 reason :=
  utf8_append ("HTTP/1.1 ".toList ++ decimal status) (' ' :: reason)

lemma splitOn_statusText (status : ℕ) (reason : Str) :
    (statusText status reason).splitOn ' ' =
      "HTTP/1.1".toList :: decimal status :: reason.splitOn ' ' := by
  have hd : ' ' ∉ decimal status := fun h => absurd (isDigit_of_mem_decimal h) (by decide)
  rw [statusText_eq, splitOn_append_cons_self, splitOn_append_cons_self,
    List.splitOn_eq_singleton hd]
  rfl

lemma statusText_ne_nil (status : ℕ) (reason : Str) : statusText status reason ≠ [] := by
  rw [statusText_eq]
  exact append_ne_nil_of_left_ne_nil (by decide) _

lemma replyStatus_statusText {status : ℕ} (reason : Str) (h : status < 2 ^ 16) :
    replyStatus (statusText status reason) = some status := by
  rw [replyStatus, splitOn_statusText]
  exact parseUnsigned_decimal h

lemma oneLine_statusText (status : ℕ) {reason : Str} (h : '\r' ∉ reason) :
    OneLine (statusText status reason) := by
  refine oneLine_of_not_mem fun hm => ?_
  rw [statusText_eq, mem_append, mem_cons, mem_append, mem_cons] at hm
  rcases hm with hm | hm | hm | hm | hm
  · exact absurd hm (by decide)
  · cases hm
  · exact absurd (isDigit_of_mem_decimal hm) (by decide)
  · cases hm
  · exact h hm

def replyHeader (line : Str) : Option (Str × Str) :=
  (splitOnce ':' line).map fun field => (field.1, trim field.2)

def readReply (wire : Bytes) : Option Reply := do
  let position ← findSub blankLine wire
  let text ← fromUtf8 (wire.take position)
  match splitCrlf text with
  | [] => none
  | statusLine :: lines => do
      let status ← replyStatus statusLine
      let headers ← lines.mapM replyHeader
      return { status, headers, rest := wire.drop (position + 4) }

/-- No body follows the head: the answer to `HEAD`, and statuses that have none. -/
def bodiless (headRequest : Bool) (status : ℕ) : Bool :=
  headRequest || (100 ≤ status && status ≤ 199) || status = 204 || status = 304

/-- The body: as long as the first `Content-Length` says, or up to the end.  A transfer coding is
beyond this client. -/
def Reply.body (headRequest : Bool) (reply : Reply) : Option Bytes :=
  if bodiless headRequest reply.status then some []
  else if reply.headers.any fun h => eqIgnoreAsciiCase h.1 "Transfer-Encoding".toList then none
  else match reply.headers.find? fun h => eqIgnoreAsciiCase h.1 "Content-Length".toList with
    | none => some reply.rest
    | some (_, value) => (parseUnsigned (2 ^ 64) value).bind fun length =>
      if length ≤ reply.rest.length then some (reply.rest.take length) else none

/-- A header that is one line, and is read as it is written. -/
structure PlainHeader (header : Str × Str) : Prop where
  name : header.1 ≠ []
  colon : ':' ∉ header.1
  line : OneLine (headerLine header)
  value : trim header.2 = header.2

lemma replyHeader_headerLine {header : Str × Str} (h : PlainHeader header) :
    replyHeader (headerLine header) = some header := by
  rw [headerLine, append_assoc]
  show (splitOnce ':' (header.1 ++ ':' :: ' ' :: header.2)).map _ = _
  rw [splitOnce_append h.colon, Option.map_some, trim_space_cons, h.value]

lemma mapM_replyHeader {headers : Headers} (h : ∀ header ∈ headers, PlainHeader header) :
    (headers.map headerLine).mapM replyHeader = some headers := by
  induction headers with
  | nil => rfl
  | cons header headers ih =>
    obtain ⟨hh, hr⟩ := forall_mem_cons.mp h
    rw [map_cons, mapM_cons, replyHeader_headerLine hh, ih hr]
    rfl

/-- A head that is written line by line is read back, whatever follows. -/
lemma readReply_written {statusLine : Str} {headers : Headers} {status : ℕ}
    (hs : replyStatus statusLine = some status) (hline : statusLine ≠ [] ∧ OneLine statusLine)
    (hh : ∀ header ∈ headers, PlainHeader header) (rest : Bytes) :
    readReply (utf8 (joinLines (statusLine :: headers.map headerLine ++ [[], []])) ++ rest) =
      some { status, headers, rest } := by
  set lines := statusLine :: headers.map headerLine with hli
  have hne : lines ≠ [] := cons_ne_nil _ _
  have ha : ∀ l ∈ lines, l ≠ [] ∧ OneLine l := by
    intro l hl
    rcases mem_cons.mp hl with rfl | hl
    · exact hline
    · obtain ⟨header, hhe, rfl⟩ := mem_map.mp hl
      refine ⟨fun hn => (hh header hhe).name ?_, (hh header hhe).line⟩
      rw [headerLine, append_assoc, append_eq_nil_iff] at hn
      exact hn.1
  have hw : utf8 (joinLines (lines ++ [[], []])) ++ rest =
      utf8 (joinLines lines) ++ (blankLine ++ rest) := by
    rw [utf8_joinLines, map_append, show [[], []].map utf8 = [[], []] from rfl,
      byteLines_blank (by simp [hli]), utf8_joinLines, append_assoc]
  have hd : (utf8 (joinLines lines) ++ (blankLine ++ rest)).drop
      ((utf8 (joinLines lines)).length + 4) = rest := by
    rw [drop_length_add_append]
    rfl
  rw [hw, readReply, findSub_joinLines hne ha]
  simp only [Option.bind_eq_bind, Option.bind_some, take_left, fromUtf8_utf8]
  rw [(splitCrlf_joinLines hne).mpr fun l hl => (ha l hl).2]
  simp only [hli, hs, mapM_replyHeader hh]
  rw [hd]
  rfl

end Veysrs
