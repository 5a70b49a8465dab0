import Veysrs.Core.Incremental
import Veysrs.Core.Subslice
import Veysrs.Core.Wp
import Veysrs.Http.Message

/-!
# The HTTP/1.1 request parser

`parse_http_request_head_from_buf_with_limits` and `parse_http_request_from_buf_with_limits` of
`server/http.rs`.  The first reads a head off the front of a buffer and leaves the buffer alone;
the second takes the buffer by reference, so it is a program with the buffer as its state.

A head is read in three steps: find its end (`parseHttpRequestHeadFromBufWithLimits`), check the
bytes before it (`parseHeaderBytes`), and go through the lines (`parseHeaderText`).

What a call decides, later bytes do not change (`parseHttpRequestHead_append`).  So the parser is an
incremental reader (`requestReader`), and how a stream is cut into reads does not matter
(`parsing_independent_of_arrival`).
-/

namespace Veysrs

open Core List

inductive HttpParseError where
  | malformedRequest | oversizedRequestLine | oversizedHeader | oversizedHeaderLine
  | tooManyHeaders | oversizedBody | timeout | unsupportedVersion | missingHost | malformedHost
  | chunkedEncodingNotImplemented | conflictingHeaders | malformedContentLength | ioError
  | connectionClosed
  deriving DecidableEq, Repr

structure HttpRequestHead where
  method : Method
  uri : Str
  version : Str
  headers : Headers
  contentLength : ℕ
  headerLen : ℕ
  deriving DecidableEq, Repr

def HttpRequestHead.intoRequest (head : HttpRequestHead) (body : Bytes) : HttpRequest :=
  { method := head.method
    uri := head.uri
    version := head.version
    headers := head.headers
    body := body }

/-! ## Bytes -/

/-- `u8::is_ascii_alphabetic`. -/
def isAsciiAlphabetic (b : UInt8) : Bool := (0x41 ≤ b && b ≤ 0x5a) || (0x61 ≤ b && b ≤ 0x7a)

def isTchar (b : UInt8) : Bool :=
  isAsciiAlphabetic b || (0x30 ≤ b && b ≤ 0x39) || (utf8 "!#$%&'*+-.^_`|~".toList).contains b

/-- `usize::saturating_add`. -/
def saturatingAdd (a b : ℕ) : ℕ := min (a + b) (2 ^ 64 - 1)

/-- The end of a head: an empty line. -/
def headTerminator : Bytes := [0x0d, 0x0a, 0x0d, 0x0a]

lemma headTerminator_ne_nil : headTerminator ≠ [] := cons_ne_nil _ _

/-- The loop over the bytes of a head: a line feed not right after a carriage return, or a
carriage return not right before a line feed.  `prev` is the byte before. -/
def bareLineBreak (prev : Option UInt8) : Bytes → Bool
  | [] => false
  | b :: rest =>
    (b == 0x0a && prev != some 0x0d) || (b == 0x0d && rest.head? != some 0x0a) ||
      bareLineBreak (some b) rest

/-! ## Lines -/

/-- The three parts of the request line. -/
def parseRequestLine (config : ServerConfig) (requestLine : Str) :
    Except HttpParseError (Str × Str × Str) :=
  match requestLine.splitOn ' ' with
  | [method, uri, version] =>
    if [method, uri, version].any (fun part => part.isEmpty || part.contains '\t') then
      .error .malformedRequest
    else if !(utf8 method).all isAsciiAlphabetic then .error .malformedRequest
    else if config.maxUriLength < (utf8 uri).length then .error .oversizedRequestLine
    else if config.maxHeaderLine < (utf8 requestLine).length then .error .oversizedHeaderLine
    else if (utf8 uri).any (fun b => b ≤ 31 || b == 127) then .error .malformedRequest
    else if version ≠ "HTTP/1.1".toList then .error .unsupportedVersion
    else .ok (method, uri, version)
  | _ => .error .malformedRequest

/-- The vectors the header loop fills. -/
structure HeaderScan where
  headers : Headers := []
  hosts : List Str := []
  lengths : List Str := []

/-- The end of the header loop's body, once the line has been cut into a name and a value. -/
def HeaderScan.push (scan : HeaderScan) (name value : Str) : Except HttpParseError HeaderScan :=
  let headers := scan.headers ++ [(name, value)]
  if value.contains '\r' || value.contains '\n' then .error .malformedRequest
  else if eqIgnoreAsciiCase name "Host".toList then
    .ok { scan with headers, hosts := scan.hosts ++ [value] }
  else if eqIgnoreAsciiCase name "Content-Length".toList then
    .ok { scan with headers, lengths := scan.lengths ++ [value] }
  else if eqIgnoreAsciiCase name "Transfer-Encoding".toList then
    .error .chunkedEncodingNotImplemented
  else .ok { scan with headers }

/-- The body of the header loop.  A line of white space is passed over. -/
def scanHeaderLine (config : ServerConfig) (scan : HeaderScan) (line : Str) :
    Except HttpParseError HeaderScan :=
  if trim line = [] then .ok scan
  else if config.maxHeaderLine < (utf8 line).length then .error .oversizedHeaderLine
  else if config.maxHeaders ≤ scan.headers.length then .error .tooManyHeaders
  else match splitOnce ':' line with
    | none => .error .malformedRequest
    | some (rawName, rawValue) =>
      if rawName.isEmpty || !(utf8 rawName).all isTchar then .error .malformedRequest
      else scan.push rawName (trim rawValue)

/-- There must be one Host header, and it must not be blank. -/
def checkHosts : List Str → Except HttpParseError Unit
  | [] => .error .missingHost
  | [host] => if trim host = [] then .error .malformedHost else .ok ()
  | _ => .error .malformedHost

def contentLengthOf (config : ServerConfig) (lengths : List Str) : Except HttpParseError ℕ :=
  match lengths with
  | [] => .ok 0
  | first :: _ =>
    if lengths.any (fun value => value ≠ first) then .error .conflictingHeaders
    else match parseUnsigned (2 ^ 64) first with
      | none => .error .malformedContentLength
      | some length =>
        if config.maxRequestSize < length then .error .oversizedBody else .ok length

/-! ## Heads -/

def parseHeaderText (config : ServerConfig) (headerStr : Str) (headerLen : ℕ) :
    Except HttpParseError HttpRequestHead := do
  match splitCrlf headerStr with
  | [] => .error .malformedRequest
  | requestLine :: lines =>
    let (method, uri, version) ← parseRequestLine config requestLine
    let scan ← lines.foldlM (scanHeaderLine config) {}
    checkHosts scan.hosts
    let contentLength ← contentLengthOf config scan.lengths
    return { method := Method.ofStr method, uri, version, headers := scan.headers
             contentLength, headerLen }

def parseHeaderBytes (config : ServerConfig) (headerBytes : Bytes) :
    Except HttpParseError HttpRequestHead :=
  if bareLineBreak none headerBytes then .error .malformedRequest
  else match fromUtf8 headerBytes with
    | none => .error .malformedRequest
    | some headerStr => parseHeaderText config headerStr (headerBytes.length + 4)

/-- A head that has not ended yet is refused once it is longer than any head may be. -/
def parseHttpRequestHeadFromBufWithLimits (buffer : Bytes) (config : ServerConfig) :
    Except HttpParseError (Option HttpRequestHead) :=
  match findSub headTerminator buffer with
  | none => if config.maxHeaderSize < buffer.length then .error .oversizedHeader else .ok none
  | some headerEnd =>
    if config.maxHeaderSize < headerEnd + 4 then .error .oversizedHeader
    else (parseHeaderBytes config (buffer.take headerEnd)).map some

/-- How many bytes a request with this head takes off the buffer. -/
def HttpRequestHead.totalRequired (head : HttpRequestHead) : ℕ :=
  saturatingAdd head.headerLen head.contentLength

def parseHttpRequestFromBufWithLimits (config : ServerConfig) :
    EStateM HttpParseError Bytes (Option HttpRequest) := do
  let buffer ← get
  match ← MonadExcept.ofExcept (parseHttpRequestHeadFromBufWithLimits buffer config) with
  | none => return none
  | some head =>
    if buffer.length < head.totalRequired then return none
    else
      set (buffer.drop head.totalRequired)
      return some (head.intoRequest ((buffer.take head.totalRequired).drop head.headerLen))

/-! ## Where a head ends -/

section Heads

variable {config : ServerConfig} {buffer : Bytes} {head : HttpRequestHead}

/-- A header text is accepted if its request line, its header lines and the Host and
Content-Length values they leave behind are. -/
lemma parseHeaderText_eq_ok {headerStr : Str} {n : ℕ} :
    parseHeaderText config headerStr n = .ok head ↔
      ∃ requestLine lines method uri version scan contentLength,
        splitCrlf headerStr = requestLine :: lines ∧
        parseRequestLine config requestLine = .ok (method, uri, version) ∧
        lines.foldlM (scanHeaderLine config) {} = .ok scan ∧
        checkHosts scan.hosts = .ok () ∧
        contentLengthOf config scan.lengths = .ok contentLength ∧
        head = { method := Method.ofStr method, uri, version, headers := scan.headers
                 contentLength, headerLen := n } := by
  rw [parseHeaderText]
  cases splitCrlf headerStr with
  | nil => simp
  | cons requestLine lines =>
    simp only [except_bind_eq_ok, Prod.exists, pure, Except.pure, Except.ok.injEq,
      List.cons.injEq]
    constructor
    · rintro ⟨method, uri, version, hli, scan, hs, ⟨⟩, hh, length, hl, rfl⟩
      exact ⟨_, _, _, _, _, _, _, ⟨rfl, rfl⟩, hli, hs, hh, hl, rfl⟩
    · rintro ⟨_, _, method, uri, version, scan, length, ⟨rfl, rfl⟩, hli, hs, hh,
        hl, rfl⟩
      exact ⟨_, _, _, hli, _, hs, ⟨⟩, hh, _, hl, rfl⟩

lemma parseHeaderBytes_headerLen {headerBytes : Bytes}
    (h : parseHeaderBytes config headerBytes = .ok head) :
    head.headerLen = headerBytes.length + 4 := by
  rw [parseHeaderBytes] at h
  split_ifs at h
  cases hs : fromUtf8 headerBytes with
  | none => simp [hs] at h
  | some headerStr =>
    simp only [hs] at h
    obtain ⟨_, _, _, _, _, _, _, _, _, _, _, _, rfl⟩ := parseHeaderText_eq_ok.mp h
    rfl

/-- A head is read off a buffer exactly if the buffer has its end and the bytes before it pass. -/
lemma parseHttpRequestHead_eq_some :
    parseHttpRequestHeadFromBufWithLimits buffer config = .ok (some head) ↔
      ∃ headerEnd, findSub headTerminator buffer = some headerEnd ∧
        headerEnd + 4 ≤ config.maxHeaderSize ∧
        parseHeaderBytes config (buffer.take headerEnd) = .ok head := by
  rw [parseHttpRequestHeadFromBufWithLimits]
  cases findSub headTerminator buffer with
  | none =>
    split_ifs <;> simp
  | some headerEnd =>
    simp only [Option.some.injEq]
    by_cases hl : config.maxHeaderSize < headerEnd + 4
    · rw [if_pos hl]
      simp only [reduceCtorEq, false_iff, not_exists, not_and]
      rintro k rfl hk
      omega
    · rw [if_neg hl]
      cases hb : parseHeaderBytes config (buffer.take headerEnd) with
      | error e => simp [Except.map, hb]
      | ok found => simp [Except.map, hb, Nat.not_lt.mp hl]

/-- The length of a head is that of the bytes up to the end of its terminator. -/
lemma headerLen_bounds (h : parseHttpRequestHeadFromBufWithLimits buffer config = .ok (some head)) :
    4 ≤ head.headerLen ∧ head.headerLen ≤ buffer.length := by
  obtain ⟨headerEnd, hf, _, hb⟩ := parseHttpRequestHead_eq_some.mp h
  have hle : headerEnd + 4 ≤ buffer.length := findSub_add_length_le headTerminator_ne_nil hf
  rw [parseHeaderBytes_headerLen hb, length_take]
  omega

/-- **What is read off a buffer does not change when more bytes arrive.** -/
lemma parseHttpRequestHead_append (more : Bytes)
    (h : parseHttpRequestHeadFromBufWithLimits buffer config ≠ .ok none) :
    parseHttpRequestHeadFromBufWithLimits (buffer ++ more) config =
      parseHttpRequestHeadFromBufWithLimits buffer config := by
  rw [parseHttpRequestHeadFromBufWithLimits] at h ⊢
  rw [parseHttpRequestHeadFromBufWithLimits]
  cases hf : findSub headTerminator buffer with
  | some headerEnd =>
    have hle : headerEnd + 4 ≤ buffer.length := findSub_add_length_le headTerminator_ne_nil hf
    simp only [findSub_append headTerminator_ne_nil hf,
      take_append_of_le_length (show headerEnd ≤ buffer.length by omega)]
  | none =>
    -- the buffer is already longer than a head may be, so it is refused wherever its head ends
    simp only [hf] at h ⊢
    have hl : config.maxHeaderSize < buffer.length := by
      by_contra hs
      exact h (if_neg hs)
    rw [if_pos hl]
    cases hm : findSub headTerminator (buffer ++ more) with
    | none =>
      have : config.maxHeaderSize < (buffer ++ more).length := by
        rw [length_append]
        omega
      simp only [if_pos this]
    | some headerEnd =>
      have hlt : buffer.length < headerEnd + 4 :=
        length_lt_of_findSub_append headTerminator_ne_nil hf hm
      simp only [if_pos (show config.maxHeaderSize < headerEnd + 4 by omega)]

end Heads

/-! ## What a call does to the buffer -/

section Requests

variable {config : ServerConfig} {buffer rest : Bytes} {e : HttpParseError} {r : HttpRequest}

lemma parseHttpRequest_run :
    (parseHttpRequestFromBufWithLimits config).run buffer =
      match parseHttpRequestHeadFromBufWithLimits buffer config with
      | .error e => .error e buffer
      | .ok none => .ok none buffer
      | .ok (some head) =>
        if buffer.length < head.totalRequired then .ok none buffer
        else .ok (some (head.intoRequest ((buffer.take head.totalRequired).drop head.headerLen)))
          (buffer.drop head.totalRequired) := by
  show EStateM.bind (MonadExcept.ofExcept _) _ buffer = _
  rcases parseHttpRequestHeadFromBufWithLimits buffer config with e' | _ | head
  · rfl
  · rfl
  · exact apply_ite (fun x : EStateM HttpParseError Bytes (Option HttpRequest) => x.run buffer)
      (buffer.length < head.totalRequired) _ _

/-- A call fails as reading the head does, and then keeps the buffer. -/
lemma parseHttpRequest_eq_error :
    (parseHttpRequestFromBufWithLimits config).run buffer = .error e rest ↔
      parseHttpRequestHeadFromBufWithLimits buffer config = .error e ∧ rest = buffer := by
  rw [parseHttpRequest_run]
  rcases parseHttpRequestHeadFromBufWithLimits buffer config with e' | _ | head
  · simp [eq_comm]
  · simp
  · by_cases hs : buffer.length < head.totalRequired <;> simp [hs]

/-- A call asks for more while the head or the body is incomplete, and then keeps the buffer. -/
lemma parseHttpRequest_eq_none :
    (parseHttpRequestFromBufWithLimits config).run buffer = .ok none rest ↔
      rest = buffer ∧ (parseHttpRequestHeadFromBufWithLimits buffer config = .ok none ∨
        ∃ head, parseHttpRequestHeadFromBufWithLimits buffer config = .ok (some head) ∧
          buffer.length < head.totalRequired) := by
  rw [parseHttpRequest_run]
  rcases parseHttpRequestHeadFromBufWithLimits buffer config with e' | _ | head
  · simp
  · simp [eq_comm]
  · by_cases hs : buffer.length < head.totalRequired <;> simp [hs, eq_comm]

/-- A call that returns a request takes its head and its body off the buffer, no more. -/
lemma parseHttpRequest_eq_some :
    (parseHttpRequestFromBufWithLimits config).run buffer = .ok (some r) rest ↔
      ∃ head, parseHttpRequestHeadFromBufWithLimits buffer config = .ok (some head) ∧
        head.totalRequired ≤ buffer.length ∧
        r = head.intoRequest ((buffer.take head.totalRequired).drop head.headerLen) ∧
        rest = buffer.drop head.totalRequired := by
  rw [parseHttpRequest_run]
  rcases parseHttpRequestHeadFromBufWithLimits buffer config with e' | _ | head
  · simp
  · simp
  · by_cases hs : buffer.length < head.totalRequired
    · simp [hs, Nat.not_le.mpr hs]
    · simp [hs, Nat.not_lt.mp hs, eq_comm]

lemma totalRequired_pos {head : HttpRequestHead}
    (h : parseHttpRequestHeadFromBufWithLimits buffer config = .ok (some head)) :
    0 < head.totalRequired := by
  have hp := (headerLen_bounds h).1
  rw [HttpRequestHead.totalRequired, saturatingAdd]
  omega

end Requests

/-! ## Arrival -/

/-- The parser as a reader of requests off a stream. -/
def requestReader (config : ServerConfig) : Incremental HttpParseError UInt8 HttpRequest where
  next := parseHttpRequestFromBufWithLimits config
  some_append := by
    intro buffer rest r h more
    obtain ⟨head, hhead, hlen, rfl, rfl⟩ := parseHttpRequest_eq_some.mp h
    have hkept := parseHttpRequestHead_append more (by rw [hhead]; simp)
    refine parseHttpRequest_eq_some.mpr ⟨head, hkept.trans hhead, ?_, ?_, ?_⟩
    · rw [length_append]
      omega
    · rw [take_append_of_le_length hlen]
    · rw [drop_append_of_le_length hlen]
  error_append := by
    intro buffer rest e h more
    obtain ⟨hhead, rfl⟩ := parseHttpRequest_eq_error.mp h
    have hkept := parseHttpRequestHead_append more (by rw [hhead]; simp)
    exact parseHttpRequest_eq_error.mpr ⟨hkept.trans hhead, rfl⟩
  none_keeps := fun h => (parseHttpRequest_eq_none.mp h).1
  error_keeps := fun h => (parseHttpRequest_eq_error.mp h).2
  shrinks := by
    intro buffer rest r h
    obtain ⟨head, hhead, hlen, _, rfl⟩ := parseHttpRequest_eq_some.mp h
    have hpos := totalRequired_pos hhead
    rw [length_drop]
    omega

/-- **Requests do not depend on how their bytes arrive.**  After any reads and calls, reading on to
the end gives the requests, the first error and, if there is none, the leftover of the whole stream
parsed at once.  A request or an error stands when bytes are appended, and without a request the
buffer is kept. -/
theorem parsing_independent_of_arrival (config : ServerConfig) :
    (∀ arrivals, (requestReader config).finish ((requestReader config).arrive arrivals) =
      (requestReader config).readAll [] (received arrivals)) ∧
    ∀ buffer more,
      (∀ r rest, (parseHttpRequestFromBufWithLimits config).run buffer = .ok (some r) rest →
        (parseHttpRequestFromBufWithLimits config).run (buffer ++ more) =
          .ok (some r) (rest ++ more)) ∧
      (∀ e rest, (parseHttpRequestFromBufWithLimits config).run buffer = .error e rest →
        rest = buffer ∧ (parseHttpRequestFromBufWithLimits config).run (buffer ++ more) =
          .error e (buffer ++ more)) ∧
      ∀ rest, (parseHttpRequestFromBufWithLimits config).run buffer = .ok none rest →
        rest = buffer := by
  refine ⟨Incremental.finish_arrive, fun buffer more => ⟨?_, ?_, ?_⟩⟩
  · intro r rest h
    exact (requestReader config).some_append h more
  · intro e rest h
    obtain rfl := (requestReader config).error_keeps h
    exact ⟨rfl, (requestReader config).error_append h more⟩
  · intro rest h
    exact (requestReader config).none_keeps h

end Veysrs
