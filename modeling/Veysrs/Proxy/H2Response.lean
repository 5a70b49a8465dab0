import Veysrs.FastCgi.H2Response
import Veysrs.Proxy.Response

/-!
# An upstream's response over HTTP/2

`H2ProxyPending`, `H2ProxyReader` and `parse_upstream_head` of `server/proxy.rs`: the head of a
response is polled for, and the body is read through the reader that comes with it.

The head is parsed by other code than over HTTP/1.1, and more strictly; what it accepts the other
parser accepts with the same headers and the same length (`parseUpstreamHead_agrees`).
`polls_cases` says what a response that became ready is, whatever the reads did before.
-/

namespace Veysrs.Proxy

open Core List
open FastCgi (invalidData bodilessStatus)

/-! ## The head -/

/-- What the scan of a head collects. -/
structure H2Head where
  headers : Headers
  contentLength : Option ℕ := none
  chunked : Bool := false
  deriving DecidableEq, Repr

def scanH2Line (head : H2Head) (line : Str) : Except IoError H2Head :=
  match splitOnce ':' line with
  | none => .error (invalidData "malformed upstream header")
  | some (name, value) =>
    let name := trim name
    let value := trim value
    if !validHeader name value then .error (invalidData "invalid upstream header")
    else if eqIgnoreAsciiCase name "Transfer-Encoding".toList then
      .ok { head with
        chunked := head.chunked || eqIgnoreAsciiCase value "chunked".toList }
    else if hopByHop name then .ok head
    else
      let pushed := { head with headers := head.headers ++ [(name, value)] }
      if eqIgnoreAsciiCase name "Content-Length".toList then
        match parseUnsigned (2 ^ 64) value with
        | some length => .ok { pushed with contentLength := some length }
        | none => .error (invalidData "invalid upstream content length")
      else .ok pushed

/-- The response without its body, the length of the body and whether there is none. -/
def parseUpstreamHead (raw : Bytes) : Except IoError (HttpResponse × Option ℕ × Bool) :=
  match findSub blankLine raw with
  | none => .error (invalidData "missing upstream headers")
  | some position =>
    match fromUtf8 (raw.take (position + 4)) with
    | none => .error (invalidData "invalid upstream headers")
    | some text =>
      match splitCrlf text with
      | [] => .error (invalidData "missing upstream status")
      | statusLine :: lines =>
        let version := (statusLine.splitOn ' ').headD []
        if version ≠ "HTTP/1.1".toList ∧ version ≠ "HTTP/1.0".toList then
          .error (invalidData "invalid upstream status line")
        else match statusOf statusLine with
          | none => .error (invalidData "invalid upstream status")
          | some status => do
              let new := HttpResponse.new (.fromU16 status)
              let head ← (lines.filter fun line => !line.isEmpty).foldlM scanH2Line
                { headers := new.headers }
              if head.chunked then
                .error (invalidData "chunked upstream responses unsupported")
              else return ({ new with headers := head.headers }, head.contentLength,
                bodilessStatus status)

/-! ## The reader -/

/-- `already` is what was read with the head. -/
structure H2ProxyReader where
  stream : Source
  already : Bytes
  offset : ℕ := 0
  deriving DecidableEq, Repr

abbrev H2ProxyReaderM := EStateM IoError H2ProxyReader

def H2ProxyReader.read (out : ℕ) : H2ProxyReaderM Bytes := fun r =>
  if r.offset < r.already.length then
    let amount := min out (r.already.length - r.offset)
    .ok ((r.already.drop r.offset).take amount) { r with offset := r.offset + amount }
  else match r.stream.read out with
    | (.ok data, stream) => .ok data { r with stream }
    | (.error e, stream) => .error e { r with stream }

/-! ## Polling -/

/-- The pending response; `expired` is what the next looks at the clock say about the deadline. -/
structure H2ProxyPending where
  stream : Source
  buffer : Bytes := []
  maxHeaders : ℕ
  method : Method
  expired : List Bool := []
  deriving DecidableEq, Repr

/-- A response, the reader of its body and the body's length. -/
abbrev H2Response := HttpResponse × Option H2ProxyReader × Option ℕ

abbrev H2ProxyM := EStateM IoError H2ProxyPending

namespace H2ProxyPending

/-- The head is complete at `stop`. -/
def ready (pending : H2ProxyPending) (stop : ℕ) : Except IoError H2Response :=
  if pending.maxHeaders < stop then .error (invalidData "upstream headers too large")
  else do
    let (response, contentLength, noBody) ← parseUpstreamHead (pending.buffer.take stop)
    if noBody || pending.method = .head || contentLength = some 0 then
      return (response, none, some 0)
    else return ({ response with bodySource := .bytes [] },
      some { stream := pending.stream, already := pending.buffer.drop stop }, contentLength)

def readStream (out : ℕ) : H2ProxyM Bytes := fun pending =>
  match pending.stream.read out with
  | (.ok data, stream) => .ok data { pending with stream }
  | (.error e, stream) => .error e { pending with stream }

/-- A read that may have to wait. -/
def tryRead (out : ℕ) : H2ProxyM (Option Bytes) := fun pending =>
  match readStream out pending with
  | .ok data pending => .ok (some data) pending
  | .error e pending => if e.waits then .ok none pending else .error e pending

/-- The loop of `poll`; every round but the last reads a byte at least. -/
def pollFuel : ℕ → H2ProxyM (Option H2Response)
  | 0 => throw shortReadError
  | fuel + 1 => do
      let pending ← get
      set { pending with expired := pending.expired.tail }
      if pending.expired.headD false then
        throw ⟨.timedOut, "upstream response header timeout"⟩
      else match findSub blankLine pending.buffer with
        | some position => do
            let response ← MonadExcept.ofExcept (pending.ready (position + 4))
            return some response
        | none =>
          if pending.maxHeaders < pending.buffer.length then
            throw (invalidData "upstream headers too large")
          else match ← tryRead 4096 with
            | none => return none
            | some chunk =>
              if chunk.isEmpty then
                throw ⟨.unexpectedEof, "upstream closed before headers"⟩
              else do
                modify fun pending => { pending with buffer := pending.buffer ++ chunk }
                pollFuel fuel

def poll : H2ProxyM (Option H2Response) := do
  let pending ← get
  pollFuel (pending.stream.bytes.length + 1)

end H2ProxyPending

/-! ## Both parsers agree -/

/-- What two scans have collected, over HTTP/2 and over HTTP/1.1; `added` is the response's own. -/
structure Agrees (added : Headers) (head : H2Head) (other : UpstreamHead) : Prop where
  headers : head.headers = added ++ other.headers
  length : head.contentLength = other.contentLength
  plain : ∀ header ∈ other.headers, PlainHeader header

section Agreement

variable {added : Headers} {head head' : H2Head} {other : UpstreamHead}

lemma scanH2Line_agrees {line : Str} (h : Agrees added head other)
    (hs : scanH2Line head line = .ok head') :
    ∃ other', scanUpstreamLine other line = .ok other' ∧ Agrees added head' other' ∧
      other'.status = other.status ∧ other'.statusLine = other.statusLine := by
  rw [scanH2Line] at hs
  rw [scanUpstreamLine]
  cases hsp : splitOnce ':' line with
  | none =>
    rw [hsp] at hs
    cases hs
  | some field =>
    obtain ⟨name, value⟩ := field
    rw [hsp] at hs
    cases hv : validHeader (trim name) (trim value) with
    | false => simp [hv] at hs
    | true =>
      have hp : ∀ header ∈ other.headers ++ [(trim name, trim value)],
          PlainHeader header := by
        intro header hh
        rcases mem_append.mp hh with hh | hh
        · exact h.plain header hh
        · rw [mem_singleton.mp hh]
          exact plainHeader_of_validHeader hv (trim_trim value)
      simp only [hv, Bool.not_true, Bool.false_eq_true, if_false, Bool.false_or] at hs ⊢
      by_cases hc : eqIgnoreAsciiCase (trim name) "Transfer-Encoding".toList = true
      · have hhop : hopByHop (trim name) = true := by
          rw [eqIgnoreAsciiCase, beq_iff_eq] at hc
          rw [hopByHop, toAsciiLowercase, hc]
          decide
        simp only [if_pos hc, Except.ok.injEq] at hs
        subst hs
        simp only [if_pos hhop]
        exact ⟨_, rfl, ⟨h.headers, h.length, h.plain⟩, rfl, rfl⟩
      · simp only [if_neg hc] at hs
        by_cases hhop : hopByHop (trim name) = true
        · simp only [if_pos hhop, Except.ok.injEq] at hs ⊢
          subst hs
          exact ⟨_, rfl, ⟨h.headers, h.length, h.plain⟩, rfl, rfl⟩
        · simp only [if_neg hhop] at hs ⊢
          by_cases hl : eqIgnoreAsciiCase (trim name) "Content-Length".toList = true
          · simp only [if_pos hl] at hs ⊢
            cases hpa : parseUnsigned (2 ^ 64) (trim value) with
            | none =>
              rw [hpa] at hs
              cases hs
            | some length =>
              rw [hpa] at hs
              cases hs
              refine ⟨_, rfl, ⟨?_, rfl, hp⟩, rfl, rfl⟩
              simp only [h.headers, append_assoc]
          · simp only [if_neg hl, Except.ok.injEq] at hs ⊢
            subst hs
            refine ⟨_, rfl, ⟨?_, h.length, hp⟩, rfl, rfl⟩
            simp only [h.headers, append_assoc]

lemma foldlM_agrees {lines : List Str} : ∀ {head : H2Head} {other : UpstreamHead},
    Agrees added head other → lines.foldlM scanH2Line head = .ok head' →
    ∃ other', lines.foldlM scanUpstreamLine other = .ok other' ∧ Agrees added head' other' ∧
      other'.status = other.status ∧ other'.statusLine = other.statusLine := by
  induction lines with
  | nil =>
    intro head other h hs
    cases hs
    exact ⟨other, rfl, h, rfl, rfl⟩
  | cons line lines ih =>
    intro head other h hs
    rw [foldlM_cons, except_bind_eq_ok] at hs
    obtain ⟨next, hli, hr⟩ := hs
    obtain ⟨other', ho, ha, hsta, hst⟩ := scanH2Line_agrees h hli
    obtain ⟨last, hlast, hl, hla, hlas⟩ := ih ha hr
    refine ⟨last, ?_, hl, hla.trans hsta, hlas.trans hst⟩
    rw [foldlM_cons, ho]
    exact hlast

/-- A status line that was read off a head. -/
structure ReadsStatus (statusLine : Str) (status : ℕ) : Prop where
  nonempty : statusLine ≠ []
  oneLine : OneLine statusLine
  status : replyStatus statusLine = some status

/-- The response for a head, without its body. -/
def responseOf (head : UpstreamHead) : HttpResponse :=
  let new := HttpResponse.new (.fromU16 head.status)
  { new with headers := new.headers ++ head.headers }

/-- What `parse_upstream_head` accepts, `stream_upstream_response` accepts with the same outcome. -/
lemma parseUpstreamHead_agrees {raw : Bytes} {position : ℕ} {response : HttpResponse}
    {contentLength : Option ℕ} {noBody : Bool} (hf : findSub blankLine raw = some position)
    (h : parseUpstreamHead raw = .ok (response, contentLength, noBody)) :
    ∃ head, parseUpstreamResponse (raw.take (position + 4)) = .ok head ∧
      response = responseOf head ∧ contentLength = head.contentLength ∧
      noBody = bodilessStatus head.status ∧ (∀ header ∈ head.headers, PlainHeader header) ∧
      ReadsStatus head.statusLine head.status := by
  rw [parseUpstreamHead, hf] at h
  rw [parseUpstreamResponse]
  simp only at h
  cases ht : fromUtf8 (raw.take (position + 4)) with
  | none =>
    rw [ht] at h
    cases h
  | some text =>
    rw [ht] at h
    simp only at h ⊢
    cases hl : splitCrlf text with
    | nil =>
      rw [hl] at h
      cases h
    | cons statusLine lines =>
      rw [hl] at h
      simp only at h ⊢
      by_cases hv : (statusLine.splitOn ' ').headD [] ≠ "HTTP/1.1".toList ∧
          (statusLine.splitOn ' ').headD [] ≠ "HTTP/1.0".toList
      · rw [if_pos hv] at h
        cases h
      · rw [if_neg hv] at h ⊢
        cases hs : statusOf statusLine with
        | none =>
          rw [hs] at h
          cases h
        | some status =>
          rw [hs] at h
          simp only [except_bind_eq_ok] at h
          obtain ⟨head, hsc, h⟩ := h
          have hst : Agrees (HttpResponse.new (.fromU16 status)).headers
              { headers := (HttpResponse.new (.fromU16 status)).headers }
              { statusLine, status
                http11 := (statusLine.splitOn ' ').headD [] = "HTTP/1.1".toList } :=
            ⟨(append_nil _).symm, rfl, fun _ hm => absurd hm not_mem_nil⟩
          obtain ⟨other, hoth, ha, ho, hot⟩ :=
            foldlM_agrees hst hsc
          split_ifs at h with hc
          cases h
          refine ⟨other, hoth, ?_, ha.length, by rw [ho], ha.plain, ?_⟩
          · rw [responseOf, ha.headers, ho]
          · rw [hot, ho]
            refine ⟨?_, oneLine_of_mem_splitCrlf (hl ▸ mem_cons_self), ?_⟩
            · rintro rfl
              exact hv (by decide)
            · rw [statusOf] at hs
              exact (Option.filter_eq_some_iff.mp hs).1

end Agreement

/-! ## The reader hands out what follows the head -/

/-- What the reader has still to deliver. -/
def H2ProxyReader.Owes (r : H2ProxyReader) (bytes : Bytes) : Prop :=
  r.already.drop r.offset ++ r.stream.bytes = bytes

lemma handsOut_h2ProxyReader : HandsOut H2ProxyReader.read H2ProxyReader.Owes := by
  rintro r bytes want rfl hw
  simp only [wp, H2ProxyReader.read, EStateM.run]
  by_cases hr : r.offset < r.already.length
  · simp only [if_pos hr]
    refine ⟨(r.already.drop r.offset).drop (min want (r.already.length - r.offset)) ++
      r.stream.bytes, ?_, ?_, ?_, fun hnil => ?_⟩
    · rw [← append_assoc, take_append_drop]
    · rw [H2ProxyReader.Owes, drop_drop]
    · rw [length_take]
      omega
    · have hl := congrArg List.length hnil
      rw [length_take, length_drop, length_nil] at hl
      omega
  · have hn : r.already.drop r.offset = [] := drop_eq_nil_of_le (Nat.not_lt.mp hr)
    simp only [if_neg hr]
    rcases Source.read_cases want r.stream with
      ⟨e, stream, hre, ha⟩ | ⟨k, stream, hre, ha, hle, hz⟩
    · rw [hre]
      intro _
      rw [H2ProxyReader.Owes, ha.bytes, drop_zero]
    · rw [hre]
      have hi := ha.inside
      refine ⟨r.stream.bytes.drop k, ?_, ?_, ?_, fun hnil => ?_⟩
      · rw [hn, nil_append, take_append_drop]
      · rw [H2ProxyReader.Owes, hn, nil_append, ha.bytes]
      · rw [length_take]
        omega
      · have hl := congrArg List.length hnil
        rw [length_take, length_nil] at hl
        have hk : k = 0 := by omega
        rw [hn, nil_append, ((hz hk).resolve_left hw.ne').1]

/-! ## A response that became ready -/

namespace H2ProxyPending

/-- All that the upstream sends. -/
def Brings (pending : H2ProxyPending) (all : Bytes) : Prop :=
  pending.buffer ++ pending.stream.bytes = all

/-- What a response is, given the bytes it came from. -/
def ReadyFor (method : Method) (all : Bytes) (response : H2Response) : Prop :=
  ∃ position head, findSub blankLine all = some position ∧
    parseUpstreamResponse (all.take (position + 4)) = .ok head ∧
    (∀ header ∈ head.headers, PlainHeader header) ∧ ReadsStatus head.statusLine head.status ∧
    response.1 = responseOf head ∧
    if bodilessStatus head.status || method = .head || head.contentLength = some 0 then
      response.2 = (none, some 0)
    else ∃ reader : H2ProxyReader, response.2 = (some reader, head.contentLength) ∧
      reader.Owes (all.drop (position + 4))

variable {pending : H2ProxyPending}

lemma ready_cases {all : Bytes} {position : ℕ} (hb : pending.Brings all)
    (hf : findSub blankLine pending.buffer = some position) {response : H2Response}
    (h : pending.ready (position + 4) = .ok response) : ReadyFor pending.method all response := by
  have hlen : position + 4 ≤ pending.buffer.length := findSub_add_length_le (by decide) hf
  have ht : all.take (position + 4) = pending.buffer.take (position + 4) := by
    rw [← hb, take_append_of_le_length hlen]
  have hd : all.drop (position + 4) =
      pending.buffer.drop (position + 4) ++ pending.stream.bytes := by
    rw [← hb, drop_append_of_le_length hlen]
  have ha : findSub blankLine all = some position := by
    rw [← hb]
    exact findSub_append (by decide) hf _
  have hc : findSub blankLine (pending.buffer.take (position + 4)) = some position := by
    rw [findSub_take (by decide) hf, if_pos (by rfl)]
  rw [ready] at h
  split_ifs at h with hlo
  rw [except_bind_eq_ok] at h
  obtain ⟨⟨found, contentLength, noBody⟩, hp, h⟩ := h
  obtain ⟨head, hh, hr, hl, hn, hpl, hs⟩ :=
    parseUpstreamHead_agrees hc hp
  rw [take_take, Nat.min_self, ← ht] at hh
  refine ⟨position, head, ha, hh, hpl, hs, ?_⟩
  simp only [hn, hl] at h
  split_ifs at h ⊢ with hu
  · cases h
    exact ⟨hr, rfl⟩
  · cases h
    refine ⟨by rw [hr]; rfl, _, rfl, ?_⟩
    rw [hd]
    rfl

lemma wp_tryRead {out : ℕ} {P : Option Bytes → H2ProxyPending → Prop}
    {F : IoError → H2ProxyPending → Prop}
    (hwa : ∀ stream, pending.stream.After 0 stream → P none { pending with stream })
    (hok : ∀ k stream, pending.stream.After k stream →
      P (some (pending.stream.bytes.take k)) { pending with stream }) (her : ∀ e t, F e t) :
    wp (tryRead out) pending P F := by
  simp only [wp, tryRead, readStream, EStateM.run]
  rcases Source.read_cases out pending.stream with
    ⟨e, stream, hr, ha⟩ | ⟨k, stream, hr, ha, -, -⟩
  · rw [hr]
    cases hw : e.waits with
    | true => simpa [hw] using hwa stream ha
    | false => simpa [hw] using her e _
  · rw [hr]
    exact hok k stream ha

lemma pollFuel_cases {all : Bytes} (fuel : ℕ) : ∀ pending : H2ProxyPending, pending.Brings all →
    wp (pollFuel fuel) pending
      (fun response t => t.method = pending.method ∧ match response with
        | none => t.Brings all
        | some response => ReadyFor pending.method all response)
      (fun _ _ => True) := by
  induction fuel with
  | zero => exact fun _ _ => trivial
  | succ fuel ih =>
    intro pending hb
    rw [pollFuel]
    simp only [wp_bind, wp_ite]
    refine ⟨fun _ => trivial, fun _ => ?_⟩
    cases hf : findSub blankLine pending.buffer with
    | some position =>
      simp only [wp_bind]
      exact wp_ofExcept (fun response hr => ⟨rfl, ready_cases hb hf hr⟩)
        (fun _ _ => trivial)
    | none =>
      simp only [wp_ite, wp_bind]
      refine ⟨fun _ => trivial, fun _ => wp_tryRead (fun stream ha => ⟨rfl, ?_⟩)
        (fun k stream ha => ?_) (fun _ _ => trivial)⟩
      · rw [Brings, ha.bytes]
        exact hb
      · simp only [wp_ite]
        refine ⟨fun _ => trivial, fun _ => ih _ ?_⟩
        rw [Brings, ha.bytes, append_assoc, take_append_drop]
        exact hb

/-- A response that became ready is the one the upstream sent, however often it was polled for. -/
lemma polls_cases {all : Bytes} {response : H2Response} (h : Polls poll pending response)
    (hb : pending.Brings all) : ReadyFor pending.method all response := by
  have hp : ∀ pending : H2ProxyPending, pending.Brings all → wp poll pending
      (fun response t => t.method = pending.method ∧ match response with
        | none => t.Brings all
        | some response => ReadyFor pending.method all response) (fun _ _ => True) := by
    intro pending hb
    exact pollFuel_cases _ pending hb
  induction h with
  | ready hrun => exact (wp_ok (hp _ hb) hrun).2
  | again hrun _ ih =>
    obtain ⟨hm, hr⟩ := wp_ok (hp _ hb) hrun
    rw [← hm]
    exact ih hr

end H2ProxyPending

end Veysrs.Proxy
