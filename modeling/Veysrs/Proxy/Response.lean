import Veysrs.FastCgi.Response
import Veysrs.Proxy.Forward

/-!
# Relaying an upstream's response over HTTP/1.1

`stream_upstream_response` of `server/proxy.rs`: the head is read up to its empty line, checked and
written without the headers that are not to be forwarded, and the body follows, as many bytes as
`Content-Length` says or up to the end of the connection.

`readUpstreamHead_spec` says what the reading of the head comes to however the bytes are cut into
reads, `relayLength_spec` and `relayToEnd_spec` what the two ways of relaying a body do.
-/

namespace Veysrs.Proxy

open Core List
open FastCgi (ResponseParams GzEncoder invalidData)

/-! ## The head -/

/-- Why a head is not relayed: the client is told, or the call fails. -/
inductive HeadFailure where
  | refused (message : String)
  | failed (error : IoError)
  deriving DecidableEq, Repr

/-- What the scan of a head collects; `headers` are those that are written. -/
structure UpstreamHead where
  statusLine : Str
  http11 : Bool
  status : ℕ
  headers : Headers := []
  contentLength : Option ℕ := none
  close : Bool := false
  deriving DecidableEq, Repr

/-- `Connection: close`, among other options or not. -/
def asksToClose (name value : Str) : Bool :=
  eqIgnoreAsciiCase name "Connection".toList &&
    (value.splitOn ',').any fun part => eqIgnoreAsciiCase (trim part) "close".toList

def scanUpstreamLine (head : UpstreamHead) (line : Str) : Except HeadFailure UpstreamHead :=
  match splitOnce ':' line with
  | none => .error (.refused "malformed upstream header")
  | some (name, value) =>
    let name := trim name
    let value := trim value
    let head := { head with close := head.close || asksToClose name value }
    if !validHeader name value || hopByHop name then .ok head
    else
      let head := { head with headers := head.headers ++ [(name, value)] }
      if eqIgnoreAsciiCase name "Content-Length".toList then
        match parseUnsigned (2 ^ 64) value with
        | some length => .ok { head with contentLength := some length }
        | none => .error (.failed (invalidData "invalid upstream content length"))
      else .ok head

/-- The code in a status line. -/
def statusOf (statusLine : Str) : Option ℕ :=
  (((statusLine.splitOn ' ')[1]?).bind (parseUnsigned (2 ^ 16))).filter fun status =>
    100 ≤ status ∧ status ≤ 599

def parseUpstreamResponse (raw : Bytes) : Except HeadFailure UpstreamHead :=
  match fromUtf8 raw with
  | none => .error (.failed (invalidData "invalid upstream headers"))
  | some text =>
    match splitCrlf text with
    | [] => .error (.failed (invalidData "missing upstream status"))
    | statusLine :: lines =>
      let version := (statusLine.splitOn ' ').headD []
      if version ≠ "HTTP/1.1".toList ∧ version ≠ "HTTP/1.0".toList then
        .error (.refused "invalid upstream status line")
      else match statusOf statusLine with
        | none => .error (.failed (invalidData "invalid upstream status"))
        | some status => (lines.filter fun line => !line.isEmpty).foldlM scanUpstreamLine
            { statusLine, http11 := version = "HTTP/1.1".toList, status }

/-- `str::lines`. -/
def textLines (text : Str) : List Str :=
  let pieces := text.splitOn '\n'
  let pieces := if pieces.getLast? = some [] then pieces.dropLast else pieces
  pieces.map fun piece => if piece.getLast? = some '\r' then piece.dropLast else piece

def compresses (p : ResponseParams) (head : UpstreamHead) : Bool :=
  p.acceptGzip && !p.head && FastCgi.compressible head.status head.headers

/-- The head written to the client. -/
def headText (p : ResponseParams) (head : UpstreamHead) : Str :=
  let lines := head.statusLine :: head.headers.map headerLine
  if compresses p head then
    let kept := (textLines (joinLines (lines ++ [[]]))).filter fun line =>
      !"content-length:".toList.isPrefixOf (toAsciiLowercase line)
    joinLines (kept ++ ["Content-Encoding: gzip".toList,
      "Vary: Accept-EncodingConnection: close".toList, [], []])
  else joinLines (lines ++ ["Connection: close".toList, [], []])

/-- A header that `valid_header` lets through is one line, and is read as it is written. -/
lemma plainHeader_of_validHeader {name value : Str} (hv : validHeader name value = true)
    (htr : trim value = value) : PlainHeader (name, value) := by
  simp only [validHeader, Bool.and_eq_true, Bool.not_eq_true', isEmpty_eq_false_iff,
    any_eq_false] at hv
  obtain ⟨⟨hne, hn⟩, hva⟩ := hv
  have ht : TokenText name := ⟨hne, all_eq_true.mpr fun b hb =>
    isTchar_of_isHeaderNameByte (all_eq_true.mp hn b hb)⟩
  refine ⟨hne, ht.not_mem (by decide) (by decide), oneLine_of_not_mem fun hm => ?_, htr⟩
  rw [headerLine, mem_append, mem_append] at hm
  rcases hm with (hm | hm) | hm
  · exact ht.not_mem (by decide) (by decide) hm
  · exact absurd hm (by decide)
  · exact absurd rfl (hva (byteOf '\r') ((mem_utf8_iff (by decide)).mpr hm))

def closeHeader : Str × Str := ("Connection".toList, "close".toList)

lemma plainHeader_closeHeader : PlainHeader closeHeader :=
  plainHeader_of_validHeader (by decide) (by decide)

variable {head : UpstreamHead} {E : IoError → Exchange → Prop}

lemma headText_eq {p : ResponseParams} (hp : compresses p head = false) :
    headText p head =
      joinLines (head.statusLine :: (head.headers ++ [closeHeader]).map headerLine ++ [[], []]) := by
  rw [headText, hp, map_append]
  simp only [cons_append, append_assoc]
  rfl

/-! ## Reading and relaying -/

/-- The loop that reads the head: what has been read and where the head ends, or nothing if the
client was told that there is none.  Every round but the last reads a byte at least. -/
def readUpstreamHead (maxHeaders : ℕ) : ℕ → Bytes → ExchangeM (Option (Bytes × ℕ))
  | 0, _ => throw shortReadError
  | fuel + 1, buf =>
    if maxHeaders < buf.length then do
      sendError .badGateway "upstream headers too large"
      return none
    else do
      let chunk ← onUpstream (readSome 4096)
      if chunk.isEmpty then
        sendError .badGateway "upstream closed before headers"
        return none
      else
        let buf := buf ++ chunk
        match findSub blankLine buf with
        | some position => return some (buf, position + 4)
        | none => readUpstreamHead maxHeaders fuel buf

/-- Write a part of the body; `gzip` is what the encoder has been given, if there is one. -/
def writeBody (p : ResponseParams) (gzip : Option Bytes) (data : Bytes) :
    ExchangeM (Option Bytes) :=
  if p.head || data.isEmpty then return gzip
  else match gzip with
    | some before => do
        send [.body (p.encoder.deflate p.compressionLevel before data)]
        return some (before ++ data)
    | none => do
        send [.body data]
        return none

def ioChunk : ℕ := 16 * 1024

/-- The loop for a body of known length. -/
def relayLength (p : ResponseParams) : ℕ → ℕ → Option Bytes → ExchangeM (Option Bytes)
  | _, 0, gzip => return gzip
  | 0, _ + 1, _ => throw shortReadError
  | fuel + 1, remaining + 1, gzip => do
      let data ← onUpstream (readSome (min (remaining + 1) ioChunk))
      if data.isEmpty then
        throw ⟨.unexpectedEof, "upstream Content-Length does not match body"⟩
      else
        let gzip ← writeBody p gzip data
        relayLength p fuel (remaining + 1 - data.length) gzip

/-- The buffer of `io::copy`. -/
def copyChunk : ℕ := 8 * 1024

/-- `io::copy` from the upstream. -/
def relayToEnd (p : ResponseParams) : ℕ → Option Bytes → ExchangeM (Option Bytes)
  | 0, _ => throw shortReadError
  | fuel + 1, gzip => do
      let data ← onUpstream (readSome copyChunk)
      if data.isEmpty then return gzip
      else
        let gzip ← writeBody p gzip data
        relayToEnd p fuel gzip

/-- The body, after what came with the head. -/
def relayUpstreamBody (p : ResponseParams) (contentLength : Option ℕ) (already : Bytes)
    (gzip : Option Bytes) : ExchangeM (Option Bytes) := do
  match contentLength with
  | some length =>
    let gzip ← writeBody p gzip (already.take length)
    relayLength p (length - already.length) (length - already.length) gzip
  | none =>
    let gzip ← writeBody p gzip already
    let s ← get
    relayToEnd p (s.upstream.bytes.length + 1) gzip

/-- The rest of the function once the head is there. -/
def relayUpstream (p : ResponseParams) (buf : Bytes) (stop : ℕ) : ExchangeM Bool :=
  match parseUpstreamResponse (buf.take stop) with
  | .error (.refused message) => do
      sendError .badGateway message
      return false
  | .error (.failed e) => throw e
  | .ok head => do
      let compress := compresses p head
      let contentLength := if compress then none else head.contentLength
      send [.head (headText p head)]
      let gzip ← relayUpstreamBody p contentLength (buf.drop stop) (if compress then some [] else none)
      match gzip with
      | some input => send [.body (p.encoder.finish p.compressionLevel input)]
      | none => pure ()
      return head.http11 && contentLength.isSome && !head.close && !compress

def streamUpstreamResponse (p : ResponseParams) : ExchangeM Bool := do
  let s ← get
  match ← readUpstreamHead p.maxHeaders (s.upstream.bytes.length + 1) [] with
  | none => return false
  | some (buf, stop) => relayUpstream p buf stop

/-! ## What relaying may do -/

/-- The relation holds for the steps of relaying, the head aside: reads of the upstream, an error of
its own and parts of the body. -/
structure Carrying (R : Exchange → Exchange → Prop) : Prop where
  read {α : Type} (x : ReadM α) : Moves R (onUpstream x)
  error (status : StatusCode) (message : String) : Moves R (sendError status message)
  body (data : Bytes) : Moves R (send [.body data])

section Carrying

variable {R : Exchange → Exchange → Prop} [IsPreorder Exchange R] {p : ResponseParams}

lemma Carrying.readUpstreamHead (h : Carrying R) (maxHeaders fuel : ℕ) :
    ∀ buf, Moves R (readUpstreamHead maxHeaders fuel buf) := by
  induction fuel with
  | zero => exact fun _ => moves_throw _
  | succ fuel ih =>
    intro buf
    refine Moves.ite ((h.error _ _).bind fun _ => moves_pure _) ?_
    refine (h.read _).bind fun chunk => ?_
    refine Moves.ite ((h.error _ _).bind fun _ => moves_pure _) ?_
    simp only
    cases findSub blankLine (buf ++ chunk) with
    | none => exact ih _
    | some position => exact moves_pure _

lemma Carrying.writeBody (h : Carrying R) (gzip : Option Bytes) (data : Bytes) :
    Moves R (writeBody p gzip data) := by
  refine (moves_pure gzip).ite ?_
  cases gzip <;> exact (h.body _).bind fun _ => moves_pure _

lemma Carrying.relayLength (h : Carrying R) (fuel : ℕ) :
    ∀ remaining gzip, Moves R (relayLength p fuel remaining gzip) := by
  induction fuel with
  | zero =>
    intro remaining gzip
    cases remaining with
    | zero => exact moves_pure _
    | succ remaining => exact moves_throw _
  | succ fuel ih =>
    intro remaining gzip
    cases remaining with
    | zero => exact moves_pure _
    | succ remaining =>
      refine (h.read _).bind fun data => Moves.ite (moves_throw _) ?_
      exact (h.writeBody gzip data).bind fun gzip => ih _ gzip

lemma Carrying.relayToEnd (h : Carrying R) (fuel : ℕ) :
    ∀ gzip, Moves R (relayToEnd p fuel gzip) := by
  induction fuel with
  | zero => exact fun _ => moves_throw _
  | succ fuel ih =>
    intro gzip
    refine (h.read _).bind fun data => Moves.ite (moves_pure _) ?_
    exact (h.writeBody gzip data).bind ih

lemma Carrying.relayUpstreamBody (h : Carrying R) (contentLength : Option ℕ) (already : Bytes)
    (gzip : Option Bytes) : Moves R (relayUpstreamBody p contentLength already gzip) := by
  cases contentLength with
  | none => exact (h.writeBody _ _).bind fun _ => moves_get.bind fun _ => h.relayToEnd _ _
  | some length => exact (h.writeBody _ _).bind fun _ => h.relayLength _ _ _

lemma Carrying.relayUpstream (h : Carrying R) {buf : Bytes} {stop : ℕ}
    (hh : ∀ head, parseUpstreamResponse (buf.take stop) = .ok head →
      Moves R (send [.head (headText p head)])) : Moves R (relayUpstream p buf stop) := by
  rw [Proxy.relayUpstream]
  cases hp : parseUpstreamResponse (buf.take stop) with
  | error failure =>
    cases failure with
    | refused message => exact (h.error _ _).bind fun _ => moves_pure _
    | failed e => exact moves_throw e
  | ok head =>
    refine (hh head hp).bind fun _ => (h.relayUpstreamBody _ _ _).bind fun gzip => ?_
    cases gzip with
    | none => exact moves_pure _
    | some input => exact (h.body _).bind fun _ => moves_pure _

end Carrying

/-! ## What relaying a body does -/

open FastCgi (shown)

/-- The next `k` bytes of the upstream were taken, and shown to the client. -/
structure BodyRelayed (p : ResponseParams) (k : ℕ) (s t : Exchange) : Prop where
  upstream : s.upstream.After k t.upstream
  sent : ∃ parts : List Sent, t.sent = s.sent ++ parts ∧
    parts.flatMap Sent.bytes = shown p (s.upstream.bytes.take k)

section Body

variable {p : ResponseParams} {s t u : Exchange}

lemma bodyRelayed_zero (p : ResponseParams) (s : Exchange) : BodyRelayed p 0 s s :=
  ⟨⟨Nat.zero_le _, rfl, rfl, suffix_rfl⟩, [], by simp [shown]⟩

lemma BodyRelayed.trans {j k : ℕ} (h : BodyRelayed p j s t) (h' : BodyRelayed p k t u) :
    BodyRelayed p (j + k) s u := by
  obtain ⟨parts, hs, hp⟩ := h.sent
  obtain ⟨more, hs', hm⟩ := h'.sent
  refine ⟨h.upstream.trans h'.upstream, parts ++ more, ?_, ?_⟩
  · rw [hs', hs, append_assoc]
  · rw [flatMap_append, hp, hm, h.upstream.bytes, take_add]
    cases hh : p.head <;> simp [shown, hh]

lemma wp_writeBody {data : Bytes} {P : Option Bytes → Exchange → Prop} (h : ∀ parts : List Sent,
      parts.flatMap Sent.bytes = shown p data → P none { s with sent := s.sent ++ parts }) :
    wp (writeBody p none data) s P E := by
  unfold writeBody
  split_ifs with hs
  · have hn : shown p data = [] := by
      rcases Bool.or_eq_true _ _ ▸ hs with hh | hnil
      · simp [shown, hh]
      · rw [List.isEmpty_iff] at hnil
        simp [shown, hnil]
    simpa using h [] hn.symm
  · rw [Bool.or_eq_true, not_or] at hs
    exact h [.body data] (by simp [shown, hs.1, Sent.bytes])

/-- A read followed by a write. -/
lemma bodyRelayed_read {k : ℕ} {upstream : Source} (ha : s.upstream.After k upstream)
    {P : Option Bytes → Exchange → Prop}
    (h : ∀ t, BodyRelayed p k s t → t.upstream = upstream → P none t) :
    wp (writeBody p none (s.upstream.bytes.take k)) { s with upstream } P E :=
  wp_writeBody fun parts hp => h _ ⟨ha, parts, rfl, hp⟩ rfl

/-- A body of known length is relayed unless it is not all there. -/
lemma relayLength_spec (fuel : ℕ) : ∀ (n : ℕ) (s : Exchange), n ≤ fuel →
    wp (relayLength p fuel n none) s (fun gzip t => gzip = none ∧ BodyRelayed p n s t)
      (fun _ t => ¬(s.upstream.Delivers ∧ n ≤ s.upstream.bytes.length) ∧
        ∃ k, BodyRelayed p k s t) := by
  induction fuel with
  | zero =>
    intro n s hn
    obtain rfl : n = 0 := by omega
    simpa [relayLength] using bodyRelayed_zero p s
  | succ fuel ih =>
    intro n s hn
    cases n with
    | zero => simpa [relayLength] using bodyRelayed_zero p s
    | succ n =>
      rw [relayLength]
      simp only [wp_bind, wp_onUpstream, wp_ite, List.isEmpty_iff]
      have hw : 0 < min (n + 1) ioChunk := Nat.lt_min.mpr ⟨Nat.succ_pos n, by decide⟩
      refine wp_readSome hw (fun k upstream ha hle hz => ⟨fun hnil => ?_,
        fun hd => ?_⟩) (fun e upstream ha hend => ?_)
      · -- the upstream is at its end
        rw [take_eq_nil_iff] at hnil
        have hb : s.upstream.bytes = [] := hnil.elim (fun hk => (hz hk).1) id
        refine ⟨fun h => ?_, k, ha, [], by simp, by simp [hb, shown]⟩
        rw [hb, length_nil] at h
        omega
      · have hk : 0 < k := Nat.pos_of_ne_zero fun h => hd (by rw [h, take_zero])
        have hl : (s.upstream.bytes.take k).length = k := by
          rw [length_take, Nat.min_eq_left ha.inside]
        refine bodyRelayed_read ha fun t ht htu => ?_
        rw [hl]
        refine wp_mono (ih (n + 1 - k) t (by omega)) (fun gzip u hu => ⟨hu.1, ?_⟩)
          (fun e u hu => ⟨fun h => hu.1 ?_, ?_⟩)
        · have htr := ht.trans hu.2
          rwa [Nat.add_sub_cancel' (by omega)] at htr
        · rw [htu]
          refine ⟨ha.delivers h.1, ?_⟩
          rw [ha.bytes, length_drop]
          omega
        · obtain ⟨j, hj⟩ := hu.2
          exact ⟨k + j, ht.trans hj⟩
      · refine ⟨fun h => ?_, 0, ha, [], by simp, by simp [shown]⟩
        rw [(hend h.1).1, length_nil] at h
        omega

/-- A body up to the end is relayed if the upstream comes to an end. -/
lemma relayToEnd_spec (fuel : ℕ) : ∀ s : Exchange, s.upstream.bytes.length < fuel →
    wp (relayToEnd p fuel none) s
      (fun gzip t => gzip = none ∧ s.upstream.closed = true ∧
        BodyRelayed p s.upstream.bytes.length s t)
      (fun _ t => ¬(s.upstream.Delivers ∧ s.upstream.closed = true) ∧
        ∃ k, BodyRelayed p k s t) := by
  induction fuel with
  | zero => exact fun _ h => absurd h (Nat.not_lt_zero _)
  | succ fuel ih =>
    intro s hf
    rw [relayToEnd]
    simp only [wp_bind, wp_onUpstream, wp_ite, wp_pure, List.isEmpty_iff]
    refine wp_readSome (by decide) (fun k upstream ha hle hz => ⟨fun hn => ?_,
      fun hd => ?_⟩) (fun e upstream ha hend => ?_)
    · have hk : k = 0 := by
        have hlen := congrArg List.length hn
        rwa [length_take, Nat.min_eq_left ha.inside] at hlen
      subst hk
      obtain ⟨hb, hc⟩ := hz rfl
      refine ⟨trivial, hc, ?_⟩
      rw [hb]
      exact ⟨ha, [], by simp, by simp [shown, hb]⟩
    · have hk : 0 < k := Nat.pos_of_ne_zero fun h => hd (by rw [h, take_zero])
      have hi := ha.inside
      refine bodyRelayed_read ha fun t ht htu => ?_
      have hl : t.upstream.bytes.length = s.upstream.bytes.length - k := by
        rw [htu, ha.bytes, length_drop]
      have hc : t.upstream.closed = s.upstream.closed := by rw [htu, ha.closed]
      refine wp_mono (ih t (by omega)) (fun gzip u hu => ⟨hu.1, hc ▸ hu.2.1, ?_⟩)
        (fun e u hu => ⟨fun h => hu.1 ⟨htu ▸ ha.delivers h.1, hc ▸ h.2⟩, ?_⟩)
      · have htr := ht.trans hu.2.2
        rwa [hl, Nat.add_sub_cancel' hi] at htr
      · obtain ⟨j, hj⟩ := hu.2
        exact ⟨k + j, ht.trans hj⟩
    · refine ⟨fun h => ?_, 0, ha, [], by simp, by simp [shown]⟩
      rw [(hend h.1).2] at h
      cases h.2

/-- Whether the end of the body comes. -/
def BodyEnds (contentLength : Option ℕ) (rest : Bytes) (closed : Bool) : Prop :=
  match contentLength with
  | some length => length ≤ rest.length
  | none => closed = true

/-- The body is relayed if its end comes, whether it came with the head or later. -/
lemma relayUpstreamBody_spec (contentLength : Option ℕ) (already : Bytes) (s : Exchange) :
    wp (relayUpstreamBody p contentLength already none) s
      (fun gzip t => gzip = none ∧
        BodyEnds contentLength (already ++ s.upstream.bytes) s.upstream.closed ∧
        ∃ parts : List Sent, t.sent = s.sent ++ parts ∧
          parts.flatMap Sent.bytes = shown p (bodyIn contentLength (already ++ s.upstream.bytes)))
      (fun _ t => ¬(s.upstream.Delivers ∧
          BodyEnds contentLength (already ++ s.upstream.bytes) s.upstream.closed) ∧
        ∃ parts : List Sent, t.sent = s.sent ++ parts) := by
  have hsh : ∀ a b : Bytes, shown p a ++ shown p b = shown p (a ++ b) := by
    intro a b
    cases hh : p.head <;> simp [shown, hh]
  unfold relayUpstreamBody
  cases contentLength with
  | some length =>
    simp only [wp_bind, BodyEnds, bodyIn, length_append]
    refine wp_writeBody fun parts hp => ?_
    refine wp_mono (relayLength_spec _ _ _ le_rfl) (fun gzip t ht => ⟨ht.1, ?_, ?_⟩)
      (fun e t ht => ⟨fun h => ht.1 ⟨h.1, by dsimp only; omega⟩, ?_⟩)
    · have hi := ht.2.upstream.inside
      dsimp only at hi
      omega
    · obtain ⟨more, hs, hm⟩ := ht.2.sent
      refine ⟨parts ++ more, by rw [hs, append_assoc], ?_⟩
      rw [flatMap_append, hp, hm, hsh, take_append]
    · obtain ⟨k, hk⟩ := ht.2
      obtain ⟨more, hs, -⟩ := hk.sent
      exact ⟨parts ++ more, by rw [hs, append_assoc]⟩
  | none =>
    simp only [wp_bind, wp_get, bodyIn]
    refine wp_writeBody fun parts hp => ?_
    refine wp_mono (relayToEnd_spec _ _ (Nat.lt_succ_self _)) (fun gzip t ht =>
      ⟨ht.1, ht.2.1, ?_⟩) (fun e t ht => ⟨ht.1, ?_⟩)
    · obtain ⟨more, hs, hm⟩ := ht.2.2.sent
      refine ⟨parts ++ more, by rw [hs, append_assoc], ?_⟩
      rw [flatMap_append, hp, hm, hsh, take_length]
    · obtain ⟨k, hk⟩ := ht.2
      obtain ⟨more, hs, -⟩ := hk.sent
      exact ⟨parts ++ more, by rw [hs, append_assoc]⟩

/-- A head that is accepted is written, and the body follows if its end comes. -/
lemma relayUpstream_spec {buf : Bytes} {stop : ℕ}
    (hp : parseUpstreamResponse (buf.take stop) = .ok head) (hpl : compresses p head = false)
    (s : Exchange) :
    wp (relayUpstream p buf stop) s
      (fun _ t => BodyEnds head.contentLength (buf.drop stop ++ s.upstream.bytes)
          s.upstream.closed ∧
        ∃ parts : List Sent, t.sent = s.sent ++ .head (headText p head) :: parts ∧
          parts.flatMap Sent.bytes =
            shown p (bodyIn head.contentLength (buf.drop stop ++ s.upstream.bytes)))
      (fun _ t => ¬(s.upstream.Delivers ∧
          BodyEnds head.contentLength (buf.drop stop ++ s.upstream.bytes) s.upstream.closed) ∧
        ∃ parts : List Sent, t.sent = s.sent ++ .head (headText p head) :: parts) := by
  rw [relayUpstream, hp]
  simp only [hpl, wp_bind, wp_send]
  refine wp_mono (relayUpstreamBody_spec head.contentLength (buf.drop stop) _)
    (fun gzip t ht => ?_) (fun e t ht => ⟨ht.1, ?_⟩)
  · obtain ⟨rfl, hen, parts, hs, hpa⟩ := ht
    exact ⟨hen, parts, by simpa using hs, hpa⟩
  · obtain ⟨parts, hs⟩ := ht.2
    exact ⟨parts, by simpa using hs⟩

end Body

/-! ## What reading the head does -/

section Head

variable {maxHeaders : ℕ} {s : Exchange} {all : Bytes} {position : ℕ}

/-- What is known when the head has been looked for: the client was told why there is none, which
takes a read that ends inside it and past the limit, or the head was found, at the first empty line
of all that the upstream sends. -/
inductive HeadRead (maxHeaders : ℕ) (start : Source) (s : Exchange) :
    Option (Bytes × ℕ) → Exchange → Prop
  | refused (t : Exchange) (message : String) : t.sent = s.sent ++ [.error .badGateway message] →
      (∀ position, findSub blankLine start.bytes = some position → maxHeaders + 1 < position + 4) →
      HeadRead maxHeaders start s none t
  | found (k position : ℕ) (upstream : Source) : start.After k upstream →
      findSub blankLine start.bytes = some position → position + 4 ≤ k → k ≤ maxHeaders + 4096 →
      HeadRead maxHeaders start s (some (start.bytes.take k, position + 4)) { s with upstream }

/-- The loop tells the client why it gives up, finds the head, or fails; from an upstream that
delivers a head it does not fail. -/
lemma readUpstreamHead_spec (maxHeaders : ℕ) (start : Source) (fuel : ℕ) :
    ∀ (j : ℕ) (s : Exchange), start.After j s.upstream →
      (∀ position, findSub blankLine start.bytes = some position → j < position + 4) →
      wp (readUpstreamHead maxHeaders fuel (start.bytes.take j)) s
        (fun found t => HeadRead maxHeaders start s found t)
        (fun _ t => t.sent = s.sent ∧ (start.Delivers → start.bytes.length < fuel + j →
          findSub blankLine start.bytes = none)) := by
  -- at the end of what is sent there is no head
  have hn : ∀ {j : ℕ} {t : Source}, start.After j t → t.bytes = [] →
      (∀ position, findSub blankLine start.bytes = some position → j < position + 4) →
      findSub blankLine start.bytes = none := by
    intro j t hs hnil hb
    rw [hs.bytes, drop_eq_nil_iff] at hnil
    refine Option.eq_none_iff_forall_ne_some.mpr fun position hf => ?_
    have hin : position + 4 ≤ start.bytes.length := findSub_add_length_le (by decide) hf
    have hla := hb position hf
    omega
  induction fuel with
  | zero => exact fun j s hs _ => ⟨rfl, fun _ h => by have := hs.inside; omega⟩
  | succ fuel ih =>
    intro j s hs hb
    have hlen : (start.bytes.take j).length = j := by
      rw [length_take, Nat.min_eq_left hs.inside]
    rw [readUpstreamHead]
    simp only [wp_ite, wp_bind, wp_onUpstream, List.isEmpty_iff]
    refine ⟨fun hlo => .refused _ _ rfl fun position hf => ?_, fun hsh => ?_⟩
    · have := hb position hf
      omega
    refine wp_readSome (by decide) (fun k upstream ha hle hz => ⟨fun hnil => ?_,
      fun hda => ?_⟩) (fun e upstream _ hend => ⟨trivial, fun hd _ =>
        hn hs (hend (hs.delivers hd)).1 hb⟩)
    · have hk := congrArg List.length hnil
      rw [length_take, Nat.min_eq_left ha.inside] at hk
      refine .refused _ _ rfl fun position hf => ?_
      rw [hn hs (hz hk).1 hb] at hf
      cases hf
    · have hk : 0 < k := Nat.pos_of_ne_zero fun h => hda (by rw [h, take_zero])
      have htr : start.After (j + k) upstream := hs.trans ha
      rw [hs.bytes, ← take_add]
      cases hf : findSub blankLine (start.bytes.take (j + k)) with
      | some position =>
        have hall := findSub_append (by decide) hf (start.bytes.drop (j + k))
        rw [take_append_drop] at hall
        have hin : position + 4 ≤ _ := findSub_add_length_le (by decide) hf
        rw [length_take] at hin
        exact .found (j + k) position upstream htr hall (by omega) (by omega)
      | none =>
        refine wp_mono (ih (j + k) { s with upstream } htr fun position hp => ?_)
          (fun found t ht => ?_) (fun _ t ht => ⟨ht.1, fun hd hfu =>
            ht.2 hd (by omega)⟩)
        · rw [findSub_take (by decide) hp] at hf
          exact Nat.lt_of_not_le fun hin => by cases (if_pos hin).symm.trans hf
        · cases ht with
          | refused t message hse hl => exact .refused t message hse hl
          | found k position upstream ha hp hin hm =>
            exact .found k position upstream ha hp hin hm

variable {P : Option (Bytes × ℕ) → Exchange → Prop}

/-- Reads of one byte take the head byte by byte. -/
lemma readUpstreamHead_bytewise (maxHeaders : ℕ) (hf : findSub blankLine all = some position)
    (closed : Bool) (fuel m : ℕ) :
    ∀ j : ℕ, j + m ≤ maxHeaders + 1 → j + m < position + 4 →
      (wp (readUpstreamHead maxHeaders (fuel + m) (all.take j))
          { s with upstream := ⟨all.drop j, List.replicate m (.upTo 1), closed⟩ } P E ↔
        wp (readUpstreamHead maxHeaders fuel (all.take (j + m)))
          { s with upstream := ⟨all.drop (j + m), [], closed⟩ } P E) := by
  have ht : position + 4 ≤ all.length := findSub_add_length_le (by decide) hf
  induction m with
  | zero => exact fun _ _ _ => Iff.rfl
  | succ m ih =>
    intro j hl hi
    have hlen : (all.take j).length = j := by
      rw [length_take]
      omega
    have hm : all.drop j ≠ [] := by
      rw [ne_eq, drop_eq_nil_iff]
      omega
    have hmi : ¬position + blankLine.length ≤ j + 1 := by
      have : blankLine.length = 4 := rfl
      omega
    have ho : (all.drop j).take 1 ≠ [] := by
      rw [ne_eq, take_eq_nil_iff, not_or]
      exact ⟨by decide, hm⟩
    have hn := ih (j + 1) (by omega) (by omega)
    rw [show j + 1 + m = j + (m + 1) by omega] at hn
    rw [← hn, ← Nat.add_assoc, readUpstreamHead, if_neg (by omega)]
    simp only [wp_bind, wp_onUpstream, List.isEmpty_iff]
    rw [wp_readSome_upTo (n := 1) rfl (by decide) hm]
    simp only [show min 4096 (max 1 1) = 1 from rfl, ← take_add, findSub_take (by decide) hf,
      if_neg hmi, drop_drop, ho]
    rfl

/-- Cut into single bytes, a head that is too long is refused. -/
lemma readUpstreamHead_refused (hf : findSub blankLine all = some position) (closed : Bool)
    (hl : maxHeaders + 1 < position + 4) :
    wp (readUpstreamHead maxHeaders (all.length + 1) [])
        { s with upstream := ⟨all, List.replicate (maxHeaders + 1) (.upTo 1), closed⟩ } P E ↔
      P none { s with
        upstream := ⟨all.drop (maxHeaders + 1), [], closed⟩
        sent := s.sent ++ [.error .badGateway "upstream headers too large"] } := by
  have ht : position + 4 ≤ all.length := findSub_add_length_le (by decide) hf
  have hr := readUpstreamHead_bytewise (s := s) (P := P) (E := E) maxHeaders hf closed
    (all.length - maxHeaders) (maxHeaders + 1) 0 (by omega) (by omega)
  rw [show all.length - maxHeaders + (maxHeaders + 1) = all.length + 1 by omega, take_zero,
    drop_zero, Nat.zero_add] at hr
  have hlen : (all.take (maxHeaders + 1)).length = maxHeaders + 1 := by
    rw [length_take]
    omega
  rw [hr, show all.length - maxHeaders = (all.length - maxHeaders - 1) + 1 by omega,
    readUpstreamHead, hlen, if_pos (Nat.lt_succ_self _)]
  rfl

/-- With the last `4096` bytes in one read, a head may be longer than the limit. -/
lemma readUpstreamHead_found (hf : findSub blankLine all = some position) (closed : Bool)
    {m k : ℕ} (hm : m ≤ maxHeaders) (hb : m < position + 4) (hk : k = m + 4096)
    (hin : position + 4 ≤ k) :
    wp (readUpstreamHead maxHeaders (all.length + 1) [])
        { s with upstream := ⟨all, List.replicate m (.upTo 1), closed⟩ } P E ↔
      P (some (all.take k, position + 4)) { s with upstream := ⟨all.drop k, [], closed⟩ } := by
  have ht : position + 4 ≤ all.length := findSub_add_length_le (by decide) hf
  have hr := readUpstreamHead_bytewise (s := s) (P := P) (E := E) maxHeaders hf closed
    (all.length + 1 - m) m 0 (by omega) (by omega)
  rw [show all.length + 1 - m + m = all.length + 1 by omega, take_zero, drop_zero,
    Nat.zero_add] at hr
  have hl : (all.take m).length = m := by
    rw [length_take]
    omega
  have hmo : all.drop m ≠ [] := by
    rw [ne_eq, drop_eq_nil_iff]
    omega
  have hs : (all.drop m).take 4096 ≠ [] := by
    rw [ne_eq, take_eq_nil_iff, not_or]
    exact ⟨by decide, hmo⟩
  rw [hr, show all.length + 1 - m = (all.length - m) + 1 by omega, readUpstreamHead,
    if_neg (by omega)]
  simp only [wp_bind, wp_onUpstream, List.isEmpty_iff]
  rw [wp_readSome_upTo (n := 4096) rfl (by decide) hmo]
  simp only [show min 4096 (max 4096 1) = 4096 from rfl, ← take_add, ← hk,
    findSub_take (by decide) hf, if_pos (show position + blankLine.length ≤ k from hin),
    drop_drop, hs]
  rfl

end Head

/-- What becomes of a response whose head is accepted: the client is told that the head is too
long, or the head is written and the body follows. -/
lemma streamUpstreamResponse_cases {p : ResponseParams} {s : Exchange} {all : Bytes}
    {position : ℕ} (hf : findSub blankLine all = some position)
    (hpa : parseUpstreamResponse (all.take (position + 4)) = .ok head)
    (hpl : compresses p head = false) (hb : s.upstream.bytes = all) :
    wp (streamUpstreamResponse p) s
      (fun _ t => (∃ message, t.sent = s.sent ++ [.error .badGateway message]) ∨
        ∃ parts : List Sent, t.sent = s.sent ++ .head (headText p head) :: parts ∧
          parts.flatMap Sent.bytes =
            shown p (bodyIn head.contentLength (all.drop (position + 4))))
      (fun _ _ => True) := by
  rw [streamUpstreamResponse]
  simp only [wp_bind, wp_get]
  refine wp_mono (readUpstreamHead_spec _ s.upstream _ 0 s (.refl _) fun _ _ => by omega)
    (fun found t ht => ?_) (fun _ _ _ => trivial)
  cases ht with
  | refused t message hs _ => exact .inl ⟨_, hs⟩
  | found k position' upstream ha hp hk _ =>
    rw [hb] at hp
    cases hf.symm.trans hp
    have hbuf : (s.upstream.bytes.take k).take (position + 4) = all.take (position + 4) := by
      rw [take_take, Nat.min_eq_left hk, hb]
    have hr : (s.upstream.bytes.take k).drop (position + 4) ++ upstream.bytes =
        all.drop (position + 4) := by
      have hi := ha.inside
      rw [ha.bytes, ← drop_append_of_le_length, take_append_drop, hb]
      rw [length_take]
      omega
    refine wp_mono (relayUpstream_spec (hbuf ▸ hpa) hpl { s with upstream })
      (fun _ t ht => .inr ?_) (fun _ _ _ => trivial)
    rw [hr] at ht
    exact ht.2

end Veysrs.Proxy
