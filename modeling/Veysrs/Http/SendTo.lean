import Veysrs.Core.Io
import Veysrs.Http.Response

/-!
# Sending a response

`HttpResponse::send_to` with all its body sources.  The file is read while the response is sent, so
what the reads return comes from outside (`Transfer`), as does whether a write succeeds: the file may
have grown or shrunk since its size was put into `Content-Length`.

A body in memory and a range of a file are written with exactly their length or not to the end
(`wp_copyRange`).  A whole file is copied up to the first read that returns nothing, whatever its
size was; the framing is then right only if the file still has that size (`framed_iff`).
-/

namespace Veysrs

open Core List

/-! ## The builders -/

namespace HttpResponse

def withHeader (resp : HttpResponse) (name value : Str) : HttpResponse :=
  { resp with
    headers := resp.headers ++
      [(name.filter fun c => c ≠ '\r' ∧ c ≠ '\n', value.filter fun c => c ≠ '\r' ∧ c ≠ '\n')] }

/-- The three builders that set a body: its length and its type go into the headers. -/
def withSource (resp : HttpResponse) (length : ℕ) (contentType : String) (source : BodySource) :
    HttpResponse :=
  { resp with
    headers := resp.headers ++
      [("Content-Length".toList, decimal length), ("Content-Type".toList, contentType.toList)]
    bodySource := source }

def withFile (resp : HttpResponse) (file : Bytes) (fileSize : ℕ) (contentType : String) :
    HttpResponse :=
  resp.withSource fileSize contentType (.file file fileSize)

def withFileRange (resp : HttpResponse) (file : Bytes) (offset length : ℕ) (contentType : String) :
    HttpResponse :=
  resp.withSource length contentType (.fileRange file offset length)

lemma withBody_eq (resp : HttpResponse) (body : Bytes) (contentType : String) :
    resp.withBody body contentType = resp.withSource body.length contentType (.bytes body) := rfl

def bodyLen (resp : HttpResponse) : ℕ :=
  match resp.bodySource with
  | .bytes data => data.length
  | .file _ size => size
  | .fileRange _ _ length => length
  | .gzipFile _ size _ => size

def chunked (resp : HttpResponse) : Bool :=
  match resp.bodySource with
  | .gzipFile _ _ _ => true
  | _ => false

/-- The head, for every source. -/
def sendHead (resp : HttpResponse) : Str :=
  joinLines
    (("HTTP/1.1 ".toList ++ decimal resp.status.code ++ ' ' :: resp.status.reasonPhrase.toList) ::
      (resp.headers.filter fun header =>
        !(resp.chunked && eqIgnoreAsciiCase header.1 "Content-Length".toList)).map
          (fun header => header.1 ++ ": ".toList ++ header.2) ++
      (if resp.headers.any fun header => eqIgnoreAsciiCase header.1 "Connection".toList then []
      else if resp.closeConnection then ["Connection: close".toList]
      else ["Connection: keep-alive".toList]) ++
      (if resp.chunked && !(resp.headers.any fun header =>
          eqIgnoreAsciiCase header.1 "Transfer-Encoding".toList) then
        ["Transfer-Encoding: chunked".toList]
      else []) ++
      [[], []])

lemma sendHead_eq {resp : HttpResponse} (h : resp.chunked = false) :
    resp.sendHead = resp.headText := by
  rw [sendHead, headText, h]
  simp only [Bool.false_and, Bool.not_false, filter_true, Bool.false_eq_true, if_false,
    append_nil]

end HttpResponse

/-! ## Sending -/

/-- What happens outside while a response is sent: the results of the reads, each asked for so many
bytes at most, and of the writes, of which the head's is the first.  An empty read is the end of the
file. -/
structure Transfer where
  tryClone : Except IoError Unit
  seek : Except IoError Unit
  read : ℕ → ℕ → Except IoError Bytes
  /-- What the encoder returns that reads the file. -/
  readEncoded : ℕ → ℕ → Except IoError Bytes
  write : ℕ → Except IoError Unit
  flush : Except IoError Unit
  read_le : ∀ {i limit bytes}, read i limit = .ok bytes → bytes.length ≤ limit

/-- How far the sending is.  A write that fails may have written a part, which is not counted. -/
structure Sending where
  reads : ℕ := 0
  writes : ℕ := 0
  written : Bytes := []
  deriving DecidableEq, Repr

abbrev SendM := EStateM IoError Sending

/-- The stack buffer of `send_to`. -/
def chunkSize : ℕ := 65536

namespace Transfer

variable (t : Transfer)

def writeAll (bytes : Bytes) : SendM Unit := do
  let s ← get
  MonadExcept.ofExcept (t.write s.writes)
  set { s with writes := s.writes + 1, written := s.written ++ bytes }

def readChunk (read : ℕ → ℕ → Except IoError Bytes) (limit : ℕ) : SendM Bytes := do
  let s ← get
  let bytes ← MonadExcept.ofExcept (read s.reads limit)
  set { s with reads := s.reads + 1 }
  return bytes

/-- The `loop` over a whole file; whether it was left within the fuel. -/
def copyFile : ℕ → SendM Bool
  | 0 => return false
  | fuel + 1 => do
      let chunk ← readChunk t.read chunkSize
      if chunk = [] then return true
      else do
        t.writeAll chunk
        copyFile fuel

/-- The `while remaining > 0` over a range.  Every round reads a byte, so what remains is fuel
enough. -/
def copyRange : ℕ → ℕ → SendM Unit
  | 0, _ => return ()
  | fuel + 1, remaining =>
    if remaining = 0 then return ()
    else do
      let chunk ← readChunk t.read (min remaining chunkSize)
      if chunk = [] then throw ⟨.unexpectedEof, "file changed while streaming response"⟩
      else do
        t.writeAll chunk
        copyRange fuel (remaining - chunk.length)

/-- `write_chunked`; whether its loop was left within the fuel. -/
def writeChunked (chunked : Bool) : ℕ → SendM Bool
  | 0 => return false
  | fuel + 1 => do
      let chunk ← readChunk t.readEncoded chunkSize
      if chunk = [] then do
        if chunked then t.writeAll (utf8 "0\r\n\r\n".toList)
        return true
      else if chunked then do
        t.writeAll (utf8 (Nat.toDigits 16 chunk.length ++ "\r\n".toList))
        t.writeAll chunk
        t.writeAll (utf8 "\r\n".toList)
        writeChunked chunked fuel
      else do
        t.writeAll chunk
        writeChunked chunked fuel

def sendBody (resp : HttpResponse) (fuel : ℕ) : SendM Bool :=
  match resp.bodySource with
  | .bytes bytes => do
      if bytes ≠ [] then t.writeAll bytes
      return true
  | .file _ _ => do
      MonadExcept.ofExcept t.tryClone
      t.copyFile fuel
  | .fileRange _ _ length => do
      MonadExcept.ofExcept t.tryClone
      MonadExcept.ofExcept t.seek
      t.copyRange length length
      return true
  | .gzipFile _ _ _ => do
      MonadExcept.ofExcept t.tryClone
      t.writeChunked resp.chunked fuel

/-- `send_to`; whether it has returned within the fuel. -/
def sendTo (resp : HttpResponse) (fuel : ℕ) : SendM Bool := do
  t.writeAll (utf8 resp.sendHead)
  let ended ← t.sendBody resp fuel
  if ended then do
    MonadExcept.ofExcept t.flush
    return true
  else return false

end Transfer

/-! ## Framing -/

/-- The response carries the `Content-Length` that the builder of its body has set. -/
structure Announces (resp : HttpResponse) (length : ℕ) : Prop where
  header : ("Content-Length".toList, decimal length) ∈ resp.headers
  measured : resp.bodyLen = length
  identity : resp.chunked = false

/-- **Exact framing**: the response is sent with an error, or with `length` bytes behind the head. -/
def Framed (t : Transfer) (resp : HttpResponse) (length : ℕ) : Prop :=
  ∃ fuel, wp (t.sendTo resp fuel) {}
    (fun ended s => ended = true ∧ ∃ body, s.written = utf8 resp.headText ++ body ∧
      body.length = length)
    (fun _ _ => True)

namespace Transfer

variable (t : Transfer)

/-- The first `k` reads of a whole file each gave some bytes, which were written. -/
def Copies (k : ℕ) : Prop :=
  ∀ i < k, ∃ bytes, t.read i chunkSize = .ok bytes ∧ bytes ≠ [] ∧ t.write (i + 1) = .ok ()

/-- How many bytes the first `k` reads gave. -/
def delivered : ℕ → ℕ
  | 0 => 0
  | k + 1 => delivered k +
      match t.read k chunkSize with
      | .ok bytes => bytes.length
      | .error _ => 0

/-- The round of read `k` fails. -/
def FailsAt (k : ℕ) : Prop :=
  (∃ e, t.read k chunkSize = .error e) ∨
    ∃ bytes e, t.read k chunkSize = .ok bytes ∧ bytes ≠ [] ∧ t.write (k + 1) = .error e

/-- **The file holds still**: while it is copied it ends after `size` bytes, if nothing fails. -/
def HoldsStill (size : ℕ) : Prop :=
  (∃ e, t.write 0 = .error e) ∨ (∃ e, t.tryClone = .error e) ∨
    ∃ k, t.Copies k ∧ (t.FailsAt k ∨
      t.read k chunkSize = .ok [] ∧ (t.delivered k = size ∨ ∃ e, t.flush = .error e))

end Transfer

/-! ### The loops -/

section Loops

variable {t : Transfer}

/-- A range is written with its length, or not to the end. -/
lemma wp_copyRange (fuel : ℕ) : ∀ {remaining : ℕ} {s : Sending}, remaining ≤ fuel →
    wp (t.copyRange fuel remaining) s
      (fun _ u => ∃ body, u.written = s.written ++ body ∧ body.length = remaining)
      (fun _ _ => True) := by
  induction fuel with
  | zero =>
    intro remaining s h
    exact ⟨[], (append_nil _).symm, (Nat.le_zero.mp h).symm⟩
  | succ fuel ih =>
    intro remaining s h
    rw [Transfer.copyRange]
    by_cases hz : remaining = 0
    · rw [if_pos hz]
      exact ⟨[], (append_nil _).symm, hz.symm⟩
    · rw [if_neg hz]
      simp only [Transfer.readChunk, Transfer.writeAll, wp_bind, wp_pure]
      refine wp_ofExcept (fun chunk hr => ?_) (fun _ _ => trivial)
      have hle := t.read_le hr
      by_cases hc : chunk = []
      · rw [if_pos hc]
        trivial
      · rw [if_neg hc]
        simp only [wp_bind]
        refine wp_ofExcept (fun _ _ => ?_) (fun _ _ => trivial)
        have hp := length_pos_iff.mpr hc
        rw [wp_set]
        refine wp_mono (ih (by omega)) ?_ (fun _ _ _ => trivial)
        rintro - u ⟨body, hb, hl⟩
        refine ⟨chunk ++ body, by rw [hb, append_assoc], ?_⟩
        rw [length_append]
        omega

/-- One round over a whole file, from the state after `i` of them. -/
lemma wp_copyFile_succ {fuel : ℕ} {s : Sending} {Q : Bool → Sending → Prop} :
    wp (t.copyFile (fuel + 1)) s Q (fun _ _ => True) ↔
      ∀ chunk, t.read s.reads chunkSize = .ok chunk →
        (chunk = [] → Q true { s with reads := s.reads + 1 }) ∧
        (chunk ≠ [] → t.write s.writes = .ok () →
          wp (t.copyFile fuel)
            { reads := s.reads + 1, writes := s.writes + 1, written := s.written ++ chunk } Q
            (fun _ _ => True)) := by
  rw [Transfer.copyFile]
  simp only [Transfer.readChunk, Transfer.writeAll, wp_bind, wp_get]
  cases hr : t.read s.reads chunkSize with
  | error e => simp
  | ok chunk =>
    simp only [wp_set, wp_pure, wp_ite, wp_bind, wp_get]
    cases hw : t.write s.writes with
    | error e => simp
    | ok u => simp

lemma delivered_succ {k : ℕ} {bytes : Bytes} (h : t.read k chunkSize = .ok bytes) :
    t.delivered (k + 1) = t.delivered k + bytes.length := by
  rw [Transfer.delivered, h]

lemma copies_succ {k : ℕ} {bytes : Bytes} (h : t.Copies k) (hr : t.read k chunkSize = .ok bytes)
    (hne : bytes ≠ []) (hw : t.write (k + 1) = .ok ()) : t.Copies (k + 1) := by
  intro i hi
  rcases Nat.lt_succ_iff_lt_or_eq.mp hi with hlt | rfl
  · exact h i hlt
  · exact ⟨bytes, hr, hne, hw⟩

/-- If the copying ends well, the file holds still. -/
lemma exists_end_of_copyFile (start : Bytes) {size : ℕ} {done : Prop} (fuel : ℕ) :
    ∀ {s : Sending}, s.writes = s.reads + 1 → t.Copies s.reads →
      s.written.length = start.length + t.delivered s.reads →
      wp (t.copyFile fuel) s
        (fun ended u => ended = true ∧ (u.written.length = start.length + size ∨ done))
        (fun _ _ => True) →
      ∃ k, t.Copies k ∧
        (t.FailsAt k ∨ t.read k chunkSize = .ok [] ∧ (t.delivered k = size ∨ done)) := by
  induction fuel with
  | zero =>
    rintro s - - - ⟨hen, -⟩
    cases hen
  | succ fuel ih =>
    intro s hwr hc hl h
    rw [wp_copyFile_succ] at h
    cases hr : t.read s.reads chunkSize with
    | error e => exact ⟨s.reads, hc, .inl (.inl ⟨e, hr⟩)⟩
    | ok chunk =>
      obtain ⟨hem, hm⟩ := h chunk hr
      by_cases hch : chunk = []
      · subst hch
        refine ⟨s.reads, hc, .inr ⟨hr, (hem rfl).2.imp (fun hs => ?_) id⟩⟩
        simp only at hs
        omega
      · cases hw : t.write s.writes with
        | error e =>
          rw [hwr] at hw
          exact ⟨s.reads, hc, .inl (.inr ⟨chunk, e, hr, hch, hw⟩)⟩
        | ok u =>
          have hn := hm hch hw
          rw [hwr] at hw
          refine ih (by simp only [hwr]) (copies_succ hc hr hch hw) ?_ hn
          simp only [length_append, delivered_succ hr]
          omega

/-- If the file holds still, the copying ends well. -/
lemma copyFile_of_end (start : Bytes) {size : ℕ} {done : Prop} (rounds : ℕ) :
    ∀ {s : Sending} {k : ℕ}, s.reads + rounds = k → s.writes = s.reads + 1 → t.Copies k →
      (t.FailsAt k ∨ t.read k chunkSize = .ok [] ∧ (t.delivered k = size ∨ done)) →
      s.written.length = start.length + t.delivered s.reads → start <+: s.written →
      wp (t.copyFile (rounds + 1)) s
        (fun ended u => ended = true ∧ start <+: u.written ∧
          (u.written.length = start.length + size ∨ done))
        (fun _ _ => True) := by
  induction rounds with
  | zero =>
    rintro s k rfl hw - hend hl hp
    rw [wp_copyFile_succ]
    intro chunk hr
    rcases hend with (⟨e, her⟩ | ⟨bytes, e, hb, hne, hwr⟩) | ⟨heof, hs⟩
    · rw [Nat.add_zero, hr] at her
      cases her
    · rw [Nat.add_zero, hr] at hb
      cases hb
      refine ⟨fun hn => absurd hn hne, fun _ hok => ?_⟩
      rw [hw] at hok
      rw [hok] at hwr
      cases hwr
    · rw [Nat.add_zero, hr] at heof
      cases heof
      refine ⟨fun _ => ⟨rfl, hp, hs.imp (fun h => ?_) id⟩, fun hne => absurd rfl hne⟩
      rw [← h]
      exact hl
  | succ rounds ih =>
    rintro s k rfl hw hc hend hl hp
    obtain ⟨bytes, hr, hne, hwr⟩ := hc s.reads (by omega)
    rw [wp_copyFile_succ]
    intro chunk hch
    rw [hr] at hch
    cases hch
    refine ⟨fun hn => absurd hn hne, fun _ _ => ?_⟩
    refine ih (k := s.reads + (rounds + 1)) (by simp only; omega) (by simp only [hw]) hc
      hend ?_ (hp.trans (prefix_append _ _))
    simp only [length_append, delivered_succ hr]
    omega

end Loops

/-! ### The response -/

section Framing

variable {t : Transfer} {resp : HttpResponse} {length fuel : ℕ}

/-- Behind the head that was written, a body of that length. -/
def BodyWritten (resp : HttpResponse) (length : ℕ) (s : Sending) : Prop :=
  ∃ body, s.written = utf8 resp.headText ++ body ∧ body.length = length

lemma length_of_bodyWritten {s : Sending} (h : BodyWritten resp length s) :
    s.written.length = (utf8 resp.headText).length + length := by
  obtain ⟨body, hb, rfl⟩ := h
  rw [hb, length_append]

lemma bodyWritten_of_length {s : Sending} (hp : utf8 resp.headText <+: s.written)
    (hl : s.written.length = (utf8 resp.headText).length + length) :
    BodyWritten resp length s := by
  obtain ⟨body, hb⟩ := hp
  refine ⟨body, hb.symm, ?_⟩
  rw [← hb, length_append] at hl
  omega

/-- The state once the head is written. -/
def afterHead (resp : HttpResponse) : Sending := { writes := 1, written := utf8 resp.headText }

/-- What was written stays written. -/
def Written (s u : Sending) : Prop := s.written <+: u.written

instance : IsPreorder Sending Written where
  refl _ := prefix_rfl
  trans _ _ _ := List.IsPrefix.trans

lemma Transfer.writeAll_keeps (t : Transfer) (bytes : Bytes) : Moves Written (t.writeAll bytes) := by
  intro s
  simp only [Transfer.writeAll, wp_bind]
  refine wp_ofExcept (fun _ _ => ?_) fun _ _ => prefix_rfl
  exact prefix_append s.written bytes

lemma readChunk_keeps (read : ℕ → ℕ → Except IoError Bytes) (limit : ℕ) :
    Moves Written (Transfer.readChunk read limit) := by
  intro s
  simp only [Transfer.readChunk, wp_bind]
  exact wp_ofExcept (fun _ _ => prefix_rfl) fun _ _ => prefix_rfl

lemma Transfer.copyFile_keeps (t : Transfer) (fuel : ℕ) : Moves Written (t.copyFile fuel) := by
  induction fuel with
  | zero => exact moves_pure _
  | succ fuel ih =>
    refine (readChunk_keeps _ _).bind fun chunk => (moves_pure _).ite ?_
    exact (t.writeAll_keeps chunk).bind fun _ => ih

lemma Transfer.copyRange_keeps (t : Transfer) (fuel : ℕ) :
    ∀ remaining, Moves Written (t.copyRange fuel remaining) := by
  induction fuel with
  | zero => exact fun _ => moves_pure _
  | succ fuel ih =>
    intro remaining
    refine (moves_pure _).ite ((readChunk_keeps _ _).bind fun chunk => (moves_throw _).ite ?_)
    exact (t.writeAll_keeps chunk).bind fun _ => ih _

lemma Transfer.writeChunked_keeps (t : Transfer) (chunked : Bool) (fuel : ℕ) :
    Moves Written (t.writeChunked chunked fuel) := by
  induction fuel with
  | zero => exact moves_pure _
  | succ fuel ih =>
    refine (readChunk_keeps _ _).bind fun chunk => Moves.ite ?_ (Moves.ite ?_ ?_)
    · cases chunked with
      | false => exact moves_pure _
      | true => exact (t.writeAll_keeps _).bind fun _ => moves_pure _
    · exact (t.writeAll_keeps _).bind fun _ => (t.writeAll_keeps _).bind fun _ =>
        (t.writeAll_keeps _).bind fun _ => ih
    · exact (t.writeAll_keeps _).bind fun _ => ih

lemma Transfer.sendBody_keeps (t : Transfer) (resp : HttpResponse) (fuel : ℕ) :
    Moves Written (t.sendBody resp fuel) := by
  rw [Transfer.sendBody]
  split
  · rename_i bytes _
    by_cases hem : bytes = []
    · simp only [hem]
      exact moves_pure _
    · simp only [ne_eq, hem]
      exact (t.writeAll_keeps _).bind fun _ => moves_pure _
  · exact (moves_ofExcept _).bind fun _ => t.copyFile_keeps fuel
  · exact (moves_ofExcept _).bind fun _ => (moves_ofExcept _).bind fun _ =>
      (t.copyRange_keeps _ _).bind fun _ => moves_pure _
  · exact (moves_ofExcept _).bind fun _ => t.writeChunked_keeps _ fuel

/-- **The head is what is sent first.** -/
lemma Transfer.head_sent (t : Transfer) (resp : HttpResponse) (fuel : ℕ)
    (h : t.write 0 = .ok ()) :
    utf8 resp.sendHead <+: (stateOf ((t.sendTo resp fuel).run {})).written := by
  have hr : Moves Written (do
      let ended ← t.sendBody resp fuel
      if ended then do
        MonadExcept.ofExcept t.flush
        return true
      else return false : SendM Bool) :=
    (t.sendBody_keeps resp fuel).bind fun ended =>
      ((moves_ofExcept _).bind fun _ => moves_pure _).ite (moves_pure _)
  have hh : (t.writeAll (utf8 resp.sendHead)).run {} =
      .ok () { writes := 1, written := utf8 resp.sendHead } := by
    show EStateM.bind (MonadExcept.ofExcept (t.write 0)) _ _ = _
    rw [h]
    rfl
  rw [Transfer.sendTo, run_bind_of_ok hh]
  exact hr.stateOf_run { writes := 1, written := utf8 resp.sendHead }

/-- What a run of `send_to` comes to, its head and its flush aside. -/
lemma wp_sendTo (hi : resp.chunked = false) :
    wp (t.sendTo resp fuel) {} (fun ended s => ended = true ∧ BodyWritten resp length s)
        (fun _ _ => True) ↔
      (t.write 0 = .ok () → wp (t.sendBody resp fuel) (afterHead resp)
        (fun ended s => ended = true ∧ (t.flush = .ok () → BodyWritten resp length s))
        (fun _ _ => True)) := by
  rw [Transfer.sendTo, HttpResponse.sendHead_eq hi]
  simp only [Transfer.writeAll, wp_bind, wp_get]
  cases hw : t.write 0 with
  | error e => simp
  | ok u =>
    simp only [wp_ofExcept_ok, wp_set, wp_ite, wp_bind, wp_pure, forall_const]
    refine ⟨fun h => wp_mono h ?_ (fun _ _ _ => trivial),
      fun h => wp_mono h ?_ (fun _ _ _ => trivial)⟩
    · rintro ended s ⟨hy, hno⟩
      cases ended with
      | false => exact absurd (hno (by decide)).1 (by decide)
      | true =>
        refine ⟨rfl, fun hf => ?_⟩
        have := hy rfl
        rw [hf] at this
        exact this.2
    · rintro ended s ⟨rfl, hb⟩
      refine ⟨fun _ => ?_, fun hno => absurd rfl hno⟩
      cases hf : t.flush with
      | error e => trivial
      | ok u => exact ⟨trivial, hb hf⟩

end Framing

/-- A response with an announced length is framed exactly, unless it is a whole file that does not
hold still. -/
theorem framed_iff (t : Transfer) (resp : HttpResponse) (length : ℕ)
    (h : Announces resp length) :
    Framed t resp length ↔
      ∀ content size, resp.bodySource = .file content size → t.HoldsStill length := by
  have hrun : Framed t resp length ↔ ∃ fuel, t.write 0 = .ok () →
      wp (t.sendBody resp fuel) (afterHead resp)
        (fun ended s => ended = true ∧ (t.flush = .ok () → BodyWritten resp length s))
        (fun _ _ => True) :=
    exists_congr fun fuel => wp_sendTo h.identity
  have hmeasured := h.measured
  have hidentity := h.identity
  rw [hrun]
  simp only [Transfer.sendBody, HttpResponse.bodyLen, HttpResponse.chunked] at hmeasured hidentity ⊢
  cases hsource : resp.bodySource with
  | bytes data =>
    rw [hsource] at hmeasured
    refine ⟨fun _ _ _ hfile => (by cases hfile), fun _ => ⟨0, fun _ => ?_⟩⟩
    by_cases hdata : data = []
    · subst hdata
      exact ⟨rfl, fun _ => ⟨[], (append_nil _).symm, hmeasured⟩⟩
    · simp only [ne_eq, hdata, not_false_eq_true, if_true, Transfer.writeAll, wp_bind, wp_get]
      exact wp_ofExcept (fun _ _ => ⟨rfl, fun _ => ⟨data, rfl, hmeasured⟩⟩) (fun _ _ => trivial)
  | fileRange content start size =>
    rw [hsource] at hmeasured
    refine ⟨fun _ _ _ hfile => (by cases hfile), fun _ => ⟨0, fun _ => ?_⟩⟩
    simp only [wp_bind]
    refine wp_ofExcept (fun _ _ => ?_) (fun _ _ => trivial)
    refine wp_ofExcept (fun _ _ => ?_) (fun _ _ => trivial)
    refine wp_mono (wp_copyRange size le_rfl) ?_ (fun _ _ _ => trivial)
    rintro - s ⟨body, hbody, hlen⟩
    exact ⟨rfl, fun _ => ⟨body, hbody, hlen.trans hmeasured⟩⟩
  | gzipFile content size level =>
    rw [hsource] at hidentity
    cases hidentity
  | file content size =>
    rw [hsource] at hmeasured
    simp only at hmeasured
    subst hmeasured
    constructor
    · rintro ⟨fuel, h⟩ - - -
      cases hwrite : t.write 0 with
      | error e => exact .inl ⟨e, hwrite⟩
      | ok u =>
        have hcopy := h hwrite
        cases hclone : t.tryClone with
        | error e => exact .inr (.inl ⟨e, hclone⟩)
        | ok u =>
          rw [hclone, wp_bind, wp_ofExcept_ok] at hcopy
          refine .inr (.inr (exists_end_of_copyFile (utf8 resp.headText) fuel
            (s := afterHead resp) rfl (fun i hi => absurd hi (Nat.not_lt_zero i)) rfl
            (wp_mono hcopy ?_ (fun _ _ _ => trivial))))
          rintro ended s ⟨hended, hbody⟩
          refine ⟨hended, ?_⟩
          cases hflush : t.flush with
          | error e => exact .inr ⟨e, rfl⟩
          | ok u => exact .inl (length_of_bodyWritten (hbody hflush))
    · intro h
      rcases h content size rfl with ⟨e, hwrite⟩ | ⟨e, hclone⟩ | ⟨k, hcopies, hend⟩
      · exact ⟨0, fun hok => by rw [hwrite] at hok; cases hok⟩
      · refine ⟨0, fun _ => ?_⟩
        rw [hclone]
        trivial
      · refine ⟨k + 1, fun _ => ?_⟩
        rw [wp_bind]
        refine wp_ofExcept (fun _ _ => ?_) (fun _ _ => trivial)
        refine wp_mono (copyFile_of_end (utf8 resp.headText) k (s := afterHead resp)
          (Nat.zero_add k) rfl hcopies hend rfl prefix_rfl) ?_ (fun _ _ _ => trivial)
        rintro ended s ⟨hended, hpre, hlen⟩
        refine ⟨hended, fun hflush => ?_⟩
        rcases hlen with hlen | ⟨e, hfail⟩
        · exact bodyWritten_of_length hpre hlen
        · rw [hflush] at hfail
          cases hfail

/-- A file that is read as these chunks and then ends, and a client that takes everything. -/
def reading (chunks : List Bytes) : Transfer :=
  { tryClone := .ok ()
    seek := .ok ()
    read := fun i limit => .ok ((chunks.getD i []).take limit)
    readEncoded := fun _ _ => .ok []
    write := fun _ => .ok ()
    flush := .ok ()
    read_le := by
      rintro i limit bytes ⟨⟩
      exact length_take_le _ _ }

/-- A file that was measured with four bytes. -/
def fourBytes : HttpResponse :=
  (HttpResponse.new .ok).withFile [0x61, 0x62, 0x63, 0x64] 4 "text/plain; charset=utf-8"

lemma announces_fourBytes : Announces fourBytes 4 := ⟨by decide, rfl, rfl⟩

theorem framed_steady_file : Framed (reading [[0x61, 0x62, 0x63, 0x64]]) fourBytes 4 := by
  refine (framed_iff _ fourBytes 4 announces_fourBytes).mpr fun _ _ _ => .inr (.inr ⟨1, ?_, .inr ?_⟩)
  · intro i hi
    obtain rfl := Nat.lt_one_iff.mp hi
    exact ⟨[0x61, 0x62, 0x63, 0x64], rfl, by decide, rfl⟩
  · exact ⟨rfl, .inl rfl⟩

/-- The file has grown by two bytes: they are sent behind the four that were announced. -/
theorem grown_file_overruns :
    let sent := ((reading [[0x61, 0x62, 0x63, 0x64], [0x65, 0x66]]).sendTo fourBytes 3).run {}
    Announces fourBytes 4 ∧ valueOf sent = some true ∧
      (stateOf sent).written =
        utf8 fourBytes.headText ++ [0x61, 0x62, 0x63, 0x64, 0x65, 0x66] := by
  refine ⟨announces_fourBytes, ?_, ?_⟩ <;> decide

/-- A file that shrank is sent short, with no error either. -/
example : valueOf (((reading [[0x61]]).sendTo fourBytes 2).run {}) = some true := by
  decide

end Veysrs
