import Veysrs.Http2.Connection

/-!
# What the programs of the connection do

One statement for each primitive of `H2M` and one for each of the programs that answer a request,
in the form the proofs about whole calls use: what the connection and the log are afterwards, when
the program returns and when it fails.  Which writes fail is not part of any statement.
-/

namespace Veysrs

open Core

variable {Q : Unit → ConnState → Prop}

section Primitives

variable {s : ConnState} {E : Http2ErrorCode → ConnState → Prop}

@[simp] lemma wp_getConn {Q : Http2Connection → ConnState → Prop} :
    wp getConn s Q E ↔ Q s.conn s := Iff.rfl

@[simp] lemma wp_modifyConn (f : Http2Connection → Http2Connection) :
    wp (modifyConn f) s Q E ↔ Q () { s with conn := f s.conn } := Iff.rfl

@[simp] lemma wp_logEvent (e : Event) :
    wp (logEvent e) s Q E ↔ Q () { s with trace := s.trace ++ [e] } := Iff.rfl

@[simp] lemma wp_logReads (sid : ℕ) (chunk : PendingBody.Chunk) :
    wp (logReads sid chunk) s Q E ↔
      Q () { s with trace := s.trace ++ readEvents sid chunk } := Iff.rfl

@[simp] lemma wp_nextFault {Q : Bool → ConnState → Prop} :
    wp nextFault s Q E ↔ Q (s.faults.headD false) { s with faults := s.faults.tail } := Iff.rfl

/-- A write logs its frame, or fails and logs nothing. -/
lemma wp_tryWrite {f : Frame} {Q : Bool → ConnState → Prop}
    (hok : ∀ faults, Q true { s with trace := s.trace ++ [.wrote f], faults })
    (hf : ∀ faults, Q false { s with faults }) : wp (tryWrite f) s Q E := by
  simp only [tryWrite, wp_bind, wp_ite]
  exact ⟨fun _ => hf _, fun _ => hok _⟩

lemma wp_writeAll {f : Frame}
    (hok : ∀ faults, Q () { s with trace := s.trace ++ [.wrote f], faults })
    (hf : ∀ faults, E .internalError { s with faults }) : wp (writeAll f) s Q E := by
  rw [writeAll, wp_bind]
  apply wp_tryWrite
  · intro faults
    simpa using hok faults
  · intro faults
    simpa using hf faults

lemma wp_flush (hok : ∀ faults, Q () { s with faults })
    (hf : ∀ faults, E .internalError { s with faults }) : wp flush s Q E := by
  simp only [flush, wp_bind, wp_failIf]
  exact ⟨fun _ => hf _, fun _ => hok _⟩

lemma wp_writeIgnoringErrors {f : Frame}
    (hok : ∀ faults, Q () { s with trace := s.trace ++ [.wrote f], faults })
    (hf : ∀ faults, Q () { s with faults }) : wp (writeIgnoringErrors f) s Q E := by
  rw [writeIgnoringErrors, wp_bind]
  apply wp_tryWrite
  · intro faults
    exact hok _
  · intro faults
    exact hf _

end Primitives

/-- Frames are written in order; after a failure the log holds those before it. -/
lemma wp_writeFrames {E : Http2ErrorCode → ConnState → Prop} :
    ∀ {frames : List Frame} {s : ConnState},
      (∀ faults, Q () { s with trace := s.trace ++ frames.map .wrote, faults }) →
      (∀ faults part, part <+: frames →
        E .internalError { s with trace := s.trace ++ part.map .wrote, faults }) →
      wp (writeFrames frames) s Q E
  | [], s, hok, _ => by
      have h := hok s.faults
      simpa [writeFrames] using h
  | f :: rest, s, hok, hf => by
      rw [writeFrames, wp_bind]
      apply wp_writeAll
      · intro faults
        apply wp_writeFrames
        · intro faults'
          simpa using hok faults'
        · intro faults' part hp
          have h := hf faults' (f :: part) ((List.prefix_cons_inj f).mpr hp)
          simpa using h
      · intro faults
        have h := hf faults [] List.nil_prefix
        simpa using h

/-! ## Answering a request -/

/-- How a program has answered stream `sid`: the whole response, its head with the body queued, or
nothing yet. -/
inductive Answered (sid : ℕ) (s t : ConnState) : Prop
  | finished (block : Bytes) (hconn : t.conn = s.conn.release sid)
      (htrace : t.trace =
        s.trace ++ (headerFrames sid s.conn.peerMaxFrameSize block true).map .wrote)
  | queued (block : Bytes) (body : PendingBody) (hconn : t.conn = s.conn.enqueue sid body)
      (htrace : t.trace =
        s.trace ++ (headerFrames sid s.conn.peerMaxFrameSize block false).map .wrote)
  | parked (pending : PendingHeaderResponse) (hsid : pending.streamId = sid)
      (hconn : t.conn = { s.conn with
        pendingHeaderResponses := s.conn.pendingHeaderResponses ++ [pending] })
      (htrace : t.trace = s.trace)

/-- A response head of stream `sid` broke off, perhaps before its first frame. -/
def BrokenOff (sid : ℕ) (s t : ConnState) : Prop :=
  ∃ block es frames, frames <+: headerFrames sid s.conn.peerMaxFrameSize block es ∧
    t.trace = s.trace ++ frames.map .wrote

lemma BrokenOff.silent {sid : ℕ} {s t : ConnState} (h : t.trace = s.trace) :
    BrokenOff sid s t :=
  ⟨[], true, [], List.nil_prefix, by simpa using h⟩

/-- **A response is answered with its head, and its body is queued or the slot is free.** -/
lemma queueH2StreamResponse_effect (env : Env) (sid : ℕ) (resp : HttpResponse)
    (dynamicBody : Option PendingBody) (s : ConnState) :
    wp (queueH2StreamResponse env sid resp dynamicBody) s
      (fun _ t => Answered sid s t) (fun _ t => BrokenOff sid s t) := by
  simp only [queueH2StreamResponse, wp_bind]
  generalize (dynamicBody.isSome || bodySourceNonempty resp.bodySource) = hasBody
  apply wp_writeFrames
  · intro faults
    cases hasBody with
    | true =>
      simp only [placeBody, if_true, wp_bind]
      apply wp_ofExcept
      · intro body _
        apply wp_flush
        · exact fun faults' => .queued _ body rfl rfl
        · exact fun faults' => ⟨_, _, _, List.prefix_rfl, rfl⟩
      · exact fun e _ => ⟨_, _, _, List.prefix_rfl, rfl⟩
    | false =>
      apply wp_flush
      · exact fun faults' => .finished _ rfl rfl
      · exact fun faults' => ⟨_, _, _, List.prefix_rfl, rfl⟩
  · exact fun faults part hp => ⟨_, _, part, hp, rfl⟩

lemma park_effect (sid : ℕ) (source : PendingHeaderSource) (compress : Bool) (level : ℕ)
    (s : ConnState) :
    wp (park sid source compress level) s
      (fun _ t => Answered sid s t) (fun _ t => BrokenOff sid s t) := by
  exact .parked _ rfl rfl rfl

lemma dispatchFastcgi_effect (env : Env) (sid : ℕ) (req : HttpRequest) (compress : Bool)
    (s : ConnState) :
    wp (dispatchFastcgi env sid req compress) s
      (fun _ t => Answered sid s t) (fun _ t => BrokenOff sid s t) := by
  simp only [dispatchFastcgi]
  split_ifs
  · split
    · exact park_effect _ _ _ _ _
    · exact queueH2StreamResponse_effect _ _ _ _ _
    · exact queueH2StreamResponse_effect _ _ _ _ _
  · exact queueH2StreamResponse_effect _ _ _ _ _

/-- **A dispatched request is answered once.** -/
lemma dispatchH2Request_effect (env : Env) (st : Stream) (s : ConnState) :
    wp (dispatchH2Request env st) s
      (fun _ t => Answered st.id s t) (fun _ t => BrokenOff st.id s t) := by
  rw [dispatchH2Request, wp_bind]
  apply wp_ofExcept
  · intro req _
    simp only
    split_ifs
    · split
      · exact park_effect _ _ _ _ _
      · exact queueH2StreamResponse_effect _ _ _ _ _
      · exact dispatchFastcgi_effect _ _ _ _ _
    · exact dispatchFastcgi_effect _ _ _ _ _
  · exact fun e _ => .silent rfl

end Veysrs
