import Veysrs.Http2.HpackSync

/-!
# Header blocks in fragments

A header block comes in one HEADERS frame, or in a HEADERS frame and CONTINUATION frames.  The two
ways run through different code: each checks the length of the block, opens the stream, decodes and
dispatches on its own.

On a connection that waits for no fragment the two come to the same (`fragments_invisible`): to the
same call of `finishHeaders` in the same state, or to the same error before it.  For that the limit
of the decoder has to be that of the configuration, and nothing may be left over from an earlier
block; every run keeps both (`headersCoherent_of_run`).
-/

namespace Veysrs

open Core

/-! ## What every run keeps -/

/-- The decoder has the configuration's limit, and between two header blocks nothing is kept. -/
structure HeadersCoherent (c : Http2Connection) : Prop where
  limit : c.hpackDecoder.maxHeaderBlockSize = c.config.http2MaxHeaderBlockSize
  clear : c.pendingHeadersStreamId = none → c.pendingHeaderBlock = []

variable {block : Bytes} {sid : ℕ} {eh : Bool}

lemma limit_of_decoded {d d' : HpackDecoder} {headers : Headers}
    (h : (HpackDecoder.decodeHeaderBlock block).run d = .ok headers d') :
    d'.maxHeaderBlockSize = d.maxHeaderBlockSize := by
  have hl := (HpackDecoder.decodeHeaderBlock_limits block).stateOf_run d
  rw [h] at hl
  exact hl.2

section Steps

variable {c c' : Http2Connection} {f : Frame}

lemma HeadersCoherent.same (h : HeadersCoherent c) (hc : c'.config = c.config)
    (hs : SameReceiver c c') : HeadersCoherent c' := by
  refine ⟨by rw [hs.decoder, hc, h.limit], fun hn => ?_⟩
  rw [hs.pendingBlock, h.clear (hs.pendingSid.symm.trans hn)]

lemma HeadersCoherent.headers (h : HeadersCoherent c) (hc : c'.config = c.config)
    (ha : AfterHeaders c c' sid block eh) : HeadersCoherent c' := by
  unfold AfterHeaders at ha
  split_ifs at ha
  · obtain ⟨⟨headers, hde⟩, hs, hb⟩ := ha
    refine ⟨by rw [limit_of_decoded hde, hc, h.limit], fun hn => ?_⟩
    rw [hb, h.clear (hs.symm.trans hn)]
  · obtain ⟨hd, hs, -⟩ := ha
    refine ⟨by rw [hd, hc, h.limit], fun hn => ?_⟩
    rw [hs] at hn
    cases hn
  · exact h.same hc ha

lemma HeadersCoherent.continuation (h : HeadersCoherent c) (hc : c'.config = c.config)
    (hsid : c.pendingHeadersStreamId = some sid) (ha : AfterContinuation c c' block eh) :
    HeadersCoherent c' := by
  unfold AfterContinuation at ha
  split_ifs at ha
  · obtain ⟨⟨headers, hde⟩, -, hb⟩ := ha
    exact ⟨by rw [limit_of_decoded hde, hc, h.limit], fun _ => hb⟩
  · obtain ⟨hd, hs, -⟩ := ha
    refine ⟨by rw [hd, hc, h.limit], fun hn => ?_⟩
    rw [hs, hsid] at hn
    cases hn

lemma HeadersCoherent.frame (h : HeadersCoherent c) (hc : c'.config = c.config)
    (hp : f.Parsed) (hex : Expected c f) (ha : AfterFrame c c' f) :
    HeadersCoherent c' := by
  unfold AfterFrame at ha
  cases hf : f.payload with
  | headers block es eh =>
    rw [hf] at ha
    exact h.headers hc ha
  | continuation block eh =>
    rw [hf] at ha
    obtain ⟨sid, hs⟩ := (hex.payload hp).2 block eh hf
    exact h.continuation hc hs ha
  | _ =>
    rw [hf] at ha
    exact h.same hc ha

end Steps

lemma headersCoherent_of_run {config : ServerConfig} {secure : Bool} {calls : List (Env × Call)}
    {s : ConnState} (hr : (runCalls calls).run (ConnState.start config secure) = .ok () s) :
    s.conn.config = config ∧ HeadersCoherent s.conn := by
  induction calls using List.reverseRecOn generalizing s with
  | nil =>
    cases hr
    exact ⟨rfl, rfl, fun _ => rfl⟩
  | append_singleton calls last ih =>
    obtain ⟨env, c⟩ := last
    obtain ⟨t, hb, hl⟩ := runCalls_append.mp hr
    obtain ⟨hc, hst⟩ := ih hb
    have hd := callDone_of_ok (runCalls_single.mp hl)
    have hs := hd.config
    refine ⟨hs.trans hc, ?_⟩
    cases c with
    | frame f =>
      obtain ⟨-, hex, ha, -⟩ := hd
      exact hst.frame hs f.2 hex ha
    | pollHeaders => exact hst.same hs hd.receiver
    | schedule => exact hst.same hs hd.receiver

/-! ## The two ways -/

/-- HEADERS on a stream. -/
structure IsHeaders (f : Frame) (sid : ℕ) (block : Bytes) (endStream endHeaders : Bool) : Prop where
  streamId : f.header.streamId = sid
  frameType : f.header.frameType = .headers
  payload : f.payload = .headers block endStream endHeaders

/-- CONTINUATION on a stream. -/
structure IsContinuation (f : Frame) (sid : ℕ) (block : Bytes) (endHeaders : Bool) : Prop where
  streamId : f.header.streamId = sid
  frameType : f.header.frameType = .continuation
  payload : f.payload = .continuation block endHeaders

/-- One or more CONTINUATION frames, the last with END_HEADERS, and what they carry. -/
inductive Continues (sid : ℕ) : List Frame → Bytes → Prop
  | last {f : Frame} {block : Bytes} : IsContinuation f sid block true → Continues sid [f] block
  | more {f : Frame} {fs : List Frame} {block rest : Bytes} : IsContinuation f sid block false →
      Continues sid fs rest → Continues sid (f :: fs) (block ++ rest)

def processFrames (env : Env) : List Frame → H2M Unit
  | [] => pure ()
  | f :: fs => do
      processFrame env f
      processFrames env fs

/-- The stream may be opened. -/
structure Accepts (c : Http2Connection) (sid : ℕ) : Prop where
  client : Stream.isClientInitiated sid = true
  fresh : c.lastStreamId < sid
  room : c.canAcceptNewStream = true

/-- The connection with the new stream. -/
def ConnState.opened (s : ConnState) (sid : ℕ) (st : Stream) : ConnState :=
  { s with conn := { s.conn with
      lastStreamId := sid
      sendStreamWindows :=
        s.conn.sendStreamWindows.insert sid (Window.new s.conn.peerInitialStreamWindowSize)
      activeStreams := s.conn.activeStreams.insert sid st } }

/-- Waiting for the rest of a block. -/
def ConnState.waiting (s : ConnState) (sid : ℕ) (kept : Bytes) : ConnState :=
  { s with conn := { s.conn with
      pendingHeadersStreamId := some sid
      pendingHeaderBlock := kept } }

def ConnState.withDecoder (s : ConnState) (decoder : HpackDecoder) : ConnState :=
  { s with conn := { s.conn with hpackDecoder := decoder } }

/-- What a complete block comes to: its headers go to the stream, or it cannot be decoded and
nothing has been sent. -/
def Completed (env : Env) (sid : ℕ) (st : Stream) (s : ConnState) (block : Bytes)
    (result : EStateM.Result Http2ErrorCode ConnState Unit) : Prop :=
  match (HpackDecoder.decodeHeaderBlock block).run s.conn.hpackDecoder with
  | .ok headers decoder =>
    result = (finishHeaders env sid st headers st.receivedEndStream).run (s.withDecoder decoder)
  | .error e _ => ∃ t, result = .error e t ∧ t.trace = s.trace

lemma decodeHeaderBlock_long {d : HpackDecoder} (h : d.maxHeaderBlockSize < block.length) :
    (HpackDecoder.decodeHeaderBlock block).run d = .error .enhanceYourCalm d := by
  rw [HpackDecoder.decodeHeaderBlock, run_bind_of_ok (x := get) (a := d) (t := d) rfl, failIf,
    if_pos h]
  rfl

/-- A block that is too long is refused, wherever that is noticed. -/
lemma completed_of_long {env : Env} {st : Stream} {s t : ConnState} (hs : HeadersCoherent s.conn)
    (hl : s.conn.config.http2MaxHeaderBlockSize < block.length) (ht : t.trace = s.trace) :
    Completed env sid st s block (.error .enhanceYourCalm t) := by
  rw [Completed, decodeHeaderBlock_long (hs.limit ▸ hl)]
  exact ⟨t, rfl, ht⟩

/-- A new stream of a client is opened. -/
lemma run_openStream (hs : Stream.isClientInitiated sid = true) (es : Bool) (s : ConnState) :
    ∃ st, st.receivedEndStream = es ∧ (openStream sid es).run s =
      .ok () { s with conn := { s.conn with
        sendStreamWindows :=
          s.conn.sendStreamWindows.insert sid (Window.new s.conn.peerInitialStreamWindowSize)
        activeStreams := s.conn.activeStreams.insert sid st } } := by
  have hodd : ¬(sid = 0 ∨ sid % 2 = 0) := by
    simp only [Stream.isClientInitiated, Bool.and_eq_true, decide_eq_true_eq] at hs
    omega
  have hn : ∀ n, ∃ st, Stream.new sid n = .ok st ∧ st.state = .idle :=
    fun n => ⟨_, if_neg hodd, rfl⟩
  obtain ⟨st, hst, hi⟩ := hn s.conn.flowControl.initialStreamWindowSize
  refine ⟨{ st with
    sendWindow := Window.new s.conn.peerInitialStreamWindowSize
    state := .opened
    receivedEndStream := es }, rfl, ?_⟩
  have ho : ({ st with sendWindow := Window.new s.conn.peerInitialStreamWindowSize } :
      Stream).transitionTo .opened = .ok { st with
        sendWindow := Window.new s.conn.peerInitialStreamWindowSize
        state := .opened } := by
    simp only [Stream.transitionTo, hi]
  rw [openStream, run_bind_of_ok (x := getConn) (a := s.conn) (t := s) rfl, hst,
    run_bind_ofExcept_ok]
  dsimp only
  rw [ho]
  rfl

section Ways

variable {env : Env} {sid : ℕ} {s : ConnState} {es : Bool} {f : Frame} {block : Bytes} {st : Stream}

lemma run_failIf_neg {σ : Type} {c : Prop} [Decidable c] {e : Http2ErrorCode} (h : ¬c) (s : σ) :
    (failIf c e : EStateM Http2ErrorCode σ PUnit).run s = .ok ⟨⟩ s := by
  rw [failIf, if_neg h]
  rfl

lemma run_failIf_pos {σ : Type} {c : Prop} [Decidable c] {e : Http2ErrorCode} (h : c) (s : σ) :
    (failIf c e : EStateM Http2ErrorCode σ PUnit).run s = .error e s := by
  rw [failIf, if_pos h]
  rfl

lemma run_getConn_bind {α : Type} (x : Http2Connection → H2M α) (s : ConnState) :
    (getConn >>= x).run s = (x s.conn).run s := rfl

lemma run_decodeHeaderBlock (block : Bytes) (s : ConnState) :
    (decodeHeaderBlock block).run s =
      match (HpackDecoder.decodeHeaderBlock block).run s.conn.hpackDecoder with
      | .ok headers decoder => .ok headers (s.withDecoder decoder)
      | .error e decoder => .error e (s.withDecoder decoder) := by
  rw [decodeHeaderBlock, run_getConn_bind]
  cases (HpackDecoder.decodeHeaderBlock block).run s.conn.hpackDecoder with
  | ok headers decoder => rfl
  | error e decoder => rfl

/-- On a connection that waits for no fragment HEADERS goes on to open its stream. -/
lemma run_headers (hi : s.conn.pendingHeadersStreamId = none) (ha : Accepts s.conn sid)
    (hf : IsHeaders f sid block es eh) :
    (processFrame env f).run s =
      (acceptHeaders env sid block es eh).run
        { s with conn := { s.conn with lastStreamId := sid } } := by
  have hfr := ha.fresh
  have hn : ¬(sid = 0 ∨ Stream.isClientInitiated sid = false) := by
    rw [ha.client]
    rintro (hz | hfa)
    · omega
    · cases hfa
  have hex : (enforceContinuation f).run s = .ok () s := by
    rw [enforceContinuation, run_getConn_bind, hi]
    exact run_failIf_neg (by rw [hf.frameType]; decide) s
  rw [processFrame, run_bind_of_ok hex, hf.streamId, hf.payload, processPayload,
    processHeaders, run_bind_of_ok (run_failIf_neg hn s), run_getConn_bind,
    run_bind_of_ok (run_failIf_neg (Nat.not_le.mpr hfr) s),
    run_bind_of_ok (x := modifyConn fun c => { c with lastStreamId := sid }) (a := ()) (t :=
      { s with conn := { s.conn with lastStreamId := sid } }) rfl, if_pos ha.room]

/-- A block in one frame. -/
lemma completed_whole (hi : s.conn.pendingHeadersStreamId = none)
    (ha : Accepts s.conn sid) (hf : IsHeaders f sid block es true)
    (ho : (openStream sid es).run { s with conn := { s.conn with lastStreamId := sid } } =
      .ok () (s.opened sid st)) (hes : st.receivedEndStream = es) :
    Completed env sid st (s.opened sid st) block ((processFrame env f).run s) := by
  have hl : (s.opened sid st).conn.activeStreams.lookup sid = some st :=
    AList.lookup_insert _
  have hd := run_decodeHeaderBlock block (s.opened sid st)
  rw [run_headers hi ha hf, acceptHeaders, run_bind_of_ok ho, if_pos rfl, Completed]
  cases hr : (HpackDecoder.decodeHeaderBlock block).run (s.opened sid st).conn.hpackDecoder with
  | ok headers decoder =>
    rw [hr] at hd
    rw [run_bind_of_ok hd, run_getConn_bind]
    simp only [ConnState.withDecoder, hl, hes]
  | error e decoder =>
    rw [hr] at hd
    rw [run_bind_of_error hd]
    exact ⟨_, rfl, rfl⟩

/-- The first fragment is kept, or it is too long already. -/
lemma run_first (hi : s.conn.pendingHeadersStreamId = none) (ha : Accepts s.conn sid)
    (hf : IsHeaders f sid block es false)
    (ho : (openStream sid es).run { s with conn := { s.conn with lastStreamId := sid } } =
      .ok () (s.opened sid st)) :
    (processFrame env f).run s =
      if s.conn.config.http2MaxHeaderBlockSize < block.length then
        .error .enhanceYourCalm (s.opened sid st)
      else .ok () ((s.opened sid st).waiting sid block) := by
  rw [run_headers hi ha hf, acceptHeaders, run_bind_of_ok ho, if_neg Bool.false_ne_true]
  by_cases hl : s.conn.config.http2MaxHeaderBlockSize < block.length
  · rw [if_pos hl]
    exact run_bind_of_error (run_failIf_pos hl _) _
  · rw [if_neg hl]
    exact run_bind_of_ok (run_failIf_neg hl _) _

/-- A CONTINUATION of the block that is waited for goes on with it. -/
lemma run_continuation {kept : Bytes} (hf : IsContinuation f sid block eh) :
    (processFrame env f).run (s.waiting sid kept) =
      (processContinuation env sid block eh).run (s.waiting sid kept) := by
  have hex : (enforceContinuation f).run (s.waiting sid kept) =
      .ok () (s.waiting sid kept) := by
    refine run_failIf_neg ?_ _
    rw [hf.streamId, hf.frameType]
    simp
  rw [processFrame, run_bind_of_ok hex, hf.streamId, hf.payload, processPayload]

lemma run_processContinuation_long {kept : Bytes}
    (hl : s.conn.config.http2MaxHeaderBlockSize < kept.length + block.length) :
    (processContinuation env sid block eh).run (s.waiting sid kept) =
      .error .enhanceYourCalm (s.waiting sid kept) := by
  exact run_bind_of_error (run_failIf_pos (.inr hl) _) _

/-- What `processContinuation` does with the fragment that ends the block. -/
def finishBlock (env : Env) (sid : ℕ) (block : Bytes) : H2M Unit := do
  let headers ← decodeHeaderBlock block
  modifyConn fun c => { c with pendingHeaderBlock := [] }
  let c ← getConn
  match c.activeStreams.lookup sid with
  | some st => finishHeaders env sid st headers st.receivedEndStream
  | none => pure ()

section Fits

variable {kept : Bytes} (hsize : s.conn.config.http2MaxHeaderBlockSize < 2 ^ 64)
  (hshort : kept.length + block.length ≤ s.conn.config.http2MaxHeaderBlockSize)

include hsize hshort

lemma waiting_fits :
    ¬((s.waiting sid kept).conn.pendingHeaderBlock.length + block.length ≥ 2 ^ 64 ∨
      (s.waiting sid kept).conn.pendingHeaderBlock.length + block.length >
        (s.waiting sid kept).conn.config.http2MaxHeaderBlockSize) := by
  simp only [ConnState.waiting]
  omega

lemma run_processContinuation_more :
    (processContinuation env sid block false).run (s.waiting sid kept) =
      .ok () (s.waiting sid (kept ++ block)) := by
  rw [processContinuation, run_getConn_bind]
  exact run_bind_of_ok (run_failIf_neg (waiting_fits hsize hshort) _) _

/-- The last fragment completes the block, and nothing is left of the waiting. -/
lemma completed_last (hi : s.conn.pendingHeadersStreamId = none)
    (hcl : s.conn.pendingHeaderBlock = [])
    (hl : s.conn.activeStreams.lookup sid = some st) :
    Completed env sid st s (kept ++ block)
      ((processContinuation env sid block true).run (s.waiting sid kept)) := by
  let full : ConnState := { s with conn := { s.conn with
    pendingHeaderBlock := kept ++ block
    pendingHeadersStreamId := none } }
  have hf : (processContinuation env sid block true).run (s.waiting sid kept) =
      (finishBlock env sid (kept ++ block)).run full := by
    rw [processContinuation, run_getConn_bind]
    exact run_bind_of_ok (run_failIf_neg (waiting_fits hsize hshort) _) _
  have hd := run_decodeHeaderBlock (kept ++ block) full
  rw [hf, Completed, finishBlock]
  cases hr : (HpackDecoder.decodeHeaderBlock (kept ++ block)).run s.conn.hpackDecoder with
  | ok headers decoder =>
    rw [hr] at hd
    have hb : ({ s with conn := { s.conn with
        pendingHeaderBlock := []
        pendingHeadersStreamId := none
        hpackDecoder := decoder } } : ConnState) = s.withDecoder decoder := by
      rw [← hcl, ← hi]
      rfl
    have hc : (modifyConn fun c => { c with pendingHeaderBlock := [] }).run
        (full.withDecoder decoder) = .ok () (s.withDecoder decoder) :=
      congrArg (EStateM.Result.ok ()) hb
    rw [run_bind_of_ok hd, run_bind_of_ok hc, run_getConn_bind]
    simp only [ConnState.withDecoder, hl]
  | error e decoder =>
    rw [hr] at hd
    rw [run_bind_of_error hd]
    exact ⟨_, rfl, rfl⟩

end Fits

/-- However many fragments are still to come, they complete the block that has been begun. -/
lemma completed_continues (hs : HeadersCoherent s.conn)
    (hsize : s.conn.config.http2MaxHeaderBlockSize < 2 ^ 64)
    (hi : s.conn.pendingHeadersStreamId = none)
    (hlo : s.conn.activeStreams.lookup sid = some st) {fs : List Frame} {later : Bytes}
    (h : Continues sid fs later) : ∀ kept,
    Completed env sid st s (kept ++ later) ((processFrames env fs).run (s.waiting sid kept)) := by
  have ht : ∀ {kept block rest : Bytes},
      s.conn.config.http2MaxHeaderBlockSize < kept.length + block.length →
      s.conn.config.http2MaxHeaderBlockSize < (kept ++ (block ++ rest)).length := by
    intro kept block rest hl
    simp only [List.length_append]
    omega
  induction h with
  | @last f block hf =>
    intro kept
    have ho : (processFrames env [f]).run (s.waiting sid kept) =
        (processFrame env f).run (s.waiting sid kept) := by
      rw [processFrames, processFrames, bind_pure_unit]
    rw [ho, run_continuation hf]
    by_cases hl : s.conn.config.http2MaxHeaderBlockSize < kept.length + block.length
    · rw [run_processContinuation_long hl]
      refine completed_of_long hs ?_ rfl
      rwa [List.length_append]
    · exact completed_last hsize (Nat.not_lt.mp hl) hi (hs.clear hi) hlo
  | @more f fs block rest hf _ ih =>
    intro kept
    rw [processFrames]
    by_cases hl : s.conn.config.http2MaxHeaderBlockSize < kept.length + block.length
    · have hr : (processFrame env f).run (s.waiting sid kept) =
          .error .enhanceYourCalm (s.waiting sid kept) := by
        rw [run_continuation hf, run_processContinuation_long hl]
      rw [run_bind_of_error hr]
      exact completed_of_long hs (ht hl) rfl
    · have hr : (processFrame env f).run (s.waiting sid kept) =
          .ok () (s.waiting sid (kept ++ block)) := by
        rw [run_continuation hf, run_processContinuation_more hsize (Nat.not_lt.mp hl)]
      rw [run_bind_of_ok hr, ← List.append_assoc]
      exact ih (kept ++ block)

end Ways

/-- Both return, in the same state, or both fail with the same code. -/
def SameOutcome : (a b : EStateM.Result Http2ErrorCode ConnState Unit) → Prop
  | .ok _ t, .ok _ t' => t = t'
  | .error e _, .error e' _ => e = e'
  | _, _ => False

/-- Both hand the same headers to the same stream in the same state, from where the request is
dispatched; or both fail with the same code before anything is sent. -/
def SameHandOver (env : Env) (sid : ℕ) (es : Bool) (s : ConnState)
    (a b : EStateM.Result Http2ErrorCode ConnState Unit) : Prop :=
  (∃ st headers t, a = (finishHeaders env sid st headers es).run t ∧
    b = (finishHeaders env sid st headers es).run t) ∨
  ∃ e t t', a = .error e t ∧ b = .error e t' ∧ t.trace = s.trace ∧ t'.trace = s.trace

lemma SameHandOver.outcome {env : Env} {es : Bool} {s : ConnState}
    {a b : EStateM.Result Http2ErrorCode ConnState Unit} (h : SameHandOver env sid es s a b) :
    SameOutcome a b := by
  rcases h with ⟨st, headers, t, rfl, hb⟩ | ⟨e, t, t', rfl, rfl, -, -⟩
  · rw [hb]
    cases (finishHeaders env sid st headers es).run t with
    | ok _ _ => rfl
    | error _ _ => rfl
  · rfl

lemma sameHandOver_of_completed {env : Env} {st : Stream} {s t : ConnState}
    {a b : EStateM.Result Http2ErrorCode ConnState Unit} (ht : t.trace = s.trace)
    (ha : Completed env sid st t block a) (hb : Completed env sid st t block b) :
    SameHandOver env sid st.receivedEndStream s a b := by
  unfold Completed at ha hb
  cases hr : (HpackDecoder.decodeHeaderBlock block).run t.conn.hpackDecoder with
  | ok headers decoder =>
    rw [hr] at ha hb
    exact .inl ⟨st, headers, _, ha, hb⟩
  | error e decoder =>
    rw [hr] at ha hb
    obtain ⟨u, ha, hu⟩ := ha
    obtain ⟨u', hb, hu'⟩ := hb
    exact .inr ⟨e, u, u', ha, hb, hu.trans ht, hu'.trans ht⟩

/-- **However a header block is cut into fragments, it comes to what it comes to in one frame.**
The limit is a `usize`. -/
theorem fragments_invisible {config : ServerConfig} {secure : Bool} {calls : List (Env × Call)}
    {s : ConnState} (hrun : (runCalls calls).run (ConnState.start config secure) = .ok () s)
    (hsize : config.http2MaxHeaderBlockSize < 2 ^ 64)
    (hidle : s.conn.pendingHeadersStreamId = none) {sid : ℕ} (haccepts : Accepts s.conn sid)
    {whole first : Frame} {rest : List Frame} {fragment later : Bytes} {es : Bool}
    (hwhole : IsHeaders whole sid (fragment ++ later) es true)
    (hfirst : IsHeaders first sid fragment es false) (hrest : Continues sid rest later)
    (env : Env) :
    SameOutcome ((processFrames env (first :: rest)).run s) ((processFrame env whole).run s) ∧
      SameHandOver env sid es s ((processFrames env (first :: rest)).run s)
        ((processFrame env whole).run s) := by
  obtain ⟨hconfig, hstep⟩ := headersCoherent_of_run hrun
  obtain ⟨st, hes, hopen⟩ := run_openStream haccepts.client es
    { s with conn := { s.conn with lastStreamId := sid } }
  have hopened : (s.opened sid st).conn.config = config := hconfig
  have hstep' : HeadersCoherent (s.opened sid st).conn := ⟨hstep.limit, hstep.clear⟩
  have hquiet : (s.opened sid st).trace = s.trace := rfl
  have hone : Completed env sid st (s.opened sid st) (fragment ++ later)
      ((processFrame env whole).run s) := completed_whole hidle haccepts hwhole hopen hes
  have hparts : Completed env sid st (s.opened sid st) (fragment ++ later)
      ((processFrames env (first :: rest)).run s) := by
    have hbegin := @run_first env _ _ _ _ _ _ hidle haccepts hfirst hopen
    rw [processFrames]
    by_cases hlong : s.conn.config.http2MaxHeaderBlockSize < fragment.length
    · rw [if_pos hlong] at hbegin
      rw [run_bind_of_error hbegin]
      refine completed_of_long hstep' ?_ rfl
      show s.conn.config.http2MaxHeaderBlockSize < _
      rw [List.length_append]
      omega
    · rw [if_neg hlong] at hbegin
      rw [run_bind_of_ok hbegin]
      exact completed_continues hstep' (by rwa [hopened]) hidle (AList.lookup_insert _) hrest
        fragment
  have hsame := sameHandOver_of_completed hquiet hparts hone
  rw [hes] at hsame
  exact ⟨hsame.outcome, hsame⟩

/-- `GET /` on stream 1 in three fragments, one of them empty. -/
def sampleFragments : List Frame :=
  [{ header := { length := 1, frameType := .headers, flags := 1, streamId := 1 }
     payload := .headers [0x82] true false },
    { header := { length := 0, frameType := .continuation, flags := 0, streamId := 1 }
      payload := .continuation [] false },
    { header := { length := 2, frameType := .continuation, flags := 4, streamId := 1 }
      payload := .continuation [0x86, 0x84] true }]

theorem fragments_invisible_sample :
    isOk ((processFrames sampleOutside sampleFragments).run (ConnState.start {} false)) = true ∧
      SameOutcome ((processFrames sampleOutside sampleFragments).run (ConnState.start {} false))
        ((processFrame sampleOutside sampleGet.1).run (ConnState.start {} false)) := by
  refine ⟨by decide +kernel, ?_⟩
  have hrest : Continues 1 sampleFragments.tail ([] ++ [0x86, 0x84]) :=
    .more ⟨rfl, rfl, rfl⟩ (.last ⟨rfl, rfl, rfl⟩)
  exact (@fragments_invisible {} false [] _ rfl (by decide) rfl 1
    ⟨by decide, by decide, by decide⟩ sampleGet.1 _ sampleFragments.tail [0x82] _ true
    ⟨rfl, rfl, rfl⟩ ⟨rfl, rfl, rfl⟩ hrest sampleOutside).1

end Veysrs
