import Veysrs.Http2.Refinement

/-!
# The receiving side of the connection

The HPACK decoder, the header block being collected and the credit given to the peer belong to the
receiving side.  Answering requests, sending bodies and keeping the send windows leave it alone
(`Beside`): they decode nothing and write no WINDOW_UPDATE.  Only HEADERS, CONTINUATION and DATA
touch it, and what they do is stated exactly.
-/

namespace Veysrs

open Core List

/-- An event that neither arrives nor gives credit. -/
structure Event.Plain (e : Event) : Prop where
  received : ∀ f, e ≠ .received f
  credit : ∀ h n, e ≠ .wrote ⟨h, .windowUpdate n⟩

/-- The log has grown by plain events. -/
def Silent (s t : ConnState) : Prop :=
  ∃ ev, t.trace = s.trace ++ ev ∧ ∀ e ∈ ev, e.Plain

/-- Two connections decode alike. -/
structure SameReceiver (c c' : Http2Connection) : Prop where
  decoder : c'.hpackDecoder = c.hpackDecoder
  pendingSid : c'.pendingHeadersStreamId = c.pendingHeadersStreamId
  pendingBlock : c'.pendingHeaderBlock = c.pendingHeaderBlock

/-- The receiving side is as it was, and so is the configuration, which no program changes. -/
structure Beside (s t : ConnState) : Prop where
  silent : Silent s t
  receiver : SameReceiver s.conn t.conn
  config : t.conn.config = s.conn.config

instance : IsPreorder ConnState Silent where
  refl s := ⟨[], by simp, by simp⟩
  trans _ _ _ := by
    rintro ⟨ev, ht, hev⟩ ⟨ev', hu, hev'⟩
    exact ⟨ev ++ ev', by rw [hu, ht, append_assoc], forall_mem_append.mpr ⟨hev, hev'⟩⟩

instance : IsPreorder ConnState Beside where
  refl s := ⟨refl_of Silent s, ⟨rfl, rfl, rfl⟩, rfl⟩
  trans _ _ _ hst htu :=
    ⟨trans_of Silent hst.silent htu.silent,
      ⟨htu.receiver.decoder.trans hst.receiver.decoder,
        htu.receiver.pendingSid.trans hst.receiver.pendingSid,
        htu.receiver.pendingBlock.trans hst.receiver.pendingBlock⟩,
      htu.config.trans hst.config⟩

lemma Silent.of_trace {s t : ConnState} (h : t.trace = s.trace) : Silent s t :=
  ⟨[], by simpa using h, by simp⟩

/-- Writing a frame that gives no credit. -/
lemma Silent.of_wrote {s t : ConnState} {f : Frame} (hf : ∀ n, f.payload ≠ .windowUpdate n)
    (h : t.trace = s.trace ++ [.wrote f]) : Silent s t := by
  refine ⟨[.wrote f], h, forall_mem_singleton.mpr ⟨by simp, ?_⟩⟩
  rintro h n ⟨⟩
  exact hf n rfl

/-! ## Programs that leave it alone -/

lemma beside_getConn : Moves Beside getConn := fun s => refl_of Beside s

lemma beside_modifyConn {f : Http2Connection → Http2Connection}
    (h : ∀ c, SameReceiver c (f c) ∧ (f c).config = c.config) : Moves Beside (modifyConn f) :=
  fun s => ⟨.of_trace rfl, (h s.conn).1, (h s.conn).2⟩

lemma beside_writeAll {f : Frame} (hf : ∀ n, f.payload ≠ .windowUpdate n) :
    Moves Beside (writeAll f) := by
  intro s
  apply wp_writeAll
  · exact fun faults => ⟨.of_wrote hf rfl, ⟨rfl, rfl, rfl⟩, rfl⟩
  · exact fun faults => ⟨.of_trace rfl, ⟨rfl, rfl, rfl⟩, rfl⟩

lemma beside_writeFrames {frames : List Frame}
    (h : ∀ f ∈ frames, ∀ n, f.payload ≠ .windowUpdate n) : Moves Beside (writeFrames frames) := by
  induction frames with
  | nil => exact moves_pure _
  | cons f rest ih =>
    refine (beside_writeAll (h f mem_cons_self)).bind fun _ => ?_
    exact ih fun g hg => h g (mem_cons_of_mem f hg)

lemma beside_flush : Moves Beside flush := by
  intro s
  apply wp_flush
  · exact fun faults => ⟨.of_trace rfl, ⟨rfl, rfl, rfl⟩, rfl⟩
  · exact fun faults => ⟨.of_trace rfl, ⟨rfl, rfl, rfl⟩, rfl⟩

lemma beside_writeIgnoringErrors {f : Frame} (hf : ∀ n, f.payload ≠ .windowUpdate n) :
    Moves Beside (writeIgnoringErrors f) := by
  intro s
  apply wp_writeIgnoringErrors
  · exact fun faults => ⟨.of_wrote hf rfl, ⟨rfl, rfl, rfl⟩, rfl⟩
  · exact fun faults => ⟨.of_trace rfl, ⟨rfl, rfl, rfl⟩, rfl⟩

lemma markClosedStream_receiver (c : Http2Connection) (sid : ℕ) :
    SameReceiver c (c.markClosedStream sid) ∧ (c.markClosedStream sid).config = c.config := by
  unfold Http2Connection.markClosedStream
  split_ifs <;> exact ⟨⟨rfl, rfl, rfl⟩, rfl⟩

lemma beside_release (sid : ℕ) : Moves Beside (modifyConn fun c => c.release sid) := by
  apply beside_modifyConn
  intro c
  obtain ⟨⟨h1, h2, h3⟩, h4⟩ := markClosedStream_receiver
    { c with sendStreamWindows := c.sendStreamWindows.erase sid } sid
  exact ⟨⟨h1, h2, h3⟩, h4⟩

lemma beside_enqueue (sid : ℕ) (body : PendingBody) :
    Moves Beside (modifyConn fun c => c.enqueue sid body) :=
  beside_modifyConn fun _ => ⟨⟨rfl, rfl, rfl⟩, rfl⟩

lemma beside_queueH2StreamResponse (env : Env) (sid : ℕ) (resp : HttpResponse)
    (dynamicBody : Option PendingBody) :
    Moves Beside (queueH2StreamResponse env sid resp dynamicBody) := by
  refine beside_getConn.bind fun c => Moves.bind ?_ fun _ => Moves.bind ?_ fun _ => beside_flush
  · apply beside_writeFrames
    intro f hf n
    rcases (mem_headerFrames hf).payload with ⟨block, es, eh, h⟩ | ⟨block, eh, h⟩ <;> simp [h]
  · unfold placeBody
    exact ((moves_ofExcept _).bind fun _ => beside_enqueue _ _).ite (beside_release _)

lemma beside_park (sid : ℕ) (source : PendingHeaderSource) (compress : Bool) (level : ℕ) :
    Moves Beside (park sid source compress level) :=
  beside_modifyConn fun _ => ⟨⟨rfl, rfl, rfl⟩, rfl⟩

lemma beside_dispatchFastcgi (env : Env) (sid : ℕ) (req : HttpRequest) (compress : Bool) :
    Moves Beside (dispatchFastcgi env sid req compress) := by
  refine Moves.ite ?_ (beside_queueH2StreamResponse _ _ _ _)
  split
  · exact beside_park _ _ _ _
  · exact beside_queueH2StreamResponse _ _ _ _
  · exact beside_queueH2StreamResponse _ _ _ _

/-- **Answering a request leaves the receiving side alone.** -/
lemma beside_dispatchH2Request (env : Env) (st : Stream) :
    Moves Beside (dispatchH2Request env st) := by
  refine (moves_ofExcept _).bind fun req => ?_
  refine Moves.ite ?_ (beside_dispatchFastcgi _ _ _ _)
  split
  · exact beside_park _ _ _ _
  · exact beside_queueH2StreamResponse _ _ _ _
  · exact beside_dispatchFastcgi _ _ _ _

lemma beside_finishHeaders (env : Env) (sid : ℕ) (st : Stream) (headers : Headers) (es : Bool) :
    Moves Beside (finishHeaders env sid st headers es) := by
  refine Moves.ite (Moves.bind ?_ fun _ => ?_) (beside_modifyConn fun _ => ⟨⟨rfl, rfl, rfl⟩, rfl⟩)
  · exact beside_modifyConn fun _ => ⟨⟨rfl, rfl, rfl⟩, rfl⟩
  · refine (beside_dispatchH2Request _ _).bind fun _ => ?_
    exact beside_modifyConn fun _ => ⟨⟨rfl, rfl, rfl⟩, rfl⟩

/-! ### Settings, updates and resets -/

lemma beside_applySetting (setting : SettingId × ℕ) : Moves Beside (applySetting setting) := by
  simp only [applySetting]
  split
  · refine (moves_failIf _ _).bind fun _ => ?_
    exact beside_modifyConn fun _ => ⟨⟨rfl, rfl, rfl⟩, rfl⟩
  · refine (moves_failIf _ _).bind fun _ => beside_getConn.bind fun c => ?_
    refine (moves_ofExcept _).bind fun _ => (moves_ofExcept _).bind fun _ => ?_
    exact beside_modifyConn fun _ => ⟨⟨rfl, rfl, rfl⟩, rfl⟩
  · exact moves_pure _

lemma beside_applySettings (settings : List (SettingId × ℕ)) :
    Moves Beside (applySettings settings) := by
  induction settings with
  | nil => exact moves_pure _
  | cons setting rest ih => exact (beside_applySetting setting).bind fun _ => ih

lemma beside_processSettings (settings : List (SettingId × ℕ)) (ack : Bool) :
    Moves Beside (processSettings settings ack) := by
  refine (moves_pure _).ite ((beside_applySettings settings).bind fun _ => ?_)
  exact beside_writeIgnoringErrors (by simp [settingsAckFrame])

lemma beside_processPing (opaqueData) (ack : Bool) :
    Moves Beside (processPing opaqueData ack) :=
  (moves_pure _).ite (beside_writeIgnoringErrors (by simp [pingAckFrame]))

lemma beside_processWindowUpdate (sid increment : ℕ) :
    Moves Beside (processWindowUpdate sid increment) := by
  refine Moves.ite ?_ (beside_getConn.bind fun c => ?_)
  · refine beside_getConn.bind fun c => (moves_ofExcept _).bind fun _ => ?_
    exact beside_modifyConn fun _ => ⟨⟨rfl, rfl, rfl⟩, rfl⟩
  · split
    · refine (moves_ofExcept _).bind fun _ => (moves_ofExcept _).bind fun _ => ?_
      exact beside_modifyConn fun _ => ⟨⟨rfl, rfl, rfl⟩, rfl⟩
    · refine (moves_ofExcept _).bind fun _ => ?_
      exact beside_modifyConn fun _ => ⟨⟨rfl, rfl, rfl⟩, rfl⟩
    · exact moves_failIf _ _

lemma beside_processRstStream (sid : ℕ) : Moves Beside (processRstStream sid) := by
  apply beside_modifyConn
  intro c
  obtain ⟨⟨h1, h2, h3⟩, h4⟩ := markClosedStream_receiver
    { c with
      activeStreams := c.activeStreams.erase sid
      sendStreamWindows := c.sendStreamWindows.erase sid
      pendingResponses := c.pendingResponses.filter (·.streamId ≠ sid)
      pendingHeaderResponses := c.pendingHeaderResponses.filter (·.streamId ≠ sid) } sid
  exact ⟨⟨h1, h2, h3⟩, h4⟩

/-! ### The two queues -/

lemma beside_pollOne (env : Env) (pending : PendingHeaderResponse) :
    Moves Beside (pollOne env pending) := by
  unfold pollOne
  split
  · refine Moves.bind ?_ fun _ => moves_pure _
    exact beside_modifyConn fun _ => ⟨⟨rfl, rfl, rfl⟩, rfl⟩
  · exact (beside_queueH2StreamResponse _ _ _ _).bind fun _ => moves_pure _
  · refine (beside_writeAll (by simp [rstFrame])).bind fun _ => ?_
    exact (beside_release _).bind fun _ => moves_pure _

lemma beside_pollRounds (env : Env) (rounds : ℕ) (progressed : Bool) :
    Moves Beside (pollRounds env rounds progressed) := by
  induction rounds generalizing progressed with
  | zero => exact moves_pure _
  | succ rounds ih =>
    refine beside_getConn.bind fun c => ?_
    split
    · exact moves_pure _
    · refine Moves.bind ?_ fun _ => (beside_pollOne _ _).bind fun p => ih _
      exact beside_modifyConn fun _ => ⟨⟨rfl, rfl, rfl⟩, rfl⟩

lemma beside_pollPendingHeaders (env : Env) : Moves Beside (pollPendingHeaders env) :=
  beside_getConn.bind fun _ => (beside_pollRounds env _ _).bind fun _ =>
    (beside_flush.bind fun _ => moves_pure _).ite (moves_pure _)

lemma beside_requeue (pending : PendingResponse) : Moves Beside (requeue pending) :=
  (beside_enqueue _ _).bind fun _ => moves_pure _

lemma beside_writeLast (sid : ℕ) {f : Frame} (hf : ∀ n, f.payload ≠ .windowUpdate n) :
    Moves Beside (writeLast sid f) :=
  (beside_writeAll hf).bind fun _ => (beside_release sid).bind fun _ => moves_pure _

lemma beside_sendChunk (sid : ℕ) (body : PendingBody) (data : Bytes) (done : Bool) :
    Moves Beside (sendChunk sid body data done) := by
  refine beside_getConn.bind fun c => (moves_ofExcept _).bind fun _ => ?_
  split
  · exact moves_throw _
  · refine (moves_ofExcept _).bind fun _ => Moves.bind ?_ fun _ => ?_
    · exact beside_modifyConn fun _ => ⟨⟨rfl, rfl, rfl⟩, rfl⟩
    · refine (beside_writeAll (by simp [dataFrame])).bind fun _ => ?_
      refine Moves.bind ?_ fun _ => moves_pure _
      cases done with
      | true => exact beside_release sid
      | false => exact beside_enqueue sid body

lemma beside_handleChunk (sid : ℕ) (chunk : PendingBody.Chunk) :
    Moves Beside (handleChunk sid chunk) := by
  unfold handleChunk
  split
  · exact beside_writeLast sid (by simp [rstFrame])
  · exact beside_requeue _
  · exact beside_writeLast sid (by simp [dataFrame])
  · exact beside_requeue _
  · exact beside_writeLast sid (by simp [dataFrame])
  · exact beside_sendChunk _ _ _ _

lemma beside_logReads (sid : ℕ) (chunk : PendingBody.Chunk) :
    Moves Beside (logReads sid chunk) := by
  intro s
  refine ⟨⟨readEvents sid chunk, rfl, ?_⟩, ⟨rfl, rfl, rfl⟩, rfl⟩
  intro e he
  simp only [readEvents, mem_map] at he
  obtain ⟨outcome, _, rfl⟩ := he
  exact ⟨by simp, by simp⟩

lemma beside_scheduleOne (env : Env) (quota : ℕ) (pending : PendingResponse) :
    Moves Beside (scheduleOne env quota pending) := by
  refine beside_getConn.bind fun c => ?_
  split
  · exact moves_pure _
  · exact (beside_requeue _).ite ((beside_logReads _ _).bind fun _ => beside_handleChunk _ _)

lemma beside_scheduleRounds (env : Env) (quota rounds : ℕ) (sent : Bool) :
    Moves Beside (scheduleRounds env quota rounds sent) := by
  induction rounds generalizing sent with
  | zero => exact moves_pure _
  | succ rounds ih =>
    refine beside_getConn.bind fun c => ?_
    split
    · exact moves_pure _
    · refine Moves.bind ?_ fun _ => (beside_scheduleOne _ _ _).bind fun p => ih _
      exact beside_modifyConn fun _ => ⟨⟨rfl, rfl, rfl⟩, rfl⟩

lemma beside_schedulePendingResponses (env : Env) :
    Moves Beside (schedulePendingResponses env) :=
  beside_getConn.bind fun _ => (moves_pure _).ite
    ((beside_scheduleRounds env _ _ _).bind fun _ =>
      (beside_flush.bind fun _ => moves_pure _).ite (moves_pure _))

/-! ## Frames that touch it -/

/-- What HEADERS does to the decoder: on a new stream the block is decoded, or kept until it is
complete; on a stream that is refused nothing is done with it. -/
def AfterHeaders (c c' : Http2Connection) (sid : ℕ) (block : Bytes) (eh : Bool) : Prop :=
  if c.canAcceptNewStream then
    if eh then
      (∃ headers, (HpackDecoder.decodeHeaderBlock block).run c.hpackDecoder =
        .ok headers c'.hpackDecoder) ∧
        c'.pendingHeadersStreamId = c.pendingHeadersStreamId ∧
        c'.pendingHeaderBlock = c.pendingHeaderBlock
    else
      c'.hpackDecoder = c.hpackDecoder ∧ c'.pendingHeadersStreamId = some sid ∧
        c'.pendingHeaderBlock = block
  else SameReceiver c c'

/-- What CONTINUATION does to it. -/
def AfterContinuation (c c' : Http2Connection) (block : Bytes) (eh : Bool) : Prop :=
  if eh then
    (∃ headers, (HpackDecoder.decodeHeaderBlock (c.pendingHeaderBlock ++ block)).run
      c.hpackDecoder = .ok headers c'.hpackDecoder) ∧
      c'.pendingHeadersStreamId = none ∧ c'.pendingHeaderBlock = []
  else
    c'.hpackDecoder = c.hpackDecoder ∧
      c'.pendingHeadersStreamId = c.pendingHeadersStreamId ∧
      c'.pendingHeaderBlock = c.pendingHeaderBlock ++ block

lemma processHeaders_receiver (env : Env) (sid : ℕ) (block : Bytes) (es eh : Bool)
    (s : ConnState) :
    wp (processHeaders env sid block es eh) s
      (fun _ t => Silent s t ∧ t.conn.config = s.conn.config ∧
        AfterHeaders s.conn t.conn sid block eh) (fun _ _ => True) := by
  simp only [processHeaders, wp_bind, wp_failIf, wp_modifyConn]
  refine ⟨fun _ => trivial, fun _ => ⟨fun _ => trivial, fun _ => ?_⟩⟩
  unfold AfterHeaders
  by_cases hcap : s.conn.canAcceptNewStream = true
  · rw [if_pos hcap, acceptHeaders, wp_bind]
    refine wp_mono (openStream_effect sid es _) (fun _ t h => ?_) (fun _ _ _ => trivial)
    obtain ⟨st, _, rfl⟩ := h
    cases eh with
    | true =>
      simp only [hcap, if_true, wp_bind]
      refine wp_mono (decodeHeaderBlock_effect block _) (fun headers t h => ?_)
        (fun _ _ _ => trivial)
      obtain ⟨d, hde, rfl⟩ := h
      simp only [wp_getConn, AList.lookup_insert]
      refine wp_mono (beside_finishHeaders env sid st headers es _) (fun _ t h => ?_)
        (fun _ _ _ => trivial)
      obtain ⟨hs, ⟨hd, hsid, hb⟩, hc⟩ := h
      exact ⟨hs, hc, ⟨headers, by rw [hd]; exact hde⟩, hsid, hb⟩
    | false =>
      simp only [hcap, Bool.false_eq_true, if_false, wp_bind, wp_failIf]
      exact ⟨fun _ => trivial, fun _ => ⟨.of_trace rfl, rfl, by simp⟩⟩
  · rw [if_neg hcap, wp_bind]
    simp only [hcap]
    refine wp_mono (beside_writeAll (by simp [rstFrame]) _) (fun _ t h => ?_) (fun _ _ _ => trivial)
    obtain ⟨hs, ⟨hd, hsid, hb⟩, hc⟩ := h
    obtain ⟨⟨hd', hsid', hb'⟩, hc'⟩ := markClosedStream_receiver t.conn sid
    exact ⟨hs, hc'.trans hc, hd'.trans hd, hsid'.trans hsid, hb'.trans hb⟩

lemma processContinuation_receiver (env : Env) (sid : ℕ) (block : Bytes) (eh : Bool)
    (s : ConnState) :
    wp (processContinuation env sid block eh) s
      (fun _ t => Silent s t ∧ t.conn.config = s.conn.config ∧
        AfterContinuation s.conn t.conn block eh) (fun _ _ => True) := by
  simp only [processContinuation, wp_bind, wp_failIf, wp_getConn, wp_ite, wp_modifyConn]
  refine ⟨fun _ => trivial, fun _ => ⟨fun heh => ?_, fun heh => ?_⟩⟩
  · refine wp_mono (decodeHeaderBlock_effect _ _) (fun headers t h => ?_) (fun _ _ _ => trivial)
    obtain ⟨d, hde, rfl⟩ := h
    have ha : ∀ t : ConnState, Beside { s with conn := { s.conn with
        pendingHeaderBlock := []
        pendingHeadersStreamId := none
        hpackDecoder := d } } t → Silent s t ∧ t.conn.config = s.conn.config ∧
          AfterContinuation s.conn t.conn block eh := by
      rintro t ⟨hs, ⟨hd, hsid, hb⟩, hc⟩
      refine ⟨hs, hc, ?_⟩
      rw [AfterContinuation, if_pos heh]
      exact ⟨⟨headers, by rw [hd]; exact hde⟩, hsid, hb⟩
    cases s.conn.activeStreams.lookup sid with
    | some st =>
      exact wp_mono (beside_finishHeaders env sid st headers _ _) (fun _ t h => ha t h)
        (fun _ _ _ => trivial)
    | none => exact ha _ (refl_of Beside _)
  · rw [AfterContinuation, if_neg heh]
    exact ⟨.of_trace rfl, trivial, rfl, rfl, rfl⟩

/-- DATA leaves the decoder alone and is credited by its payload. -/
lemma processData_receiver (env : Env) (sid : ℕ) (data : Bytes) (es : Bool) (s : ConnState) :
    wp (processData env sid data es) s
      (fun _ t => t.conn.config = s.conn.config ∧ SameReceiver s.conn t.conn ∧
        ∃ ev, t.trace = s.trace ++ (creditFrames sid (data.length % 2 ^ 32)).map .wrote ++ ev ∧
          ∀ e ∈ ev, e.Plain)
      (fun _ _ => True) := by
  simp only [processData, wp_bind, wp_getConn]
  cases s.conn.activeStreams.lookup sid with
  | none => trivial
  | some st =>
    simp only [wp_bind, wp_modifyConn]
    refine wp_mono (creditData_effect sid st _ _) (fun st' t h => ?_) (fun _ _ _ => trivial)
    obtain ⟨⟨window, rfl⟩, ⟨flow, hco⟩, ht⟩ := h
    have ha : ∀ u : ConnState, Beside t u → u.conn.config = s.conn.config ∧
        SameReceiver s.conn u.conn ∧
        ∃ ev, u.trace = s.trace ++ (creditFrames sid (data.length % 2 ^ 32)).map .wrote ++ ev ∧
          ∀ e ∈ ev, e.Plain := by
      rintro u ⟨⟨ev, hu, hev⟩, ⟨hd, hs, hb⟩, hc⟩
      rw [hco] at hd hs hb hc
      exact ⟨hc, ⟨hd, hs, hb⟩, ev, by rw [hu, ht], hev⟩
    simp only [wp_failIf, wp_ite]
    refine ⟨fun _ => trivial, fun _ => ⟨fun _ => ?_, fun _ => ?_⟩⟩
    · exact wp_mono (beside_dispatchH2Request env _ t) (fun _ u h => ha u h)
        (fun _ _ _ => trivial)
    · exact ha _ ⟨.of_trace rfl, ⟨rfl, rfl, rfl⟩, rfl⟩

/-! ## Whole calls -/

/-- The frame is one the collecting of header blocks allows. -/
def Expected (c : Http2Connection) (f : Frame) : Prop :=
  match c.pendingHeadersStreamId with
  | some sid => f.header.streamId = sid ∧ f.header.frameType = .continuation
  | none => f.header.frameType ≠ .continuation

/-- What a received frame does to the decoder. -/
def AfterFrame (c c' : Http2Connection) (f : Frame) : Prop :=
  match f.payload with
  | .headers block _ eh => AfterHeaders c c' f.header.streamId block eh
  | .continuation block eh => AfterContinuation c c' block eh
  | _ => SameReceiver c c'

/-- The WINDOW_UPDATE frames that answer a frame. -/
def creditFor (f : Frame) : List Frame :=
  match f.payload with
  | .data data _ => creditFrames f.header.streamId (data.length % 2 ^ 32)
  | _ => []

/-- What a call that returns has done to the receiving side. -/
def CallDone (s t : ConnState) : Call → Prop
  | .frame f => t.conn.config = s.conn.config ∧ Expected s.conn f.1 ∧
      AfterFrame s.conn t.conn f.1 ∧ ∃ ev, t.trace = s.trace ++ .received f.1 :: ((creditFor f.1).map .wrote ++ ev) ∧
        ∀ e ∈ ev, e.Plain
  | _ => Beside s t

lemma enforceContinuation_effect (f : Frame) (s : ConnState) :
    wp (enforceContinuation f) s (fun _ t => t = s ∧ Expected s.conn f) (fun _ _ => True) := by
  simp only [enforceContinuation, wp_bind, wp_getConn, Expected]
  cases s.conn.pendingHeadersStreamId with
  | some sid =>
    simp only [wp_failIf]
    refine ⟨fun _ => trivial, fun h => ⟨trivial, ?_⟩⟩
    rwa [not_or, not_not, not_not] at h
  | none =>
    simp only [wp_failIf]
    exact ⟨fun _ => trivial, fun h => ⟨trivial, h⟩⟩

lemma processPayload_receiver (env : Env) (f : Frame) (s : ConnState) :
    wp (processPayload env f.header.streamId f.payload) s
      (fun _ t => t.conn.config = s.conn.config ∧ AfterFrame s.conn t.conn f ∧
        ∃ ev, t.trace = s.trace ++ ((creditFor f).map .wrote ++ ev) ∧ ∀ e ∈ ev, e.Plain)
      (fun _ _ => True) := by
  obtain ⟨header, payload⟩ := f
  have ha : ∀ {x : H2M Unit}, Moves Beside x →
      wp x s (fun _ t => t.conn.config = s.conn.config ∧ SameReceiver s.conn t.conn ∧
        ∃ ev, t.trace = s.trace ++ ([] ++ ev) ∧ ∀ e ∈ ev, e.Plain) (fun _ _ => True) := by
    intro x hx
    exact wp_mono (hx s) (fun _ t h => ⟨h.config, h.receiver, h.silent⟩) (fun _ _ _ => trivial)
  cases payload with
  | headers block es eh =>
    exact wp_mono (processHeaders_receiver env _ block es eh s) (fun _ t h => ⟨h.2.1, h.2.2, h.1⟩)
      (fun _ _ _ => trivial)
  | continuation block eh =>
    exact wp_mono (processContinuation_receiver env _ block eh s) (fun _ t h => ⟨h.2.1, h.2.2, h.1⟩)
      (fun _ _ _ => trivial)
  | data data es =>
    refine wp_mono (processData_receiver env _ data es s) (fun _ t h => ?_)
      (fun _ _ _ => trivial)
    obtain ⟨hc, hr, ev, ht, hev⟩ := h
    exact ⟨hc, hr, ev, by rw [ht, append_assoc]; rfl, hev⟩
  | settings settings ack => exact ha (beside_processSettings settings ack)
  | ping opaqueData ack => exact ha (beside_processPing opaqueData ack)
  | windowUpdate n => exact ha (beside_processWindowUpdate _ n)
  | rstStream e => exact ha (beside_processRstStream _)
  | goAway last e debug => exact ha (moves_throw _)
  | priority exclusive dependency weight => exact ha (moves_pure _)
  | pushPromise promised block => exact ha (moves_pure _)
  | unknown bytes => exact ha (moves_pure _)

/-- **What a call does to the receiving side.** -/
lemma call_receiver (env : Env) (c : Call) (s : ConnState) :
    wp (call env c) s (fun _ t => CallDone s t c) (fun _ _ => True) := by
  cases c with
  | frame f =>
    simp only [call, wp_bind, wp_modify, wp_logEvent, processFrame]
    refine wp_mono (enforceContinuation_effect f.1 _) (fun _ t h => ?_) (fun _ _ _ => trivial)
    obtain ⟨rfl, hex⟩ := h
    refine wp_mono (processPayload_receiver env f.1 _) (fun _ u h => ?_) (fun _ _ _ => trivial)
    obtain ⟨hc, ha, ev, ht, hev⟩ := h
    exact ⟨hc, hex, ha, ev, by simp [ht], hev⟩
  | pollHeaders =>
    simp only [call, wp_bind, wp_modify]
    exact wp_mono (beside_pollPendingHeaders env _) (fun _ t h => ⟨h.silent, h.receiver, h.config⟩)
      (fun _ _ _ => trivial)
  | schedule =>
    simp only [call, wp_bind, wp_modify]
    exact wp_mono (beside_schedulePendingResponses env _)
      (fun _ t h => ⟨h.silent, h.receiver, h.config⟩) (fun _ _ _ => trivial)

lemma callDone_of_ok {env : Env} {c : Call} {s t : ConnState}
    (h : (call env c).run s = .ok () t) : CallDone s t c :=
  (wp_ok (call_receiver env c s) h :)

lemma CallDone.config {s t : ConnState} {c : Call} (h : CallDone s t c) :
    t.conn.config = s.conn.config := by
  cases c with
  | frame f => exact h.1
  | pollHeaders => exact Beside.config h
  | schedule => exact Beside.config h

/-- Calls that returned are calls that returned and then others. -/
lemma runCalls_append {calls later : List (Env × Call)} {s u : ConnState} :
    (runCalls (calls ++ later)).run s = .ok () u ↔
      ∃ t, (runCalls calls).run s = .ok () t ∧ (runCalls later).run t = .ok () u := by
  induction calls generalizing s with
  | nil =>
    constructor
    · intro h
      exact ⟨s, rfl, h⟩
    · rintro ⟨t, hn, h⟩
      cases hn
      exact h
  | cons head rest ih =>
    simp only [cons_append, runCalls, run_bind_eq_ok, ih]
    constructor
    · rintro ⟨_, t, hh, t', hr, hl⟩
      exact ⟨t', ⟨(), t, hh, hr⟩, hl⟩
    · rintro ⟨t', ⟨_, t, hh, hr⟩, hl⟩
      exact ⟨(), t, hh, t', hr, hl⟩

lemma runCalls_single {env : Env} {c : Call} {s u : ConnState} :
    (runCalls [(env, c)]).run s = .ok () u ↔ (call env c).run s = .ok () u := by
  simp only [runCalls, run_bind_eq_ok]
  constructor
  · rintro ⟨_, t, hc, hn⟩
    cases hn
    exact hc
  · intro hc
    exact ⟨(), u, hc, rfl⟩

lemma stateAfter_of_run {config : ServerConfig} {secure : Bool} {calls : List (Env × Call)}
    {s : ConnState} (h : (runCalls calls).run (ConnState.start config secure) = .ok () s) :
    stateAfter config secure calls = s := by
  rw [stateAfter, h, stateOf]

/-- One call of a run that returned: the states before and after it. -/
lemma runCalls_split {before after : List (Env × Call)} {env : Env} {c : Call} {s u : ConnState}
    (h : (runCalls (before ++ (env, c) :: after)).run s = .ok () u) :
    ∃ t t', (runCalls before).run s = .ok () t ∧ (call env c).run t = .ok () t' ∧
      (runCalls (before ++ [(env, c)])).run s = .ok () t' := by
  rw [append_cons, runCalls_append] at h
  obtain ⟨t', hb, _⟩ := h
  obtain ⟨t, ht, hc⟩ := runCalls_append.mp hb
  exact ⟨t, t', ht, runCalls_single.mp hc, hb⟩

end Veysrs
