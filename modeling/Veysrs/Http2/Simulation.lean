import Veysrs.Http2.Refinement

/-!
# Whole calls and whole runs

The three entry points of the connection put together from the steps of `Refinement`, and from
them calls in any order: `runCalls_tracks`.
-/

namespace Veysrs

open Core

section

variable {b : Base} {s : ConnState} {m : Mux} {sid : ℕ} {w : ℤ}

/-! ## `process_frame` -/

variable {trace : List Event} {c : Http2Connection}

lemma processPayload_tracks (env : Env) {f : Frame} (hr : Reaches b trace m)
    (href : Refines s.conn m) (ht : s.trace = trace ++ [.received f]) :
    wp (processPayload env f.header.streamId f.payload) s
      (fun _ t => Tracks b t) (fun _ t => Torn b t) := by
  have hqu : f.payload.Quiet → Reaches b s.trace m :=
    fun hq => ht ▸ hr.step (.quiet hq)
  cases hf : f.payload with
  | settings settings ack => exact processSettings_tracks hf hr href ht
  | ping opaqueData ack =>
    exact processPing_tracks opaqueData ack (hqu (by rw [hf]; trivial)) href
  | headers block es eh => exact processHeaders_tracks env hf hr href ht
  | continuation block eh =>
    exact processContinuation_tracks env _ block eh (hqu (by rw [hf]; trivial)) href
  | data data es => exact processData_tracks env _ data es (hqu (by rw [hf]; trivial)) href
  | windowUpdate n => exact processWindowUpdate_tracks hf hr href ht
  | rstStream e =>
    exact ⟨_, ht ▸ hr.step (.clientReset hf), href.reset f.header.streamId⟩
  | goAway last e debug => exact hr.torn_of_rejected ht
  | priority dep weight excl => exact ⟨m, hqu (by rw [hf]; trivial), href⟩
  | pushPromise promised block => exact ⟨m, hqu (by rw [hf]; trivial), href⟩
  | unknown payload => exact ⟨m, hqu (by rw [hf]; trivial), href⟩

/-- The CONTINUATION check changes nothing. -/
lemma wp_enforceContinuation {f : Frame} {Q : Unit → ConnState → Prop}
    {E : Http2ErrorCode → ConnState → Prop} (hok : Q () s) (hf : E .protocolError s) :
    wp (enforceContinuation f) s Q E := by
  simp only [enforceContinuation, wp_bind, wp_getConn]
  split
  · exact (wp_failIf _ _).mpr ⟨fun _ => hf, fun _ => hok⟩
  · exact (wp_failIf _ _).mpr ⟨fun _ => hf, fun _ => hok⟩

lemma processFrame_tracks (env : Env) {f : Frame} (hr : Reaches b trace m)
    (href : Refines s.conn m) (ht : s.trace = trace ++ [.received f]) :
    wp (processFrame env f) s (fun _ t => Tracks b t) (fun _ t => Torn b t) := by
  rw [processFrame, wp_bind]
  apply wp_enforceContinuation
  · exact processPayload_tracks env hr href ht
  · exact hr.torn_of_rejected ht

/-! ## `poll_pending_headers` -/

lemma put_self_eq {slot : Option Slot} (h : m.slots sid = slot) : m.put sid slot = m := by
  subst h
  simp [Mux.put]

lemma pollOne_tracks (env : Env) {pending : PendingHeaderResponse}
    (hr : Reaches b s.trace m) (ho : Holds s.conn m pending.streamId w)
    (hs : m.slots pending.streamId = some ⟨w, .awaiting⟩) :
    wp (pollOne env pending) s (fun _ t => Tracks b t) (fun _ t => Torn b t) := by
  unfold pollOne
  split
  · -- not ready: back to the end of the queue
    refine ⟨m, hr, ?_⟩
    have href : Refines (s.conn.await pending)
        (m.put pending.streamId (some ⟨w, .awaiting⟩)) :=
      ho.put (await_scalars ho.scalars pending) rfl rfl (fun _ hi => await_sameAt hi)
        (await_located ho.held)
    rwa [put_self_eq hs] at href
  · -- ready: the response goes out
    simp only [wp_bind]
    refine wp_mono (queueH2StreamResponse_effect env _ _ _ s) (fun _ t h => ?_) (fun _ t h => ?_)
    · exact h.tracks hr ho hs trivial
    · exact h.torn hr ho.scalars hs trivial
  · -- failed: the stream is reset
    simp only [wp_bind]
    apply wp_writeAll
    · intro faults
      exact ⟨_, hr.step (.upstreamFailed hs),
        ho.put (release_scalars ho.scalars _) rfl rfl (fun _ hi => release_sameAt hi)
          (release_located ho.held)⟩
    · exact fun faults => hr.torn

lemma pollRounds_tracks (env : Env) : ∀ (rounds : ℕ) (progressed : Bool) {s : ConnState},
    Tracks b s →
    wp (pollRounds env rounds progressed) s (fun _ t => Tracks b t) (fun _ t => Torn b t)
  | 0, _, _, h => h
  | rounds + 1, progressed, s, h => by
      obtain ⟨m, hr, href⟩ := h
      simp only [pollRounds, wp_bind, wp_getConn]
      cases hq : s.conn.pendingHeaderResponses with
      | nil => exact ⟨m, hr, href⟩
      | cons pending rest =>
        obtain ⟨w, hs, ho⟩ := href.popAwaiting hq
        simp only [wp_bind, wp_modifyConn]
        refine wp_mono (pollOne_tracks env hr ho hs) (fun p t ht => ?_) (fun _ _ h => h)
        exact pollRounds_tracks env rounds _ ht

lemma pollPendingHeaders_tracks (env : Env) (h : Tracks b s) :
    wp (pollPendingHeaders env) s (fun _ t => Tracks b t) (fun _ t => Torn b t) := by
  simp only [pollPendingHeaders, wp_bind, wp_getConn]
  refine wp_mono (pollRounds_tracks env _ _ h) (fun p t ht => ?_) (fun _ _ h => h)
  rw [wp_ite]
  refine ⟨fun _ => ?_, fun _ => ht⟩
  rw [wp_bind]
  apply wp_flush
  · exact fun faults => ht
  · exact fun faults => ht.torn

/-! ## `schedule_pending_responses` -/

/-- A held stream goes back into the body queue. -/
lemma Holds.requeue (ho : Holds c m sid w) (body : PendingBody) :
    Refines (c.enqueue sid body) (m.put sid (some ⟨w, .sending body⟩)) :=
  ho.put (enqueue_scalars ho.scalars body) rfl rfl (fun _ hi => enqueue_sameAt body hi)
    (enqueue_located body ho.held)

/-- A held stream gives its slot back. -/
lemma Holds.release (ho : Holds c m sid w) : Refines (c.release sid) (m.put sid none) :=
  ho.put (release_scalars ho.scalars sid) rfl rfl (fun _ hi => release_sameAt hi)
    (release_located ho.held)

/-- The last frame of a stream. -/
lemma writeLast_tracks {frame : Frame} {tail : List Event} (hr : Reaches b trace m)
    (hta : m.Abandoned tail) (ht : s.trace = trace ++ tail)
    (hs : m.Step (tail ++ [.wrote frame]) (m.put sid none)) (ho : Holds s.conn m sid w) :
    wp (writeLast sid frame) s (fun _ t => Tracks b t) (fun _ t => Torn b t) := by
  rw [writeLast, wp_bind]
  apply wp_writeAll
  · intro faults
    refine ⟨_, ?_, ho.release⟩
    have h := hr.step hs
    rwa [← List.append_assoc, ← ht] at h
  · exact fun faults => ⟨m, trace, tail, hr, hta, ht⟩

/-- The windows after a chunk has been sent. -/
lemma Holds.spend {connWindow window window' : Window} {n : ℕ} (ho : Holds c m sid w)
    (hl : c.sendStreamWindows.lookup sid = some window)
    (hco : c.peerConnectionWindow.consume n = .ok connWindow)
    (hs : window.consume n = .ok window') :
    Holds
      { c with
        peerConnectionWindow := connWindow
        sendStreamWindows := c.sendStreamWindows.insert sid window' }
      { m with connWindow := m.connWindow - n } sid (w - n) := by
  have hsc := ho.scalars
  have hm : sid ∈ c.sendStreamWindows := AList.lookup_isSome.mp (by rw [hl]; rfl)
  have hc := length_keys_insert_of_mem hm window'
  have hw := ho.held.window
  rw [hl, Option.map_some, Option.some.injEq] at hw
  refine ⟨⟨hsc.1, ?_, hsc.3, hsc.4, hc.trans_le hsc.capacity, hsc.sound.1, hsc.sound.2,
    hsc.sound.3⟩, ho.opened, fun i hi => ?_, ?_⟩
  · exact (Window.consume_eq_ok hco).2.trans (by rw [hsc.connWindow])
  · exact (ho.others i hi).of_sameAt ⟨AList.lookup_insert_ne hi, rfl, rfl, rfl⟩
  · refine ⟨?_, ho.held.active, ho.held.awaiting, ho.held.sending⟩
    simp only [AList.lookup_insert, Option.map_some]
    rw [(Window.consume_eq_ok hs).2, hw]

lemma sendChunk_tracks {body : PendingBody} {choice : ReadChoice} {amount : ℕ} {data : Bytes}
    {done : Bool} (hr : Reaches b trace m) (ho : Holds s.conn m sid w)
    (hs : m.slots sid = some ⟨w, .sending body⟩) (ha : m.Allows w amount)
    (hre : (body.readChunk choice amount).result = .ok (.data data done)) (hd : data ≠ [])
    (ht : s.trace = trace ++ readEvents sid (body.readChunk choice amount)) :
    wp (sendChunk sid (body.readChunk choice amount).body data done) s
      (fun _ t => Tracks b t) (fun _ t => Torn b t) := by
  have hto : Torn b s := ⟨m, trace, _, hr, .read hs ha, ht⟩
  simp only [sendChunk, wp_bind]
  refine wp_ofExcept (fun connWindow hc => ?_) (fun _ _ => hto)
  cases hl : s.conn.sendStreamWindows.lookup sid with
  | none => exact hto
  | some window =>
    simp only [wp_bind]
    refine wp_ofExcept (fun window' hstr => ?_) (fun _ _ => hto)
    have ho' := ho.spend hl hc hstr
    apply wp_writeAll
    · intro faults
      have hst := hr.step (.send hs ha hre hd)
      rw [← List.append_assoc, ← ht] at hst
      refine ⟨_, hst, ?_⟩
      cases done with
      | true => exact ho'.release
      | false => exact ho'.requeue _
    · exact fun faults => ⟨m, trace, _, hr, .read hs ha, ht⟩

lemma handleChunk_tracks {body : PendingBody} {choice : ReadChoice} {amount : ℕ}
    (hr : Reaches b trace m) (ho : Holds s.conn m sid w)
    (hs : m.slots sid = some ⟨w, .sending body⟩) (ha : m.Allows w amount)
    (ht : s.trace = trace ++ readEvents sid (body.readChunk choice amount)) :
    wp (handleChunk sid (body.readChunk choice amount)) s
      (fun _ t => Tracks b t) (fun _ t => Torn b t) := by
  have hst : (body.readChunk choice amount).result = .ok .pending ∨
      (body.readChunk choice amount).result = .ok (.data [] false) →
      wp (requeue ⟨sid, (body.readChunk choice amount).body⟩) s
        (fun _ t => Tracks b t) (fun _ t => Torn b t) := by
    intro hre
    exact ⟨_, ht ▸ hr.step (.stalled hs ha hre), ho.requeue _⟩
  unfold handleChunk
  split
  · rename_i e hre
    exact writeLast_tracks hr (.read hs ha) ht
      (.failBody hs ha hre) ho
  · exact hst (.inl ‹_›)
  · exact writeLast_tracks hr (.read hs ha) ht
      (.finishBody hs ha (.inl ‹_›)) ho
  · exact hst (.inr ‹_›)
  · exact writeLast_tracks hr (.read hs ha) ht
      (.finishBody hs ha (.inr ‹_›)) ho
  · rename_i hre
    exact sendChunk_tracks hr ho hs ha hre (List.cons_ne_nil _ _) ht

/-- What `schedule_pending_responses` asks a body for is what frame and windows allow. -/
lemma sendAmount_allows {window : Window} {quota : ℕ} (hsc : Scalars c m) (hq : 0 < quota)
    (hw : window.toInt = w) (hp : 0 < w) (hc : 0 < m.connWindow) :
    m.Allows w (sendAmount c quota window) := by
  have hf := hsc.sound.frameMin
  simp only [defaultMaxFrameSize] at hf
  unfold sendAmount
  rw [hsc.peerMaxFrame, hsc.connWindow]
  exact ⟨by omega, by omega, by omega, by omega⟩

lemma scheduleOne_tracks (env : Env) {quota : ℕ} (hq : 0 < quota) {pending : PendingResponse}
    (hr : Reaches b s.trace m) (hold : Holds s.conn m pending.streamId w)
    (hs : m.slots pending.streamId = some ⟨w, .sending pending.body⟩) :
    wp (scheduleOne env quota pending) s (fun _ t => Tracks b t) (fun _ t => Torn b t) := by
  have hwi := hold.held.window
  obtain ⟨window, hl, hw⟩ := Option.map_eq_some_iff.mp hwi
  simp only [scheduleOne, wp_bind, wp_getConn, hl, wp_ite]
  constructor
  · intro _
    refine ⟨m, hr, ?_⟩
    have href := hold.requeue pending.body
    rwa [put_self_eq hs] at href
  · intro ho
    rw [hold.scalars.connWindow] at ho
    refine handleChunk_tracks hr ?_ hs ?_ rfl
    · exact hold
    · exact sendAmount_allows hold.scalars hq hw (by omega) (by omega)

lemma scheduleRounds_tracks (env : Env) {quota : ℕ} (hq : 0 < quota) :
    ∀ (rounds : ℕ) (sent : Bool) {s : ConnState}, Tracks b s →
      wp (scheduleRounds env quota rounds sent) s (fun _ t => Tracks b t) (fun _ t => Torn b t)
  | 0, _, _, h => h
  | rounds + 1, sent, s, h => by
      obtain ⟨m, hr, href⟩ := h
      simp only [scheduleRounds, wp_bind, wp_getConn]
      cases hqu : s.conn.pendingResponses with
      | nil => exact ⟨m, hr, href⟩
      | cons pending rest =>
        obtain ⟨w, hs, ho⟩ := href.popSending hqu
        simp only [wp_bind, wp_modifyConn]
        refine wp_mono (scheduleOne_tracks env hq hr ho hs)
          (fun p t ht => ?_) (fun _ _ h => h)
        exact scheduleRounds_tracks env hq rounds _ ht

lemma schedulePendingResponses_tracks (env : Env) (h : Tracks b s) :
    wp (schedulePendingResponses env) s (fun _ t => Tracks b t) (fun _ t => Torn b t) := by
  simp only [schedulePendingResponses, wp_bind, wp_ite]
  refine ⟨fun _ => h, fun _ => ?_⟩
  refine wp_mono (scheduleRounds_tracks env (by omega) _ _ h) (fun p t ht => ?_) (fun _ _ h => h)
  refine ⟨fun _ => ?_, fun _ => ht⟩
  apply wp_flush
  · exact fun faults => ht
  · exact fun faults => ht.torn

end

/-! ## Runs -/

/-- **Every call is a run of the abstract machine.** -/
lemma call_tracks {b : Base} {s : ConnState} (env : Env) (c : Call) (h : Tracks b s) :
    wp (call env c) s (fun _ t => Tracks b t) (fun _ t => Torn b t) := by
  cases c with
  | frame f =>
    obtain ⟨m, hr, href⟩ := h
    exact processFrame_tracks env hr href rfl
  | pollHeaders =>
    simp only [call, wp_bind]
    exact pollPendingHeaders_tracks env h
  | schedule =>
    simp only [call, wp_bind]
    exact schedulePendingResponses_tracks env h

/-- **Calls in any order are a run of the abstract machine.** -/
lemma runCalls_tracks {b : Base} : ∀ (calls : List (Env × Call)) {s : ConnState}, Tracks b s →
    wp (runCalls calls) s (fun _ t => Tracks b t) (fun _ t => Torn b t)
  | [], _, h => h
  | (env, c) :: rest, s, h => by
      rw [runCalls, wp_bind]
      exact wp_mono (call_tracks env c h) (fun _ t ht => runCalls_tracks rest ht) (fun _ _ h => h)

/-- The base of a new connection. -/
def Base.new : Base := { mux := Mux.init, trace := [] }

/-- **A new connection refines the machine's initial state.** -/
lemma start_tracks (config : ServerConfig) (secure : Bool) :
    Tracks Base.new (ConnState.start config secure) := by
  refine ⟨Mux.init, ⟨_, (List.nil_append _).symm, Runs.single (.control ⟨rfl, rfl⟩)⟩, ?_, ?_⟩
  · exact ⟨rfl, rfl, rfl, rfl, Nat.zero_le _, by decide, by decide, fun i slot h => by cases h⟩
  · exact fun i => ⟨rfl, rfl, rfl, rfl⟩

end Veysrs
