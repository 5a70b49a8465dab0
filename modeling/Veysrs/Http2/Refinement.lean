import Veysrs.Http2.Placement

/-!
# The connection refines the abstract machine

Every call of the connection is a run of `Mux`: from a state that refines some state of the
machine, a call that returns leads to a state that refines another, and what it has logged is what
the machine's steps emit (`call_tracks`); a call that fails has logged complete steps and at most
the beginning of one more (`Torn`).  `runCalls_tracks` is the same for calls in any order.

Both are relative to a base, the state and log from which the run is observed, so that a run can be
followed from a new connection or from the middle.
-/

namespace Veysrs

open Core List

/-- A state of the machine with the log that led to it. -/
structure Base where
  mux : Mux
  trace : List Event

/-- The log `trace` is the base's log and a run of the machine from there to `m`. -/
def Reaches (b : Base) (trace : List Event) (m : Mux) : Prop :=
  ∃ evs, trace = b.trace ++ evs ∧ Runs Mux.Step b.mux evs m

/-- The state refines one that its log leads to. -/
def Tracks (b : Base) (s : ConnState) : Prop :=
  ∃ m, Reaches b s.trace m ∧ Refines s.conn m

/-- The log is one of complete steps and the beginning of another. -/
def Torn (b : Base) (s : ConnState) : Prop :=
  ∃ m trace tail, Reaches b trace m ∧ m.Abandoned tail ∧ s.trace = trace ++ tail

variable {trace : List Event} {f : Frame} {c : Http2Connection} {st : Stream}

section

variable {b : Base} {s t : ConnState} {m m' : Mux} {sid : ℕ} {w : ℤ}

lemma Reaches.step {ev : List Event} (h : Reaches b trace m) (hs : m.Step ev m') :
    Reaches b (trace ++ ev) m' := by
  obtain ⟨evs, rfl, hr⟩ := h
  exact ⟨evs ++ ev, append_assoc _ _ _, hr.tail hs⟩

lemma Reaches.torn (h : Reaches b s.trace m) : Torn b s :=
  ⟨m, s.trace, [], h, .nothing, (append_nil _).symm⟩

lemma Reaches.torn_of_rejected (h : Reaches b trace m) (ht : s.trace = trace ++ [.received f]) :
    Torn b s :=
  ⟨m, trace, _, h, .rejected f, ht⟩

lemma Tracks.torn (h : Tracks b s) : Torn b s := by
  obtain ⟨m, hr, _⟩ := h
  exact hr.torn

/-! ## Answers -/

/-- **An answer to a held stream is a step of the machine.** -/
lemma Answered.tracks {ph : Phase} (h : Answered sid s t) (hr : Reaches b s.trace m)
    (ho : Holds s.conn m sid w) (hs : m.slots sid = some ⟨w, ph⟩) (hph : ph.Waiting) :
    Tracks b t := by
  have hm := ho.scalars.peerMaxFrame
  cases h with
  | finished block hc ht =>
    refine ⟨m.put sid none, ?_, ?_⟩
    · rw [ht, hm]
      exact hr.step (.finish hs hph ho.scalars.sound.frame_pos)
    · rw [hc]
      exact ho.put (release_scalars ho.scalars sid) rfl rfl (fun i hi => release_sameAt hi)
        (release_located ho.held)
  | queued block body hc ht =>
    refine ⟨m.put sid (some ⟨w, .sending body⟩), ?_, ?_⟩
    · rw [ht, hm]
      exact hr.step (.respond hs hph ho.scalars.sound.frame_pos)
    · rw [hc]
      exact ho.put (enqueue_scalars ho.scalars body) rfl rfl
        (fun i hi => enqueue_sameAt body hi) (enqueue_located body ho.held)
  | parked pending hsid hc ht =>
    subst hsid
    refine ⟨m.put pending.streamId (some ⟨w, .awaiting⟩), ?_, ?_⟩
    · rw [ht]
      simpa using hr.step (.park hs hph)
    · rw [hc]
      exact ho.put (await_scalars ho.scalars pending) rfl rfl
        (fun i hi => await_sameAt hi) (await_located ho.held)

lemma BrokenOff.torn {ph : Phase} (h : BrokenOff sid s t) (hr : Reaches b s.trace m)
    (hsc : Scalars s.conn m) (hs : m.slots sid = some ⟨w, ph⟩) (hph : ph.Waiting) :
    Torn b t := by
  obtain ⟨block, es, frames, hf, ht⟩ := h
  rw [hsc.peerMaxFrame] at hf
  exact ⟨m, s.trace, _, hr, .response hs hph hsc.sound.frame_pos hf, ht⟩

/-- An answer does not depend on the active streams: taking the stream out before or after makes
no difference. -/
lemma Answered.dropActive (h : Answered sid s t) :
    Answered sid { s with conn := s.conn.dropActive sid }
      { t with conn := t.conn.dropActive sid } := by
  cases h with
  | finished block hc ht =>
    refine .finished block ?_ ht
    rw [hc]
    unfold Http2Connection.release Http2Connection.markClosedStream Http2Connection.dropActive
    split_ifs <;> rfl
  | queued block body hc ht =>
    exact .queued block body (by rw [hc]; rfl) ht
  | parked pending hs hc ht =>
    exact .parked pending hs (by rw [hc]; rfl) ht

/-! ## Changes that move no stream -/

/-- The receiving side of the connection is not part of the machine. -/
lemma Refines.withReceiver (h : Refines c m) (decoder : HpackDecoder) (flow : FlowControl)
    (pendingSid : Option ℕ) (block : Bytes) :
    Refines { c with
      hpackDecoder := decoder
      flowControl := flow
      pendingHeadersStreamId := pendingSid
      pendingHeaderBlock := block } m :=
  ⟨h.scalars.of_numbers rfl,
    fun i => ⟨(h.placed i).1, (h.placed i).2, (h.placed i).3, (h.placed i).4⟩⟩

lemma Holds.withFlow (h : Holds c m sid w) (flow : FlowControl) :
    Holds { c with flowControl := flow } m sid w :=
  ⟨h.scalars.of_numbers rfl, h.opened,
    fun i hi => ⟨(h.others i hi).1, (h.others i hi).2, (h.others i hi).3, (h.others i hi).4⟩,
    ⟨h.held.1, h.held.2, h.held.3, h.held.4⟩⟩

/-- A stream is put back among the active ones. -/
lemma Holds.putActive (h : Holds c m sid w) (hid : st.id = sid)
    (hs : m.slots sid = some ⟨w, .receiving⟩) :
    Refines { c with activeStreams := c.activeStreams.insert sid st } m := by
  refine ⟨h.scalars.of_numbers rfl, fun i => ?_⟩
  by_cases hi : i = sid
  · subst hi
    rw [hs]
    refine ⟨h.held.window, ?_, h.held.awaiting.trans (by simp), h.held.sending⟩
    simp [Http2Connection.activeId, hid]
  · refine (h.others i hi).of_sameAt ⟨rfl, ?_, rfl, rfl⟩
    simp [Http2Connection.activeId, AList.lookup_insert_ne hi]

/-- An active stream is replaced by a later state of itself. -/
lemma Refines.updateActive {st' : Stream} (h : Refines c m)
    (hst : c.activeStreams.lookup sid = some st) (hid : st'.id = st.id) :
    Refines { c with activeStreams := c.activeStreams.insert sid st' } m := by
  refine ⟨h.scalars.of_numbers rfl,
    fun i => (h.placed i).of_sameAt ⟨rfl, ?_, rfl, rfl⟩⟩
  by_cases hi : i = sid
  · subst hi
    simp [Http2Connection.activeId, hst, hid]
  · simp [Http2Connection.activeId, AList.lookup_insert_ne hi]

end

/-! ## Requests -/

section Requests

variable {b : Base} {s : ConnState} {m : Mux} {sid : ℕ} {w : ℤ}

/-- A request of a stream held by the call. -/
lemma dispatch_tracks (env : Env) (hid : st.id = sid) (hr : Reaches b s.trace m)
    (ho : Holds s.conn m sid w) (hs : m.slots sid = some ⟨w, .receiving⟩) :
    wp (dispatchH2Request env st) s (fun _ t => Tracks b t) (fun _ t => Torn b t) := by
  subst hid
  refine wp_mono (dispatchH2Request_effect env st s) (fun _ t h => ?_) (fun _ t h => ?_)
  · exact h.tracks hr ho hs trivial
  · exact h.torn hr ho.scalars hs trivial

lemma finishHeaders_tracks (env : Env) (headers : Headers) (es : Bool)
    (hr : Reaches b s.trace m) (href : Refines s.conn m)
    (hst : s.conn.activeStreams.lookup sid = some st) :
    wp (finishHeaders env sid st headers es) s
      (fun _ t => Tracks b t) (fun _ t => Torn b t) := by
  obtain ⟨hid, w, hs⟩ := href.slot_of_active hst
  simp only [finishHeaders]
  split_ifs
  · simp only [wp_bind, wp_modifyConn]
    set st' := (st.appendRequestHeaders headers true).tryTransitionTo .halfClosedRemote
    have hid' : st'.id = sid := by simp [st', hid]
    have href' : Refines { s.conn with
        activeStreams := s.conn.activeStreams.insert sid st' } m :=
      href.updateActive hst (by rw [hid', hid])
    refine wp_mono (dispatchH2Request_effect env st' _) (fun _ t h => ?_) (fun _ t h => ?_)
    · rw [hid'] at h
      exact h.dropActive.tracks hr (href'.takeActive hs) hs trivial
    · rw [hid'] at h
      exact h.torn hr href'.scalars hs trivial
  · rw [wp_modifyConn]
    exact ⟨m, hr, href.updateActive hst rfl⟩

lemma decodeHeaderBlock_effect (block : Bytes) (s : ConnState) :
    wp (decodeHeaderBlock block) s
      (fun headers t => ∃ d, (HpackDecoder.decodeHeaderBlock block).run s.conn.hpackDecoder =
        .ok headers d ∧ t = { s with conn := { s.conn with hpackDecoder := d } })
      (fun _ t => t.trace = s.trace) := by
  simp only [decodeHeaderBlock, wp_bind, wp_getConn]
  cases hr : (HpackDecoder.decodeHeaderBlock block).run s.conn.hpackDecoder with
  | ok headers d =>
    exact ⟨d, rfl, rfl⟩
  | error e d =>
    simp only [wp_bind, wp_modifyConn, wp_throw]

/-! ## Frames that open and fill streams -/

/-- A new stream takes a slot. -/
lemma Refines.open (h : Refines c m) (hl : m.lastStreamId < sid) (hid : st.id = sid)
    (hc : c.trackedStreamCount < c.maxConcurrentStreams) :
    Refines
      { c with
        lastStreamId := sid
        sendStreamWindows :=
          c.sendStreamWindows.insert sid (Window.new c.peerInitialStreamWindowSize)
        activeStreams := c.activeStreams.insert sid st }
      (({ m with lastStreamId := sid } : Mux).put sid (some ⟨m.peerInitial, .receiving⟩)) := by
  have hb := h.scalars.sound.below
  have hn : m.slots sid = none := by
    by_contra hne
    obtain ⟨slot, hs⟩ := Option.ne_none_iff_exists'.mp hne
    exact absurd (hb sid slot hs) (Nat.not_le.mpr hl)
  have hso : ({ m with lastStreamId := sid } : Mux).Sound :=
    ⟨h.scalars.sound.initialFits, h.scalars.sound.frameMin,
      fun i slot hs => (hb i slot hs).trans hl.le⟩
  refine ⟨⟨rfl, h.scalars.2, h.scalars.3, h.scalars.4, ?_, hso.put le_rfl _⟩, fun i => ?_⟩
  · exact (length_keys_insert_le _ _ _).trans hc
  · have hi' := h.placed i
    by_cases hi : i = sid
    · subst hi
      rw [hn] at hi'
      rw [Mux.put_slots_same]
      refine ⟨?_, ?_, hi'.awaiting.trans (by simp), hi'.sending⟩
      · simp only [AList.lookup_insert, Option.map_some]
        rw [Window.toInt_new (by rw [h.scalars.peerInitial]; exact h.scalars.sound.initialFits),
          h.scalars.peerInitial]
      · simp [Http2Connection.activeId, hid]
    · rw [Mux.put_slots_of_ne _ hi]
      refine hi'.of_sameAt ⟨AList.lookup_insert_ne hi, ?_, rfl, rfl⟩
      simp [Http2Connection.activeId, AList.lookup_insert_ne hi]

lemma openStream_effect (sid : ℕ) (es : Bool) (s : ConnState) :
    wp (openStream sid es) s
      (fun _ t => ∃ st, st.id = sid ∧ t = { s with conn := { s.conn with
        sendStreamWindows :=
          s.conn.sendStreamWindows.insert sid (Window.new s.conn.peerInitialStreamWindowSize)
        activeStreams := s.conn.activeStreams.insert sid st } })
      (fun _ t => t.trace = s.trace) := by
  simp only [openStream, wp_bind]
  apply wp_ofExcept
  · intro st hst
    apply wp_ofExcept
    · intro st' hst'
      have hid : st'.id = sid := (Stream.transitionTo_id hst').trans (Stream.new_eq_ok hst :)
      exact ⟨{ st' with receivedEndStream := es }, hid, rfl⟩
    · exact fun _ _ => rfl
  · exact fun _ _ => rfl

/-- HEADERS on a stream that is accepted: the slot is taken before the header block is read. -/
lemma acceptHeaders_tracks (env : Env) {block : Bytes} {es eh : Bool}
    (hf : f.payload = .headers block es eh) (hr : Reaches b trace m) (href : Refines c m)
    (hl : m.lastStreamId < f.header.streamId)
    (hcap : c.trackedStreamCount < c.maxConcurrentStreams)
    (hc : s.conn = { c with lastStreamId := f.header.streamId })
    (ht : s.trace = trace ++ [.received f]) :
    wp (acceptHeaders env f.header.streamId block es eh) s
      (fun _ t => Tracks b t) (fun _ t => Torn b t) := by
  rw [acceptHeaders, wp_bind]
  refine wp_mono (openStream_effect _ es s) (fun _ t h => ?_)
    (fun _ t h => hr.torn_of_rejected (h.trans ht))
  obtain ⟨st, hid, rfl⟩ := h
  have hr' : Reaches b s.trace _ := ht ▸ hr.step (.accept hf hl)
  have href' := href.open hl hid hcap
  simp only [hc, wp_ite, wp_bind, wp_getConn]
  constructor
  · intro _
    refine wp_mono (decodeHeaderBlock_effect block _) (fun headers t h => ?_)
      (fun _ t h => Reaches.torn (h ▸ hr'))
    obtain ⟨d, _, rfl⟩ := h
    simp only [AList.lookup_insert]
    exact finishHeaders_tracks env headers es hr'
      (href'.withReceiver d c.flowControl c.pendingHeadersStreamId c.pendingHeaderBlock)
      (AList.lookup_insert _)
  · intro _
    simp only [wp_failIf]
    exact ⟨fun _ => hr'.torn, fun _ => ⟨_, hr',
      href'.withReceiver c.hpackDecoder c.flowControl _ block⟩⟩

lemma processHeaders_tracks (env : Env) {block : Bytes} {es eh : Bool}
    (hf : f.payload = .headers block es eh) (hr : Reaches b trace m) (href : Refines s.conn m)
    (ht : s.trace = trace ++ [.received f]) :
    wp (processHeaders env f.header.streamId block es eh) s
      (fun _ t => Tracks b t) (fun _ t => Torn b t) := by
  simp only [processHeaders, wp_bind, wp_failIf, wp_modifyConn]
  refine ⟨fun _ => hr.torn_of_rejected ht, fun _ =>
    ⟨fun _ => hr.torn_of_rejected ht, fun hl => ?_⟩⟩
  rw [href.scalars.lastStreamId, Nat.not_le] at hl
  rw [wp_ite]
  constructor
  · intro hc
    exact acceptHeaders_tracks env hf hr href hl (of_decide_eq_true hc) rfl ht
  · intro _
    rw [wp_bind]
    apply wp_writeAll
    · intro faults
      refine ⟨{ m with lastStreamId := f.header.streamId }, ?_, ?_, fun i => ?_⟩
      · simpa [ht] using hr.step (.refuse hf hl)
      · apply markClosedStream_scalars
        have hsc := href.scalars
        exact ⟨rfl, hsc.2, hsc.3, hsc.4, hsc.capacity, hsc.sound.initialFits, hsc.sound.frameMin,
          fun i slot hs => (hsc.sound.below i slot hs).trans hl.le⟩
      · refine Located.of_sameAt ?_ (markClosedStream_sameAt _ _ i)
        exact (href.placed i).of_sameAt ⟨rfl, rfl, rfl, rfl⟩
    · exact fun faults => hr.torn_of_rejected ht

lemma processContinuation_tracks (env : Env) (sid : ℕ) (block : Bytes) (eh : Bool)
    (hr : Reaches b s.trace m) (href : Refines s.conn m) :
    wp (processContinuation env sid block eh) s
      (fun _ t => Tracks b t) (fun _ t => Torn b t) := by
  simp only [processContinuation, wp_bind, wp_failIf, wp_getConn, wp_ite, wp_modifyConn]
  refine ⟨fun _ => hr.torn, fun _ => ⟨fun _ => ?_, fun _ => ⟨m, hr,
    href.withReceiver s.conn.hpackDecoder s.conn.flowControl s.conn.pendingHeadersStreamId _⟩⟩⟩
  refine wp_mono (decodeHeaderBlock_effect _ _) (fun headers t h => ?_)
    (fun _ t h => Reaches.torn (h ▸ hr))
  obtain ⟨d, _, rfl⟩ := h
  have href' := href.withReceiver d s.conn.flowControl none []
  cases hst : s.conn.activeStreams.lookup sid with
  | some st => exact finishHeaders_tracks env headers _ hr href' hst
  | none => exact ⟨m, hr, href'⟩

/-! ## Request bodies -/

/-- The WINDOW_UPDATE frames that answer `n` bytes of data. -/
def creditFrames (sid n : ℕ) : List Frame :=
  if n > 0 then [windowUpdateFrame 0 n, windowUpdateFrame sid n] else []

/-- Data is credited with one update for the connection and one for the stream, and only windows
change. -/
lemma creditData_effect (sid : ℕ) (st : Stream) (n : ℕ) (s : ConnState) :
    wp (creditData sid st n) s
      (fun st' t => (∃ window, st' = { st with window }) ∧
        (∃ flow, t.conn = { s.conn with flowControl := flow }) ∧
        t.trace = s.trace ++ (creditFrames sid n).map .wrote)
      (fun _ t => ∃ frames, frames <+: creditFrames sid n ∧
        t.trace = s.trace ++ frames.map .wrote) := by
  have hs : ∃ frames, frames <+: creditFrames sid n ∧
      s.trace = s.trace ++ frames.map Event.wrote := ⟨[], nil_prefix, by simp⟩
  simp only [creditData, wp_ite, wp_bind, wp_failIf]
  refine ⟨fun hn => ⟨fun _ => hs, fun _ => ⟨fun _ => hs, fun _ => ?_⟩⟩, fun hn => ?_⟩
  · have hf : creditFrames sid n = [windowUpdateFrame 0 n, windowUpdateFrame sid n] :=
      if_pos hn
    refine wp_ofExcept (fun connWindow _ => ?_) (fun _ _ => hs)
    refine wp_ofExcept (fun window _ => ?_) (fun _ _ => hs)
    refine wp_ofExcept (fun connWindow' _ => ?_) (fun _ _ => hs)
    refine wp_ofExcept (fun window' _ => ?_) (fun _ _ => hs)
    apply wp_writeAll
    · intro faults
      apply wp_writeAll
      · exact fun faults' => ⟨⟨_, rfl⟩, ⟨_, rfl⟩, by simp [hf]⟩
      · exact fun faults' => ⟨[windowUpdateFrame 0 n], by simp [hf], by simp⟩
    · exact fun faults => hs
  · exact ⟨⟨st.window, rfl⟩, ⟨s.conn.flowControl, rfl⟩, by simp [creditFrames, hn]⟩

/-- Control frames are steps of their own. -/
lemma Reaches.control {trace : List Event} (h : Reaches b trace m) :
    ∀ {frames : List Frame}, (∀ f ∈ frames, f.IsControl) →
      Reaches b (trace ++ frames.map .wrote) m
  | [], _ => by simpa using h
  | f :: rest, hfr => by
      have hf := h.step (.control (hfr f mem_cons_self))
      have hr := hf.control fun g hg => hfr g (mem_cons_of_mem f hg)
      simpa using hr

lemma creditFrames_isControl {n : ℕ} (h : f ∈ creditFrames sid n) : f.IsControl := by
  unfold creditFrames at h
  split_ifs at h
  · rcases mem_pair.mp h with rfl | rfl
    · exact rfl
    · exact rfl
  · cases h

lemma processData_tracks (env : Env) (sid : ℕ) (data : Bytes) (es : Bool)
    (hr : Reaches b s.trace m) (href : Refines s.conn m) :
    wp (processData env sid data es) s (fun _ t => Tracks b t) (fun _ t => Torn b t) := by
  simp only [processData, wp_bind, wp_getConn]
  cases hst : s.conn.activeStreams.lookup sid with
  | none => exact hr.torn
  | some st =>
    obtain ⟨hid, w, hs⟩ := href.slot_of_active hst
    simp only [wp_bind, wp_modifyConn]
    refine wp_mono (creditData_effect sid st _ _) (fun st' t h => ?_) (fun _ t h => ?_)
    · obtain ⟨⟨window, rfl⟩, ⟨flow, hc⟩, ht⟩ := h
      have hr' : Reaches b t.trace m :=
        ht ▸ hr.control fun f hf => creditFrames_isControl hf
      have ho : Holds t.conn m sid w := hc ▸ (href.takeActive hs).withFlow flow
      simp only [wp_failIf, wp_ite]
      refine ⟨fun _ => hr'.torn, fun _ => ⟨fun _ => ?_, fun _ => ?_⟩⟩
      · exact dispatch_tracks env (by simp [hid]) hr' ho hs
      · exact ⟨m, hr', ho.putActive (by simp [hid]) hs⟩
    · obtain ⟨frames, hp, ht⟩ := h
      suffices hr' : Reaches b t.trace m from hr'.torn
      rw [ht]
      exact hr.control fun f hf => creditFrames_isControl (hp.subset hf)

end Requests

/-! ## Settings, updates and resets -/

section Control

variable {b : Base} {s : ConnState} {m : Mux} {sid : ℕ} {w : ℤ}

/-- A new initial window moves the window of every stream. -/
lemma Refines.resize {active : AssocMap ℕ Stream} {windows : AssocMap ℕ Window} {val : ℕ}
    (h : Refines c m) (hv : val ≤ maxWindowSize)
    (ha : mapValuesM (fun st : Stream => (st.sendWindow.adjust
      (val - c.peerInitialStreamWindowSize)).map fun w => { st with sendWindow := w })
      c.activeStreams = .ok active)
    (hwi : mapValuesM (Window.adjust · (val - c.peerInitialStreamWindowSize))
      c.sendStreamWindows = .ok windows) :
    Refines
      { c with
        activeStreams := active
        sendStreamWindows := windows
        peerInitialStreamWindowSize := val }
      (m.applySetting (.initialWindowSize, val)) := by
  have hsc := h.scalars
  have hso : (m.applySetting (.initialWindowSize, val)).Sound := by
    refine ⟨hv, hsc.sound.frameMin, fun i slot hs => ?_⟩
    obtain ⟨slot', hs', _⟩ := Option.map_eq_some_iff.mp hs
    exact hsc.sound.below i slot' hs'
  have hids : ∀ st st' : Stream,
      ((st.sendWindow.adjust (val - c.peerInitialStreamWindowSize)).map
        fun w => { st with sendWindow := w }) = .ok st' → st'.id = id st.id := by
    intro st st' hst
    cases hadj : st.sendWindow.adjust (val - c.peerInitialStreamWindowSize) with
    | ok w =>
      rw [hadj] at hst
      cases hst
      rfl
    | error e =>
      rw [hadj] at hst
      cases hst
  have hints : ∀ a a' : Window, a.adjust (val - c.peerInitialStreamWindowSize) = .ok a' →
      a'.toInt = (· + ((val : ℤ) - c.peerInitialStreamWindowSize)) a.toInt :=
    fun _ _ hadj => Window.adjust_eq_ok hadj
  refine ⟨⟨hsc.1, hsc.2, rfl, hsc.4, ?_, hso⟩, fun i => ?_⟩
  · exact (congrArg List.length (keys_mapValuesM hwi)).trans_le hsc.capacity
  · have hi := h.placed i
    rw [Placed, Mux.applySetting_initial_phase, Mux.applySetting_initial_window]
    refine ⟨?_, ?_, hi.awaiting, hi.sending⟩
    · have hw := map_lookup_mapValuesM Window.toInt
        (· + ((val : ℤ) - c.peerInitialStreamWindowSize)) hwi hints i
      rw [hi.window, hsc.peerInitial] at hw
      exact hw
    · have hid := map_lookup_mapValuesM Stream.id id ha hids i
      rw [Option.map_id] at hid
      exact hid.trans hi.active

lemma applySetting_effect (setting : SettingId × ℕ) (h : Refines s.conn m) :
    wp (applySetting setting) s
      (fun _ t => t.trace = s.trace ∧ Refines t.conn (m.applySetting setting))
      (fun _ t => t.trace = s.trace) := by
  obtain ⟨id, val⟩ := setting
  simp only [applySetting]
  split
  · -- SETTINGS_MAX_FRAME_SIZE
    simp only [wp_bind, wp_failIf, wp_modifyConn]
    refine ⟨fun _ => trivial, fun hv => ⟨trivial, ?_⟩⟩
    have hsc := h.scalars
    exact ⟨⟨hsc.1, hsc.2, hsc.3, rfl, hsc.capacity, hsc.sound.initialFits,
      by simp only [Mux.applySetting, defaultMaxFrameSize]; omega, hsc.sound.below⟩,
      fun i => ⟨(h.placed i).1, (h.placed i).2, (h.placed i).3, (h.placed i).4⟩⟩
  · -- SETTINGS_INITIAL_WINDOW_SIZE
    simp only [wp_bind, wp_failIf]
    refine ⟨fun _ => trivial, fun hv => ?_⟩
    refine wp_ofExcept (fun active ha => ?_) (fun _ _ => rfl)
    refine wp_ofExcept (fun windows hw => ?_) (fun _ _ => rfl)
    exact ⟨rfl, h.resize (Nat.not_lt.mp hv) ha hw⟩
  · rename_i hf hwi
    rw [Mux.applySetting_of_ne m hf hwi]
    exact ⟨rfl, h⟩

lemma applySettings_effect : ∀ (settings : List (SettingId × ℕ)) {s : ConnState} {m : Mux},
    Refines s.conn m →
    wp (applySettings settings) s
      (fun _ t => t.trace = s.trace ∧ Refines t.conn (m.applySettings settings))
      (fun _ t => t.trace = s.trace)
  | [], s, m, h => ⟨rfl, h⟩
  | setting :: rest, s, m, h => by
      rw [applySettings, wp_bind]
      refine wp_mono (applySetting_effect setting h) (fun _ t ht => ?_) (fun _ _ ht => ht)
      refine wp_mono (applySettings_effect rest ht.2) (fun _ u hu => ?_) (fun _ _ hu => ?_)
      · exact ⟨hu.1.trans ht.1, hu.2⟩
      · exact hu.trans ht.1

lemma processSettings_tracks {settings : List (SettingId × ℕ)} {ack : Bool}
    (hf : f.payload = .settings settings ack) (hr : Reaches b trace m) (href : Refines s.conn m)
    (htr : s.trace = trace ++ [.received f]) :
    wp (processSettings settings ack) s (fun _ t => Tracks b t) (fun _ t => Torn b t) := by
  cases ack with
  | true =>
    exact ⟨m, htr ▸ hr.step (.quiet (by rw [hf]; rfl)), href⟩
  | false =>
    simp only [processSettings, Bool.false_eq_true, if_false, wp_bind]
    refine wp_mono (applySettings_effect settings href) (fun _ t ht => ?_)
      (fun _ t ht => hr.torn_of_rejected (ht.trans htr))
    have hr' : Reaches b t.trace _ := ht.1 ▸ htr ▸ hr.step (.settings hf)
    apply wp_writeIgnoringErrors
    · exact fun faults => ⟨_, hr'.step (.control ⟨rfl, rfl⟩), ht.2⟩
    · exact fun faults => ⟨_, hr', ht.2⟩

lemma processPing_tracks (opaqueData) (ack : Bool)
    (hr : Reaches b s.trace m) (href : Refines s.conn m) :
    wp (processPing opaqueData ack) s (fun _ t => Tracks b t) (fun _ t => Torn b t) := by
  unfold processPing
  split_ifs
  · exact ⟨m, hr, href⟩
  · apply wp_writeIgnoringErrors
    · exact fun faults => ⟨m, hr.step (.control ⟨rfl, rfl⟩), href⟩
    · exact fun faults => ⟨m, hr, href⟩

/-- The window of a stream that has one is set. -/
lemma Refines.setWindow {window window' : Window} {slot : Slot} {n : ℤ} (h : Refines c m)
    (hs : m.slots sid = some slot) (hl : c.sendStreamWindows.lookup sid = some window)
    (hwi : window'.toInt = window.toInt + n) :
    Refines { c with sendStreamWindows := c.sendStreamWindows.insert sid window' }
      (m.put sid (some { slot with window := slot.window + n })) := by
  have hsc := h.scalars
  have hm : sid ∈ c.sendStreamWindows := AList.lookup_isSome.mp (by rw [hl]; rfl)
  have hc := length_keys_insert_of_mem hm window'
  refine ⟨⟨hsc.1, hsc.2, hsc.3, hsc.4, hc.trans_le hsc.capacity,
    hsc.sound.put (hsc.sound.below sid slot hs) _⟩, fun i => ?_⟩
  have hi' := h.placed i
  by_cases hi : i = sid
  · subst hi
    rw [hs] at hi'
    rw [Mux.put_slots_same]
    have hw := hi'.window
    rw [hl] at hw
    refine ⟨?_, hi'.active, hi'.awaiting, hi'.sending⟩
    simp only [AList.lookup_insert, Option.map_some, Option.some.injEq] at hw ⊢
    rw [hwi, hw]
  · rw [Mux.put_slots_of_ne _ hi]
    exact hi'.of_sameAt ⟨AList.lookup_insert_ne hi, rfl, rfl, rfl⟩

/-- A stream with a send window holds a slot. -/
lemma Refines.slot_of_window {window : Window} (h : Refines c m)
    (hl : c.sendStreamWindows.lookup sid = some window) :
    ∃ slot, m.slots sid = some slot ∧ slot.window = window.toInt := by
  have hw := (h.placed sid).window
  rw [hl] at hw
  obtain ⟨slot, hs, hwi⟩ := Option.map_eq_some_iff.mp hw.symm
  exact ⟨slot, hs, hwi⟩

lemma Refines.slot_of_no_window (h : Refines c m) (hl : c.sendStreamWindows.lookup sid = none) :
    m.slots sid = none := by
  have hw := (h.placed sid).window
  rw [hl] at hw
  exact Option.map_eq_none_iff.mp hw.symm

lemma processStreamUpdate_tracks {n : ℕ} (hf : f.payload = .windowUpdate n)
    (hsid : f.header.streamId ≠ 0) (hre : Reaches b trace m) (href : Refines s.conn m)
    (ht : s.trace = trace ++ [.received f]) :
    wp (processStreamUpdate f.header.streamId n) s
      (fun _ t => Tracks b t) (fun _ t => Torn b t) := by
  have hr := hre.torn_of_rejected ht
  simp only [processStreamUpdate, wp_bind, wp_getConn]
  cases hst : s.conn.activeStreams.lookup f.header.streamId with
  | some st =>
    -- an active stream has a window
    obtain ⟨_, w, hs⟩ := href.slot_of_active hst
    have hwi := (href.placed f.header.streamId).window
    rw [hs] at hwi
    obtain ⟨window, hl, hw⟩ := Option.map_eq_some_iff.mp hwi
    simp only [hl, wp_bind]
    refine wp_ofExcept (fun sendWindow _ => ?_) (fun _ _ => hr)
    refine wp_ofExcept (fun window' hwi' => ?_) (fun _ _ => hr)
    refine ⟨_, ht ▸ hre.step (.streamCredit hf hsid hs), ?_⟩
    have href' := href.setWindow hs hl (Window.update_eq_ok hwi')
    exact href'.updateActive hst rfl
  | none =>
    cases hl : s.conn.sendStreamWindows.lookup f.header.streamId with
    | some window =>
      obtain ⟨slot, hs, _⟩ := href.slot_of_window hl
      simp only [wp_bind]
      refine wp_ofExcept (fun window' hwi' => ?_) (fun _ _ => hr)
      exact ⟨_, ht ▸ hre.step (.streamCredit hf hsid hs),
        href.setWindow hs hl (Window.update_eq_ok hwi')⟩
    | none =>
      have hs := href.slot_of_no_window hl
      rw [wp_failIf]
      exact ⟨fun _ => hr, fun _ =>
        ⟨m, ht ▸ hre.step (.staleCredit hf hsid hs), href⟩⟩

lemma processWindowUpdate_tracks {n : ℕ} (hf : f.payload = .windowUpdate n)
    (hr : Reaches b trace m) (href : Refines s.conn m)
    (ht : s.trace = trace ++ [.received f]) :
    wp (processWindowUpdate f.header.streamId n) s
      (fun _ t => Tracks b t) (fun _ t => Torn b t) := by
  unfold processWindowUpdate
  split_ifs with hs
  · simp only [wp_bind]
    refine wp_ofExcept (fun window hw => ?_)
      (fun _ _ => hr.torn_of_rejected ht)
    refine ⟨_, ht ▸ hr.step (.connCredit hf hs), ?_⟩
    have hsc := href.scalars
    refine ⟨⟨hsc.1, ?_, hsc.3, hsc.4, hsc.5, hsc.sound.1, hsc.sound.2, hsc.sound.3⟩,
      fun i => ⟨(href.placed i).1, (href.placed i).2, (href.placed i).3, (href.placed i).4⟩⟩
    exact (Window.update_eq_ok hw).trans (by rw [hsc.connWindow])
  · exact processStreamUpdate_tracks hf hs hr href ht

/-- RST_STREAM takes a stream out of wherever it was. -/
lemma Refines.reset (h : Refines c m) (sid : ℕ) :
    Refines
      (({ c with
        activeStreams := c.activeStreams.erase sid
        sendStreamWindows := c.sendStreamWindows.erase sid
        pendingResponses := c.pendingResponses.filter (·.streamId ≠ sid)
        pendingHeaderResponses := c.pendingHeaderResponses.filter (·.streamId ≠ sid) } :
          Http2Connection).markClosedStream sid)
      (m.put sid none) := by
  have hsc := h.scalars
  have hso : (m.put sid none).Sound := by
    refine ⟨hsc.sound.1, hsc.sound.2, fun i slot hs => ?_⟩
    by_cases hi : i = sid
    · subst hi
      simp at hs
    · rw [Mux.put_slots_of_ne _ hi] at hs
      exact hsc.sound.below i slot hs
  refine ⟨?_, fun i => ?_⟩
  · apply markClosedStream_scalars
    exact ⟨hsc.1, hsc.2, hsc.3, hsc.4, (length_keys_erase_le _ _).trans hsc.capacity, hso⟩
  · refine Located.of_sameAt ?_ (markClosedStream_sameAt _ sid i)
    by_cases hi : i = sid
    · subst hi
      refine ⟨by simp, by simp [Http2Connection.activeId], ?_, ?_⟩
      · simp [Http2Connection.awaitingCount, count_eq_zero]
      · simp [Http2Connection.bodiesOf, placeBodies]
    · rw [Mux.put_slots_of_ne _ hi]
      refine (h.placed i).of_sameAt ⟨AList.lookup_erase_ne hi, ?_, ?_, ?_⟩
      · simp [Http2Connection.activeId, AList.lookup_erase_ne hi]
      · simp only [Http2Connection.awaitingCount]
        rw [count_eq_countP, countP_map, countP_filter, count_eq_countP,
          countP_map]
        refine countP_congr fun p _ => ?_
        by_cases hp : p.streamId = i <;> simp [hp, hi]
      · simp only [Http2Connection.bodiesOf, filter_filter]
        refine congrArg _ (filter_congr fun p _ => ?_)
        by_cases hp : p.streamId = i <;> simp [hp, hi]

end Control

end Veysrs
