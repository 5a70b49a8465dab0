import Veysrs.Http2.Receiver
import Veysrs.Http2.Simulation

/-!
# Closed streams

`closed_streams` is to name streams that the client opened and that are over.  Six places write to
it.  Five of them name a stream the connection works on, and such a stream was opened: the
identifiers in all its collections are odd and at most `last_stream_id` (`Confined`).  The sixth is
RST_STREAM, which names what the peer likes.

**One call.**  Everything but RST_STREAM keeps a connection confined, and RST_STREAM does if its
stream was opened (`call_confined`).

**Whole runs.**  A reset stream is remembered at once (`mem_closedStreams_of_reset`), so the record
is right in every state of a run exactly if every RST_STREAM of the run names an opened stream
(`closed_means_closed_iff`).
-/

namespace Veysrs

open Core List

/-- An identifier of the client's that is at most the last one it used. -/
def OpenedBy (last sid : ℕ) : Prop := Stream.isClientInitiated sid = true ∧ sid ≤ last

instance (last sid : ℕ) : Decidable (OpenedBy last sid) :=
  inferInstanceAs (Decidable (_ ∧ _))

lemma OpenedBy.mono {n n' sid : ℕ} (h : OpenedBy n sid) (hle : n ≤ n') : OpenedBy n' sid :=
  ⟨h.1, h.2.trans hle⟩

/-- The closed streams were opened, and have no send window. -/
def ClosedSound (c : Http2Connection) : Prop :=
  ∀ sid ∈ c.closedStreams, OpenedBy c.lastStreamId sid ∧ sid ∉ c.sendStreamWindows

/-- Every stream the connection works on or has worked on was opened. -/
structure Confined (n : ℕ) (c : Http2Connection) : Prop where
  last : c.lastStreamId = n
  windows : ∀ sid ∈ c.sendStreamWindows, OpenedBy n sid
  awaiting : ∀ p ∈ c.pendingHeaderResponses, OpenedBy n p.streamId
  sending : ∀ p ∈ c.pendingResponses, OpenedBy n p.streamId
  closed : ∀ sid ∈ c.closedStreams, OpenedBy n sid ∧ sid ∉ c.sendStreamWindows

lemma Confined.closedSound {n : ℕ} {c : Http2Connection} (h : Confined n c) : ClosedSound c := by
  intro sid hs
  rw [h.last]
  exact h.closed sid hs

lemma confined_new (config : ServerConfig) (secure : Bool) :
    Confined 0 (Http2Connection.new config secure) where
  last := rfl
  windows sid h := absurd h (AList.notMem_empty sid)
  awaiting _ h := absurd h not_mem_nil
  sending _ h := absurd h not_mem_nil
  closed _ h := absurd h not_mem_nil

/-! ## The connection's operations -/

variable {m : Mux}

section Operations

variable {c : Http2Connection} {n sid : ℕ}

lemma mem_closedStreams_markClosedStream {i : ℕ}
    (h : i ∈ (c.markClosedStream sid).closedStreams) : i = sid ∨ i ∈ c.closedStreams := by
  unfold Http2Connection.markClosedStream at h
  split_ifs at h
  · exact .inr h
  · have hm := mem_of_mem_drop h
    rw [mem_append, mem_singleton] at hm
    exact hm.symm

/-- The stream closed last is remembered: the record holds at least sixteen. -/
lemma mem_markClosedStream : sid ∈ (c.markClosedStream sid).closedStreams := by
  unfold Http2Connection.markClosedStream
  split_ifs with h
  · exact h
  · have hl : 16 ≤ c.closedLimit := le_max_right _ _
    have hd : (c.closedStreams ++ [sid]).length - c.closedLimit ≤ c.closedStreams.length := by
      rw [length_append, length_singleton]
      omega
    simp only [drop_append_of_le_length hd, mem_append, mem_singleton, or_true]

lemma lastStreamId_markClosedStream : (c.markClosedStream sid).lastStreamId = c.lastStreamId := by
  unfold Http2Connection.markClosedStream
  split_ifs
  · rfl
  · rfl

lemma Confined.markClosedStream (h : Confined n c) (hs : OpenedBy n sid)
    (hg : sid ∉ c.sendStreamWindows) : Confined n (c.markClosedStream sid) := by
  have hc : ∀ i ∈ (c.markClosedStream sid).closedStreams,
      OpenedBy n i ∧ i ∉ c.sendStreamWindows := by
    intro i hi
    rcases mem_closedStreams_markClosedStream hi with rfl | hi
    · exact ⟨hs, hg⟩
    · exact h.closed i hi
  unfold Http2Connection.markClosedStream at hc ⊢
  split_ifs at hc ⊢
  · exact h
  · exact ⟨h.last, h.windows, h.awaiting, h.sending, hc⟩

/-- Without its window a stream may be closed. -/
lemma Confined.eraseWindow (h : Confined n c) (sid : ℕ) :
    Confined n { c with sendStreamWindows := c.sendStreamWindows.erase sid } where
  last := h.last
  windows i hi := h.windows i (AList.mem_erase.mp hi).2
  awaiting := h.awaiting
  sending := h.sending
  closed i hi := ⟨(h.closed i hi).1, fun hm => (h.closed i hi).2 (AList.mem_erase.mp hm).2⟩

lemma Confined.release (h : Confined n c) (hs : OpenedBy n sid) : Confined n (c.release sid) :=
  (h.eraseWindow sid).markClosedStream hs fun hm => (AList.mem_erase.mp hm).1 rfl

lemma Confined.enqueue (h : Confined n c) (hs : OpenedBy n sid) (body : PendingBody) :
    Confined n (c.enqueue sid body) where
  last := h.last
  windows := h.windows
  awaiting := h.awaiting
  sending p hp := by
    rcases mem_append.mp hp with hp | hp
    · exact h.sending p hp
    · rw [mem_singleton.mp hp]
      exact hs
  closed := h.closed

lemma Confined.await (h : Confined n c) {pending : PendingHeaderResponse}
    (hs : OpenedBy n pending.streamId) : Confined n (c.await pending) where
  last := h.last
  windows := h.windows
  awaiting p hp := by
    rcases mem_append.mp hp with hp | hp
    · exact h.awaiting p hp
    · rw [mem_singleton.mp hp]
      exact hs
  sending := h.sending
  closed := h.closed

/-- The window of a stream that is not closed is set. -/
lemma Confined.setWindow (h : Confined n c) (hs : OpenedBy n sid)
    (ho : sid ∉ c.closedStreams) (window : Window) :
    Confined n { c with sendStreamWindows := c.sendStreamWindows.insert sid window } where
  last := h.last
  windows i hi := by
    rcases (AList.mem_insert _).mp hi with rfl | hi
    · exact hs
    · exact h.windows i hi
  awaiting := h.awaiting
  sending := h.sending
  closed i hi := by
    refine ⟨(h.closed i hi).1, fun hm => ?_⟩
    rcases (AList.mem_insert _).mp hm with rfl | hm
    · exact ho hi
    · exact (h.closed i hi).2 hm

/-- A stream with a window is not closed. -/
lemma Confined.updateWindow (h : Confined n c) (hm : sid ∈ c.sendStreamWindows)
    (window : Window) :
    Confined n { c with sendStreamWindows := c.sendStreamWindows.insert sid window } :=
  h.setWindow (h.windows sid hm) (fun hc => (h.closed sid hc).2 hm) window

/-- A new identifier is that of no stream so far. -/
lemma Confined.raise {last : ℕ} (h : Confined n c) (hl : n < last) :
    Confined last { c with lastStreamId := last } where
  last := rfl
  windows i hi := (h.windows i hi).mono hl.le
  awaiting p hp := (h.awaiting p hp).mono hl.le
  sending p hp := (h.sending p hp).mono hl.le
  closed i hi := ⟨(h.closed i hi).1.mono hl.le, (h.closed i hi).2⟩

lemma Confined.reset (h : Confined n c) (hs : OpenedBy n sid) :
    Confined n (({ c with
      activeStreams := c.activeStreams.erase sid
      sendStreamWindows := c.sendStreamWindows.erase sid
      pendingResponses := c.pendingResponses.filter (·.streamId ≠ sid)
      pendingHeaderResponses := c.pendingHeaderResponses.filter (·.streamId ≠ sid) } :
        Http2Connection).markClosedStream sid) := by
  have her := h.eraseWindow sid
  refine Confined.markClosedStream ⟨her.last, her.windows, fun p hp => ?_, fun p hp => ?_,
    her.closed⟩ hs fun hm => (AList.mem_erase.mp hm).1 rfl
  · exact h.awaiting p (mem_of_mem_filter hp)
  · exact h.sending p (mem_of_mem_filter hp)

/-- An active stream has a window. -/
lemma Refines.mem_windows_of_active {st : Stream} (h : Refines c m)
    (hst : c.activeStreams.lookup sid = some st) : st.id = sid ∧ sid ∈ c.sendStreamWindows := by
  obtain ⟨hid, w, hs⟩ := h.slot_of_active hst
  have hw := (h.placed sid).window
  rw [hs] at hw
  obtain ⟨window, hl, -⟩ := Option.map_eq_some_iff.mp hw
  exact ⟨hid, AList.lookup_isSome.mp (by rw [hl]; rfl)⟩

end Operations

/-! ## Frames -/

section Frames

variable {s t : ConnState} {n sid : ℕ}

lemma Answered.confined (h : Answered sid s t) (hs : Confined n s.conn) (hsid : OpenedBy n sid) :
    Confined n t.conn := by
  cases h with
  | finished block hc ht => exact hc ▸ hs.release hsid
  | queued block body hc ht => exact hc ▸ hs.enqueue hsid body
  | parked pending hp hc ht =>
    subst hp
    exact hc ▸ hs.await hsid

lemma dispatch_confined (env : Env) {st : Stream} (hs : Confined n s.conn)
    (hid : OpenedBy n st.id) :
    wp (dispatchH2Request env st) s (fun _ t => Confined n t.conn) (fun _ _ => True) :=
  wp_mono (dispatchH2Request_effect env st s) (fun _ _ h => h.confined hs hid)
    (fun _ _ _ => trivial)

lemma finishHeaders_confined (env : Env) {st : Stream} (headers : Headers) (es : Bool)
    (hs : Confined n s.conn) (hid : OpenedBy n st.id) :
    wp (finishHeaders env sid st headers es) s (fun _ t => Confined n t.conn)
      (fun _ _ => True) := by
  have hk : ∀ active, Confined n { s.conn with activeStreams := active } := fun _ =>
    ⟨hs.last, hs.windows, hs.awaiting, hs.sending, hs.closed⟩
  simp only [finishHeaders, wp_ite, wp_bind, wp_modifyConn]
  refine ⟨fun _ => ?_, fun _ => hk _⟩
  refine wp_mono (dispatch_confined env (hk _) (by simpa using hid)) (fun _ t h => ?_)
    (fun _ _ _ => trivial)
  exact ⟨h.last, h.windows, h.awaiting, h.sending, h.closed⟩

lemma acceptHeaders_confined (env : Env) {block : Bytes} {es eh : Bool}
    (hs : Confined sid s.conn) (hsid : OpenedBy sid sid) (hn : sid ∉ s.conn.closedStreams) :
    wp (acceptHeaders env sid block es eh) s (fun _ t => Confined sid t.conn)
      (fun _ _ => True) := by
  rw [acceptHeaders, wp_bind]
  refine wp_mono (openStream_effect sid es s) (fun _ t h => ?_) (fun _ _ _ => trivial)
  obtain ⟨st, hid, rfl⟩ := h
  obtain ⟨hl, hw, ha, hse, hc⟩ :=
    hs.setWindow hsid hn (Window.new s.conn.peerInitialStreamWindowSize)
  simp only [wp_ite, wp_bind, wp_getConn]
  constructor
  · intro _
    refine wp_mono (decodeHeaderBlock_effect block _) (fun headers t h => ?_)
      (fun _ _ _ => trivial)
    obtain ⟨d, -, rfl⟩ := h
    simp only [AList.lookup_insert]
    exact finishHeaders_confined env headers es ⟨hl, hw, ha, hse, hc⟩
      (hid ▸ hsid)
  · intro _
    simp only [wp_failIf]
    exact ⟨fun _ => trivial, fun _ => ⟨hl, hw, ha, hse, hc⟩⟩

/-- HEADERS opens its stream, or refuses and closes it; either way it is a new one. -/
lemma processHeaders_confined (env : Env) {block : Bytes} {es eh : Bool}
    (hs : Confined n s.conn) :
    wp (processHeaders env sid block es eh) s (fun _ t => Confined sid t.conn)
      (fun _ _ => True) := by
  simp only [processHeaders, wp_bind, wp_failIf, wp_ite]
  refine ⟨fun _ => trivial, fun hid => ⟨fun _ => trivial, fun hl => ?_⟩⟩
  rw [not_or, Bool.not_eq_false] at hid
  rw [hs.last, Nat.not_le] at hl
  have hsid : OpenedBy sid sid := ⟨hid.2, le_rfl⟩
  have hr := hs.raise hl
  constructor
  · intro _
    exact acceptHeaders_confined env hr hsid
      fun h => Nat.not_lt.mpr (hs.closed sid h).1.2 hl
  · intro _
    apply wp_writeAll
    · intro faults
      exact hr.markClosedStream hsid fun h => Nat.not_lt.mpr (hs.windows sid h).2 hl
    · exact fun _ => trivial

lemma processContinuation_confined (env : Env) (block : Bytes) (eh : Bool) (hr : Refines s.conn m)
    (hs : Confined n s.conn) :
    wp (processContinuation env sid block eh) s (fun _ t => Confined n t.conn)
      (fun _ _ => True) := by
  simp only [processContinuation, wp_bind, wp_failIf, wp_getConn, wp_ite, wp_modifyConn]
  refine ⟨fun _ => trivial, fun _ => ⟨fun _ => ?_, fun _ =>
    ⟨hs.last, hs.windows, hs.awaiting, hs.sending, hs.closed⟩⟩⟩
  refine wp_mono (decodeHeaderBlock_effect _ _) (fun headers t h => ?_) (fun _ _ _ => trivial)
  obtain ⟨d, -, rfl⟩ := h
  have hd : Confined n { s.conn with
      pendingHeaderBlock := []
      pendingHeadersStreamId := none
      hpackDecoder := d } :=
    ⟨hs.last, hs.windows, hs.awaiting, hs.sending, hs.closed⟩
  cases hst : s.conn.activeStreams.lookup sid with
  | some st =>
    obtain ⟨hid, hm⟩ := hr.mem_windows_of_active hst
    exact finishHeaders_confined env headers _ hd (hid ▸ hs.windows sid hm)
  | none => exact hd

lemma processData_confined (env : Env) (data : Bytes) (es : Bool) (hr : Refines s.conn m)
    (hs : Confined n s.conn) :
    wp (processData env sid data es) s (fun _ t => Confined n t.conn) (fun _ _ => True) := by
  simp only [processData, wp_bind, wp_getConn]
  cases hst : s.conn.activeStreams.lookup sid with
  | none => trivial
  | some st =>
    obtain ⟨hid, hm⟩ := hr.mem_windows_of_active hst
    simp only [wp_bind, wp_modifyConn]
    refine wp_mono (creditData_effect sid st _ _) (fun st' t h => ?_) (fun _ _ _ => trivial)
    obtain ⟨⟨window, rfl⟩, ⟨flow, hc⟩, -⟩ := h
    have ht : Confined n t.conn := by
      rw [hc]
      exact ⟨hs.last, hs.windows, hs.awaiting, hs.sending, hs.closed⟩
    simp only [wp_failIf, wp_ite]
    refine ⟨fun _ => trivial, fun _ => ⟨fun _ => ?_, fun _ => ?_⟩⟩
    · exact dispatch_confined env ht (by simpa [hid] using hs.windows sid hm)
    · exact ⟨ht.last, ht.windows, ht.awaiting, ht.sending, ht.closed⟩

lemma applySetting_confined (setting : SettingId × ℕ) (hs : Confined n s.conn) :
    wp (applySetting setting) s (fun _ t => Confined n t.conn) (fun _ _ => True) := by
  simp only [applySetting]
  split
  · simp only [wp_bind, wp_failIf]
    exact ⟨fun _ => trivial, fun _ => ⟨hs.last, hs.windows, hs.awaiting, hs.sending, hs.closed⟩⟩
  · simp only [wp_bind, wp_failIf]
    refine ⟨fun _ => trivial, fun _ => ?_⟩
    refine wp_ofExcept (fun active _ => ?_) (fun _ _ => trivial)
    refine wp_ofExcept (fun windows hw => ?_) (fun _ _ => trivial)
    -- the windows change, the streams that have one do not
    have hk : ∀ i, i ∈ windows ↔ i ∈ s.conn.sendStreamWindows := by
      intro i
      rw [AList.mem_keys, AList.mem_keys, keys_mapValuesM hw]
    exact ⟨hs.last, fun i hi => hs.windows i ((hk i).mp hi), hs.awaiting, hs.sending,
      fun i hi => ⟨(hs.closed i hi).1, fun hm => (hs.closed i hi).2 ((hk i).mp hm)⟩⟩
  · exact hs

lemma applySettings_confined (settings : List (SettingId × ℕ)) :
    ∀ {s : ConnState}, Confined n s.conn →
      wp (applySettings settings) s (fun _ t => Confined n t.conn) (fun _ _ => True) := by
  induction settings with
  | nil => exact fun hs => hs
  | cons setting rest ih =>
    intro s hs
    rw [applySettings, wp_bind]
    exact wp_mono (applySetting_confined setting hs) (fun _ _ ht => ih ht) (fun _ _ h => h)

lemma processSettings_confined (settings : List (SettingId × ℕ)) (ack : Bool)
    (hs : Confined n s.conn) :
    wp (processSettings settings ack) s (fun _ t => Confined n t.conn) (fun _ _ => True) := by
  simp only [processSettings, wp_ite, wp_bind]
  refine ⟨fun _ => hs, fun _ => ?_⟩
  refine wp_mono (applySettings_confined settings hs) (fun _ t ht => ?_) (fun _ _ h => h)
  exact wp_writeIgnoringErrors (fun _ => ht) (fun _ => ht)

lemma processWindowUpdate_confined (increment : ℕ) (hr : Refines s.conn m)
    (hs : Confined n s.conn) :
    wp (processWindowUpdate sid increment) s (fun _ t => Confined n t.conn)
      (fun _ _ => True) := by
  simp only [processWindowUpdate, processStreamUpdate, wp_ite, wp_bind, wp_getConn]
  constructor
  · intro _
    refine wp_ofExcept (fun window _ => ?_) (fun _ _ => trivial)
    exact ⟨hs.last, hs.windows, hs.awaiting, hs.sending, hs.closed⟩
  · intro _
    cases hst : s.conn.activeStreams.lookup sid with
    | some st =>
      simp only [wp_bind]
      refine wp_ofExcept (fun sendWindow _ => ?_) (fun _ _ => trivial)
      refine wp_ofExcept (fun window _ => ?_) (fun _ _ => trivial)
      have ht := hs.updateWindow (hr.mem_windows_of_active hst).2 window
      exact ⟨ht.last, ht.windows, ht.awaiting, ht.sending, ht.closed⟩
    | none =>
      cases hl : s.conn.sendStreamWindows.lookup sid with
      | some window =>
        simp only [wp_bind]
        refine wp_ofExcept (fun window' _ => ?_) (fun _ _ => trivial)
        exact hs.updateWindow (AList.lookup_isSome.mp (by rw [hl]; rfl)) window'
      | none =>
        rw [wp_failIf]
        exact ⟨fun _ => trivial, fun _ => hs⟩

end Frames

/-! ## The two queues -/

section Queues

variable {s : ConnState} {n : ℕ}

lemma pollOne_confined (env : Env) (pending : PendingHeaderResponse) (hs : Confined n s.conn)
    (hid : OpenedBy n pending.streamId) :
    wp (pollOne env pending) s (fun _ t => Confined n t.conn) (fun _ _ => True) := by
  unfold pollOne
  split
  · exact hs.await hid
  · rw [wp_bind]
    exact wp_mono (queueH2StreamResponse_effect _ _ _ _ s) (fun _ t h => h.confined hs hid)
      (fun _ _ _ => trivial)
  · rw [wp_bind]
    exact wp_writeAll (fun _ => hs.release hid) (fun _ => trivial)

lemma pollRounds_confined (env : Env) (rounds : ℕ) :
    ∀ {s : ConnState} (progressed : Bool), Confined n s.conn →
      wp (pollRounds env rounds progressed) s (fun _ t => Confined n t.conn)
        (fun _ _ => True) := by
  induction rounds with
  | zero => exact fun _ hs => hs
  | succ rounds ih =>
    intro s progressed hs
    simp only [pollRounds, wp_bind, wp_getConn]
    cases hq : s.conn.pendingHeaderResponses with
    | nil => exact hs
    | cons pending rest =>
      simp only [wp_bind, wp_modifyConn]
      have ha := hs.awaiting
      rw [hq] at ha
      refine wp_mono (pollOne_confined env pending ?_ (ha _ mem_cons_self))
        (fun p t ht => ih _ ht) (fun _ _ h => h)
      exact ⟨hs.last, hs.windows, fun p hp => ha p (mem_cons_of_mem _ hp),
        hs.sending, hs.closed⟩

lemma pollPendingHeaders_confined (env : Env) (hs : Confined n s.conn) :
    wp (pollPendingHeaders env) s (fun _ t => Confined n t.conn) (fun _ _ => True) := by
  simp only [pollPendingHeaders, wp_bind, wp_getConn]
  refine wp_mono (pollRounds_confined env _ false hs) (fun progressed t ht => ?_) (fun _ _ h => h)
  simp only [wp_ite, wp_bind]
  exact ⟨fun _ => wp_flush (fun _ => ht) (fun _ => trivial), fun _ => ht⟩

lemma writeLast_confined {sid : ℕ} (frame : Frame) (hs : Confined n s.conn)
    (hid : OpenedBy n sid) :
    wp (writeLast sid frame) s (fun _ t => Confined n t.conn) (fun _ _ => True) := by
  rw [writeLast, wp_bind]
  exact wp_writeAll (fun _ => hs.release hid) (fun _ => trivial)

lemma sendChunk_confined {sid : ℕ} (body : PendingBody) (data : Bytes) (done : Bool)
    (hs : Confined n s.conn) (hid : OpenedBy n sid) :
    wp (sendChunk sid body data done) s (fun _ t => Confined n t.conn) (fun _ _ => True) := by
  simp only [sendChunk, wp_bind]
  refine wp_ofExcept (fun connWindow _ => ?_) (fun _ _ => trivial)
  cases hl : s.conn.sendStreamWindows.lookup sid with
  | none => trivial
  | some window =>
    simp only [wp_bind]
    refine wp_ofExcept (fun window' _ => ?_) (fun _ _ => trivial)
    have hm : sid ∈ s.conn.sendStreamWindows := AList.lookup_isSome.mp (by rw [hl]; rfl)
    have hu := hs.updateWindow hm window'
    have ht : Confined n { s.conn with
        peerConnectionWindow := connWindow
        sendStreamWindows := s.conn.sendStreamWindows.insert sid window' } :=
      ⟨hu.last, hu.windows, hu.awaiting, hu.sending, hu.closed⟩
    refine wp_writeAll (fun _ => ?_) (fun _ => trivial)
    cases done with
    | true => exact ht.release hid
    | false => exact ht.enqueue hid body

lemma scheduleOne_confined (env : Env) (quota : ℕ) (pending : PendingResponse)
    (hs : Confined n s.conn) (hid : OpenedBy n pending.streamId) :
    wp (scheduleOne env quota pending) s (fun _ t => Confined n t.conn) (fun _ _ => True) := by
  simp only [scheduleOne, wp_bind, wp_getConn]
  cases s.conn.sendStreamWindows.lookup pending.streamId with
  | none => exact hs
  | some window =>
    simp only [wp_ite, wp_bind]
    refine ⟨fun _ => hs.enqueue hid _, fun _ => ?_⟩
    unfold handleChunk
    split
    · exact writeLast_confined _ hs hid
    · exact hs.enqueue hid _
    · exact writeLast_confined _ hs hid
    · exact hs.enqueue hid _
    · exact writeLast_confined _ hs hid
    · exact sendChunk_confined _ _ _ hs hid

lemma scheduleRounds_confined (env : Env) (quota rounds : ℕ) :
    ∀ {s : ConnState} (sent : Bool), Confined n s.conn →
      wp (scheduleRounds env quota rounds sent) s (fun _ t => Confined n t.conn)
        (fun _ _ => True) := by
  induction rounds with
  | zero => exact fun _ hs => hs
  | succ rounds ih =>
    intro s sent hs
    simp only [scheduleRounds, wp_bind, wp_getConn]
    cases hq : s.conn.pendingResponses with
    | nil => exact hs
    | cons pending rest =>
      simp only [wp_bind, wp_modifyConn]
      have hse := hs.sending
      rw [hq] at hse
      refine wp_mono (scheduleOne_confined env quota pending ?_
        (hse _ mem_cons_self)) (fun p t ht => ih _ ht) (fun _ _ h => h)
      exact ⟨hs.last, hs.windows, hs.awaiting,
        fun p hp => hse p (mem_cons_of_mem _ hp), hs.closed⟩

lemma schedulePendingResponses_confined (env : Env) (hs : Confined n s.conn) :
    wp (schedulePendingResponses env) s (fun _ t => Confined n t.conn) (fun _ _ => True) := by
  simp only [schedulePendingResponses, wp_bind, wp_ite]
  refine ⟨fun _ => hs, fun _ => ?_⟩
  refine wp_mono (scheduleRounds_confined env _ _ false hs) (fun sent t ht => ?_) (fun _ _ h => h)
  exact ⟨fun _ => wp_flush (fun _ => ht) (fun _ => trivial), fun _ => ht⟩

end Queues

/-! ## Whole calls -/

/-- The call is RST_STREAM on stream `sid`. -/
def Resets (sid : ℕ) : Call → Prop
  | .frame f => f.1.header.streamId = sid ∧ ∃ e, f.1.payload = .rstStream e
  | _ => False

/-- **A call keeps the connection confined, a reset if its stream was opened.** -/
lemma call_confined (env : Env) (c : Call) {n : ℕ} {s : ConnState} (href : Refines s.conn m)
    (hs : Confined n s.conn) (hr : ∀ sid, Resets sid c → OpenedBy n sid) :
    wp (call env c) s (fun _ t => ∃ n', Confined n' t.conn) (fun _ _ => True) := by
  have hsa : ∀ {x : H2M Unit} {u : ConnState},
      wp x u (fun _ t => Confined n t.conn) (fun _ _ => True) →
      wp x u (fun _ t => ∃ n', Confined n' t.conn) (fun _ _ => True) := by
    intro x u h
    exact wp_mono h (fun _ _ ht => ⟨n, ht⟩) (fun _ _ h => h)
  cases c with
  | frame f =>
    simp only [call, wp_bind, wp_modify, wp_logEvent, processFrame]
    refine wp_mono (enforceContinuation_effect f.1 _) (fun _ t h => ?_) (fun _ _ _ => trivial)
    obtain ⟨rfl, -⟩ := h
    cases hf : f.1.payload with
    | headers block es eh =>
      exact wp_mono (processHeaders_confined env hs) (fun _ t ht => ⟨_, ht⟩) (fun _ _ h => h)
    | continuation block eh => exact hsa (processContinuation_confined env block eh href hs)
    | data data es => exact hsa (processData_confined env data es href hs)
    | settings settings ack => exact hsa (processSettings_confined settings ack hs)
    | windowUpdate increment => exact hsa (processWindowUpdate_confined increment href hs)
    | rstStream e => exact ⟨n, hs.reset (hr _ ⟨rfl, e, hf⟩)⟩
    | ping opaqueData ack =>
      simp only [processPayload, processPing, wp_ite]
      exact ⟨fun _ => ⟨n, hs⟩,
        fun _ => wp_writeIgnoringErrors (fun _ => ⟨n, hs⟩) (fun _ => ⟨n, hs⟩)⟩
    | goAway last e debug => trivial
    | priority exclusive dependency weight => exact ⟨n, hs⟩
    | pushPromise promised block => exact ⟨n, hs⟩
    | unknown bytes => exact ⟨n, hs⟩
  | pollHeaders =>
    simp only [call, wp_bind, wp_modify]
    exact wp_mono (pollPendingHeaders_confined env hs) (fun _ t ht => ⟨n, ht⟩) (fun _ _ h => h)
  | schedule =>
    simp only [call, wp_bind, wp_modify]
    exact wp_mono (schedulePendingResponses_confined env hs) (fun _ t ht => ⟨n, ht⟩)
      (fun _ _ h => h)

/-- A stream that is reset is remembered as closed. -/
lemma mem_closedStreams_of_reset {env : Env} {c : Call} {sid : ℕ} {s t : ConnState}
    (hr : Resets sid c) (h : (call env c).run s = .ok () t) :
    sid ∈ t.conn.closedStreams ∧ t.conn.lastStreamId = s.conn.lastStreamId := by
  cases c with
  | pollHeaders => exact hr.elim
  | schedule => exact hr.elim
  | frame f =>
    obtain ⟨rfl, e, hf⟩ := hr
    have hm : wp (call env (.frame f)) s
        (fun _ t => f.1.header.streamId ∈ t.conn.closedStreams ∧
          t.conn.lastStreamId = s.conn.lastStreamId) (fun _ _ => True) := by
      simp only [call, wp_bind, wp_modify, wp_logEvent, processFrame]
      refine wp_mono (enforceContinuation_effect f.1 _) (fun _ t h => ?_) (fun _ _ _ => trivial)
      obtain ⟨rfl, -⟩ := h
      rw [hf]
      exact ⟨mem_markClosedStream, lastStreamId_markClosedStream⟩
    have hd := wp_ok hm h
    exact hd

/-! ## Runs -/

section Runs

variable {config : ServerConfig} {secure : Bool} {calls : List (Env × Call)} {s : ConnState}

/-- Every RST_STREAM among the calls names a stream the client had opened by then. -/
def ResetsOpened (config : ServerConfig) (secure : Bool) (calls : List (Env × Call)) : Prop :=
  ∀ before env c after t sid, calls = before ++ (env, c) :: after →
    (runCalls before).run (ConnState.start config secure) = .ok () t → Resets sid c →
    OpenedBy t.conn.lastStreamId sid

lemma confined_of_run (hrun : (runCalls calls).run (ConnState.start config secure) = .ok () s)
    (hre : ResetsOpened config secure calls) : ∃ n, Confined n s.conn := by
  induction calls using List.reverseRecOn generalizing s with
  | nil =>
    cases hrun
    exact ⟨0, confined_new config secure⟩
  | append_singleton calls last ih =>
    obtain ⟨env, c⟩ := last
    obtain ⟨t, ht, hc⟩ := runCalls_append.mp hrun
    have hea : ResetsOpened config secure calls := by
      intro before env' c' after u sid hs hu hr
      refine hre before env' c' (after ++ [(env, c)]) u sid ?_ hu hr
      rw [hs, append_assoc]
      rfl
    obtain ⟨n, hn⟩ := ih ht hea
    obtain ⟨m, -, href⟩ := wp_ok (runCalls_tracks calls (start_tracks config secure)) ht
    refine wp_ok (call_confined env c href hn fun sid hr => ?_) (runCalls_single.mp hc)
    rw [← hn.last]
    exact hre calls env c [] t sid rfl ht hr

/-- **In every state of a run the closed streams were opened and have no send window, exactly if
every RST_STREAM of the run names an opened stream.** -/
theorem closed_means_closed_iff
    (hrun : (runCalls calls).run (ConnState.start config secure) = .ok () s) :
    (∀ before after t, calls = before ++ after →
        (runCalls before).run (ConnState.start config secure) = .ok () t → ClosedSound t.conn) ↔
      ResetsOpened config secure calls := by
  constructor
  · intro h before env c after t sid hsplit ht hreset
    obtain ⟨t', u, ht', hcall, hu⟩ := runCalls_split (hsplit ▸ hrun)
    obtain rfl : t' = t := by
      rw [ht] at ht'
      cases ht'
      rfl
    obtain ⟨hmem, hlast⟩ := mem_closedStreams_of_reset hreset hcall
    rw [← hlast]
    exact (h (before ++ [(env, c)]) after u (hsplit.trans (append_cons _ _ _)) hu sid hmem).1
  · intro hresets before after t hsplit ht
    have hbefore : ResetsOpened config secure before := by
      intro before' env c after' u sid hsplit' hu hreset
      refine hresets before' env c (after' ++ after) u sid ?_ hu hreset
      rw [hsplit, hsplit', append_assoc]
      rfl
    obtain ⟨n, hn⟩ := confined_of_run ht hbefore
    exact hn.closedSound

end Runs

/-- RST_STREAM on stream 1. -/
def sampleReset : ParsedFrame :=
  ⟨{ header := { length := 4, frameType := .rstStream, flags := 0, streamId := 1 }
     payload := .rstStream .cancel },
    [0, 0, 4, 3, 0, 0, 0, 0, 1], [0, 0, 0, 8], rfl, rfl⟩

/-- The client takes back its request. -/
def sampleWithdrawn : List (Env × Call) :=
  [(sampleOutside, .frame sampleGet), (sampleOutside, .frame sampleReset)]

/-- A stream that is open may be reset. -/
theorem closed_means_closed_withdrawn :
    isOk ((runCalls sampleWithdrawn).run (ConnState.start {} false)) = true ∧
      ∀ before after t, sampleWithdrawn = before ++ after →
        (runCalls before).run (ConnState.start {} false) = .ok () t → ClosedSound t.conn := by
  have hok : isOk ((runCalls sampleWithdrawn).run (ConnState.start {} false)) = true := by
    decide +kernel
  refine ⟨hok, (closed_means_closed_iff (eq_ok_of_isOk hok)).mpr ?_⟩
  intro before env c after t sid hsplit ht hreset
  rcases before with _ | ⟨first, _ | ⟨second, rest⟩⟩
  · simp only [sampleWithdrawn, nil_append, List.cons.injEq, Prod.mk.injEq] at hsplit
    obtain ⟨⟨-, rfl⟩, -⟩ := hsplit
    obtain ⟨-, e, hf⟩ := hreset
    cases hf
  · simp only [sampleWithdrawn, cons_append, nil_append, List.cons.injEq,
      Prod.mk.injEq] at hsplit
    obtain ⟨rfl, ⟨-, rfl⟩, -⟩ := hsplit
    obtain ⟨rfl, -⟩ := hreset
    have hlast : (stateAfter {} false [(sampleOutside, .frame sampleGet)]).conn.lastStreamId =
        1 := by
      decide +kernel
    rw [stateAfter_of_run ht] at hlast
    rw [hlast]
    decide
  · simp [sampleWithdrawn] at hsplit

/-- Stream 1 is reset before it is opened. -/
def sampleEarlyReset : List (Env × Call) :=
  [(sampleOutside, .frame sampleReset), (sampleOutside, .frame sampleGet)]

/-- The stream is closed while no stream has been opened, and then is closed and has a window. -/
theorem early_reset_closes_open_stream :
    isOk ((runCalls sampleEarlyReset).run (ConnState.start {} false)) = true ∧
      1 ∈ (stateAfter {} false (sampleEarlyReset.take 1)).conn.closedStreams ∧
      (stateAfter {} false (sampleEarlyReset.take 1)).conn.lastStreamId = 0 ∧
      1 ∈ (stateAfter {} false sampleEarlyReset).conn.closedStreams ∧
      1 ∈ (stateAfter {} false sampleEarlyReset).conn.sendStreamWindows := by
  simp only [← AList.lookup_isSome]
  decide +kernel

end Veysrs
