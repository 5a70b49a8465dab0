import Veysrs.Http2.Simulation

/-!
# Stream slots

The send windows are the record of the streams that hold a slot.  In every state a run of calls
reaches, their keys are exactly the streams that are receiving, waiting for an upstream or sending,
each once, and there are never more of them than the connection allows.
-/

namespace Veysrs

open Core

/-- The collections a stream stands in, counted, are its windows, counted. -/
lemma Placed.count_eq {c : Http2Connection} {sid : ℕ} {slot : Option Slot}
    (h : Placed c sid slot) :
    c.sendStreamWindows.keys.count sid =
      c.activeStreams.keys.count sid + (c.pendingHeaderResponses.map (·.streamId)).count sid +
        (c.pendingResponses.map (·.streamId)).count sid := by
  have hs : (c.pendingResponses.map (·.streamId)).count sid = (c.bodiesOf sid).length := by
    rw [Http2Connection.bodiesOf, List.length_map, List.count_eq_countP, List.countP_map,
      List.countP_eq_length_filter]
    refine congrArg _ (List.filter_congr fun p _ => ?_)
    simp [beq_eq_decide]
  have hw := congrArg Option.isSome h.window
  have hac := congrArg Option.isSome h.active
  have ha := h.awaiting
  rw [hs, h.sending, count_keys, count_keys]
  simp only [Http2Connection.activeId, Option.isSome_map] at hw hac
  simp only [Http2Connection.awaitingCount] at ha
  rw [hw, hac, ha]
  rcases slot with _ | ⟨w, _ | _ | body⟩ <;> simp [placeBodies]

/-- **Stream slots are neither leaked nor overcommitted.**  After any calls that returned, the
streams with a send window are those being received, those waiting for an upstream and those being
sent, no stream twice, and they are no more than the connection allows. -/
theorem slots_partitioned {config : ServerConfig} {secure : Bool} {calls : List (Env × Call)}
    {s : ConnState} (hrun : (runCalls calls).run (ConnState.start config secure) = .ok () s) :
    (s.conn.activeStreams.keys ++ s.conn.pendingHeaderResponses.map (·.streamId) ++
        s.conn.pendingResponses.map (·.streamId)).Nodup ∧
      s.conn.sendStreamWindows.keys.Perm
        (s.conn.activeStreams.keys ++ s.conn.pendingHeaderResponses.map (·.streamId) ++
          s.conn.pendingResponses.map (·.streamId)) ∧
      s.conn.sendStreamWindows.keys.length ≤ s.conn.maxConcurrentStreams := by
  obtain ⟨m, _, href⟩ := wp_ok (runCalls_tracks calls (start_tracks config secure)) hrun
  have hperm : s.conn.sendStreamWindows.keys.Perm
      (s.conn.activeStreams.keys ++ s.conn.pendingHeaderResponses.map (·.streamId) ++
        s.conn.pendingResponses.map (·.streamId)) := by
    rw [List.perm_iff_count]
    intro sid
    rw [List.count_append, List.count_append]
    exact (href.placed sid).count_eq
  exact ⟨hperm.nodup_iff.mp s.conn.sendStreamWindows.keys_nodup, hperm, href.scalars.capacity⟩

/-- One stream sending and one receiving, of the hundred allowed. -/
theorem slots_partitioned_sample :
    ∃ s, (runCalls (sampleCalls.take 2)).run (ConnState.start {} false) = .ok () s ∧
      s.conn.sendStreamWindows.keys.Perm
        (s.conn.activeStreams.keys ++ s.conn.pendingHeaderResponses.map (·.streamId) ++
          s.conn.pendingResponses.map (·.streamId)) := by
  have hrun := eq_ok_of_isOk
    (r := (runCalls (sampleCalls.take 2)).run (ConnState.start {} false)) (by decide +kernel)
  exact ⟨_, hrun, (slots_partitioned hrun).2.1⟩

end Veysrs
