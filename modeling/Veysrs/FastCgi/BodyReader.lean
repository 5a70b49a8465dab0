import Veysrs.FastCgi.H2Response

/-!
# Reading a FastCGI body without blocking

`FastCgiH2Reader::read` on any bytes of an upstream, well formed or not, whatever the reads of the
upstream do: deliver a part, block, or fail.  `Core.FastCgi.scan` says what is in the bytes.

What a reader has still to deliver (`toDeliver`) and whether it comes to an end (`Complete`) are
computed from its buffers and from the bytes still to come, wherever these are.  A read hands out
the next of what is to be delivered and keeps the rest, and a read that blocks keeps it all
(`read_step`).  So does every sequence of reads (`readEach_step`), and `body_reader` is what that
comes to for the reader that `poll` hands over.

The counters are natural numbers; the source's `saturating_add` is another addition from 2^64 bytes
on.
-/

namespace Veysrs

open Core List

namespace FastCgi

namespace FastCgiH2Reader

/-! ## One read -/

/-- The bytes that are still to be delivered: those that are ready and the output still to come. -/
def toDeliver (r : FastCgiH2Reader) : Bytes :=
  r.owed ++ if r.done then [] else (Core.FastCgi.scan r.rest).1

/-- The response comes to its end, and its length is the one it was to have. -/
def Complete (r : FastCgiH2Reader) : Prop :=
  r.done = true ∨ (Core.FastCgi.scan r.rest).2 = .ended ∧
    ∀ n ∈ r.contentLength, r.bodyBytes + (Core.FastCgi.scan r.rest).1.length = n

/-- What a read that returned `data` leaves. -/
structure HandsOver (r : FastCgiH2Reader) (data : Bytes) (t : FastCgiH2Reader) : Prop where
  tidy : t.Tidy
  delivers : r.toDeliver = data ++ t.toDeliver
  complete : t.Complete ↔ r.Complete
  done : r.done = true → t.done = true

lemma HandsOver.trans {r s t : FastCgiH2Reader} {data : Bytes} (h : r.HandsOver [] s)
    (h' : s.HandsOver data t) : r.HandsOver data t :=
  ⟨h'.tidy, by rw [h.delivers, nil_append, h'.delivers], h'.complete.trans h.complete,
    fun hd => h'.done (h.done hd)⟩

/-- A reader in which only the buffers have changed. -/
lemma HandsOver.of_buffers {r t : FastCgiH2Reader} {data : Bytes} (ht : t.Tidy)
    (hr : t.rest = r.rest) (ho : r.owed = data ++ t.owed)
    (hs : t = { r with
      upstream := t.upstream, wire := t.wire, ready := t.ready, offset := t.offset }) :
    r.HandsOver data t := by
  have hd : t.done = r.done := by rw [hs]
  have hl : t.contentLength = r.contentLength := by rw [hs]
  have hc : t.bodyBytes = r.bodyBytes := by rw [hs]
  refine ⟨ht, ?_, ?_, fun h => hd.trans h⟩
  · rw [toDeliver, toDeliver, hr, hd, ho, append_assoc]
  · rw [Complete, Complete, hr, hd, hl, hc]

/-- With nothing ready, a record that is consumed leaves the same to be delivered. -/
lemma consumeRecord_read {r t : FastCgiH2Reader} {kind : UInt8} {content : Bytes}
    (hr : r.ready = []) (ho : r.offset = 0) (hd : r.done = false)
    (h : r.TookOff (some (kind, content)) t) :
    wp (consumeRecord kind content) t
      (fun _ u => r.HandsOver [] u ∧ u.upstream.choices <:+ r.upstream.choices ∧
        u.rest.length < r.rest.length)
      (fun e _ => e.kind ≠ .wouldBlock ∧ e ≠ shortReadError) := by
  have ht : t.ready = [] := by rw [h.refilled]; exact hr
  have hto : t.offset = 0 := by rw [h.refilled]; exact ho
  have htd : t.done = false := by rw [h.refilled]; exact hd
  have hl : t.contentLength = r.contentLength := by rw [h.refilled]
  have hco : t.bodyBytes = r.bodyBytes := by rw [h.refilled]
  have hp : Core.FastCgi.parse r.rest = .record kind content t.rest := h.parsed
  have hs := Core.FastCgi.scan_record hp
  have hlen : t.rest.length < r.rest.length := by
    have := Core.FastCgi.parse_eq_record hp
    omega
  have hb : r.toDeliver = (Core.FastCgi.scan r.rest).1 := by
    rw [toDeliver, owed, hr, drop_nil, hd]
    rfl
  have hc : r.Complete ↔ (Core.FastCgi.scan r.rest).2 = .ended ∧
      ∀ n ∈ r.contentLength, r.bodyBytes + (Core.FastCgi.scan r.rest).1.length = n := by
    rw [Complete, hd]
    simp
  rw [wp, run_consumeRecord]
  by_cases hst : kind = Core.FastCgi.stdout
  · rw [if_pos hst]
    rw [if_pos hst] at hs
    split_ifs with hex
    · exact ⟨by decide, by decide⟩
    · refine ⟨⟨tidy_of_ready hto, ?_, ?_, fun hnot => ?_⟩, h.choices, hlen⟩
      · rw [hb, hs]
        simp [toDeliver, owed, ht, hto, htd, rest]
      · rw [hc, hs]
        simp [Complete, htd, hl, hco, rest, Nat.add_assoc]
      · rw [hd] at hnot
        cases hnot
  · rw [if_neg hst]
    rw [if_neg hst] at hs
    by_cases hend : kind = Core.FastCgi.endRequest
    · rw [if_pos hend]
      rw [if_pos hend] at hs
      split_ifs with hle hm
      · exact ⟨by decide, by decide⟩
      · exact ⟨by decide, by decide⟩
      · rw [not_not] at hle
        rw [hl, hco, Option.any_eq_true] at hm
        refine ⟨⟨.inr ⟨ht, hto⟩, ?_, ?_, fun _ => rfl⟩, h.choices, hlen⟩
        · rw [hb, hs]
          simp [toDeliver, owed, ht]
        · rw [hc, hs, if_pos hle]
          refine ⟨fun _ => ⟨rfl, fun n hn => ?_⟩, fun _ => .inl rfl⟩
          by_contra hne
          exact hm ⟨n, hn, decide_eq_true fun heq => hne heq.symm⟩
    · rw [if_neg hend]
      rw [if_neg hend] at hs
      refine ⟨⟨.inr ⟨ht, hto⟩, ?_, ?_, fun hnot => ?_⟩, h.choices, hlen⟩
      · rw [hb, hs]
        simp [toDeliver, owed, ht, htd]
      · rw [hc, hs]
        simp [Complete, htd, hl, hco]
      · rw [hd] at hnot
        cases hnot

/-- A read hands out the next bytes and keeps the others; nothing only at the end.  A read that
blocks keeps them all, and has used up one of the reads of the upstream. -/
lemma readFuel_step {out : ℕ} (hout : 0 < out) (fuel : ℕ) : ∀ r : FastCgiH2Reader, r.Tidy →
    r.rest.length + 1 < fuel →
    wp (readFuel fuel out) r
      (fun data t => r.HandsOver data t ∧ t.upstream.choices <:+ r.upstream.choices ∧
        (data = [] → t.done = true ∧ t.toDeliver = []))
      (fun e t => e ≠ shortReadError ∧ (e.kind = .wouldBlock →
        r.HandsOver [] t ∧ t.upstream.choices.length < r.upstream.choices.length)) := by
  induction fuel with
  | zero => exact fun _ _ h => absurd h (Nat.not_lt_zero _)
  | succ fuel ih =>
    intro r hti hf
    rw [readFuel]
    simp only [wp_bind, wp_ite]
    refine ⟨fun hr => ?_, fun hr => ⟨fun hd => ?_, fun hd => ?_⟩⟩
    · refine wp_takeReady hr hout fun k t hk _ hl ht ho hs => ?_
      have hc : t.upstream.choices = r.upstream.choices := by rw [hs]
      refine ⟨.of_buffers ht ?_ ?_ ?_, ?_, fun hnil => ?_⟩
      · rw [hs]
        rfl
      · rw [ho, take_append_drop]
      · rw [hs]
      · rw [hc]
      · rcases take_eq_nil_iff.mp hnil with hz | hn
        · omega
        · rw [hn, length_nil] at hl
          omega
    · -- the end: nothing is ready
      have ho : r.owed = [] := drop_eq_nil_of_le (Nat.not_lt.mp hr)
      have hn : r.toDeliver = [] := by rw [toDeliver, ho, hd]; rfl
      exact ⟨⟨hti, rfl, Iff.rfl, id⟩, suffix_rfl, fun _ => ⟨hd, hn⟩⟩
    · obtain ⟨hn, hof⟩ := hti.resolve_left hr
      rw [Bool.not_eq_true] at hd
      refine wp_mono (readRecord_front r) (fun item t ht => ?_) (fun e t ht => ?_)
      · rcases item with _ | ⟨kind, content⟩
        · exact ⟨by decide, fun hki => absurd hki (by decide)⟩
        · simp only [wp_bind]
          refine wp_mono (consumeRecord_read hn hof hd ht) (fun _ u hu => ?_)
            (fun e _ he => ⟨he.2, fun hki => absurd hki he.1⟩)
          obtain ⟨hre, hc, hl⟩ := hu
          refine wp_mono (ih u hre.tidy (by omega)) (fun data v hv => ?_) (fun e v hv => ?_)
          · exact ⟨hre.trans hv.1, hv.2.1.trans hc, hv.2.2⟩
          · exact ⟨hv.1, fun hki => ⟨hre.trans (hv.2 hki).1,
              (hv.2 hki).2.trans_le hc.length_le⟩⟩
      · obtain ⟨hke, hsh, -⟩ := ht
        refine ⟨hsh, fun hki => ⟨.of_buffers ?_ hke.rest ?_ ?_, hke.blocked hki⟩⟩
        · rw [hke.refilled]
          exact hti
        · rw [hke.refilled]
          rfl
        · rw [hke.refilled]

lemma read_step {out : ℕ} (ho : 0 < out) {r : FastCgiH2Reader} (ht : r.Tidy) :
    wp (read out) r
      (fun data t => r.HandsOver data t ∧ t.upstream.choices <:+ r.upstream.choices ∧
        (data = [] → t.done = true ∧ t.toDeliver = []))
      (fun e t => e ≠ shortReadError ∧ (e.kind = .wouldBlock →
        r.HandsOver [] t ∧ t.upstream.choices.length < r.upstream.choices.length)) := by
  simp only [read, wp_bind]
  refine readFuel_step ho _ r ht ?_
  rw [rest, length_append]
  exact Nat.lt_succ_self _

/-! ## Reading on -/

/-- One read after another, into buffers of the given sizes, up to the first error that does not say
to try again. -/
def readEach : List ℕ → FastCgiH2Reader → List (Except IoError Bytes) × FastCgiH2Reader
  | [], r => ([], r)
  | out :: outs, r =>
    match (read out).run r with
    | .ok data t => (.ok data :: (readEach outs t).1, (readEach outs t).2)
    | .error e t =>
      if e.kind = .wouldBlock then (.error e :: (readEach outs t).1, (readEach outs t).2)
      else ([.error e], t)

/-- The bytes that were handed out. -/
def delivered (results : List (Except IoError Bytes)) : Bytes :=
  results.flatMap fun result => match result with
    | .ok data => data
    | .error _ => []

/-- Every error says to try again. -/
def OnlyBlocked (results : List (Except IoError Bytes)) : Prop :=
  ∀ e, .error e ∈ results → e.kind = .wouldBlock

/-- What a sequence of reads has done. -/
structure ReadOn (r : FastCgiH2Reader) (results : List (Except IoError Bytes))
    (t : FastCgiH2Reader) : Prop where
  inOrder : delivered results <+: r.toDeliver
  kept : OnlyBlocked results → r.HandsOver (delivered results) t
  atEnd : .ok [] ∈ results → r.Complete ∧ t.done = true ∧ delivered results = r.toDeliver

lemma ReadOn.ok {r s t : FastCgiH2Reader} {data : Bytes} {results : List (Except IoError Bytes)}
    (hr : r.HandsOver data s) (hend : data = [] → s.done = true ∧ s.toDeliver = [])
    (h : s.ReadOn results t) (hk : s.done = true → t.done = true) :
    r.ReadOn (.ok data :: results) t := by
  have hde : delivered (.ok data :: results) = data ++ delivered results := rfl
  refine ⟨?_, fun hb => ?_, fun hm => ?_⟩
  · rw [hr.delivers]
    exact (prefix_append_right_inj data).mpr h.inOrder
  · have hre := h.kept fun e he => hb e (mem_cons_of_mem _ he)
    exact ⟨hre.tidy, by rw [hde, append_assoc, ← hre.delivers, hr.delivers],
      hre.complete.trans hr.complete, fun hd => hre.done (hr.done hd)⟩
  · rw [hde, hr.delivers, ← hr.complete]
    rcases mem_cons.mp hm with hnil | hm
    · obtain ⟨hd, hno⟩ := hend (Except.ok.inj hnil).symm
      have hn := h.inOrder
      rw [hno, prefix_nil] at hn
      exact ⟨.inl hd, hk hd, by rw [hn, hno]⟩
    · obtain ⟨hc, hd, ha⟩ := h.atEnd hm
      exact ⟨hc, hd, by rw [ha]⟩

lemma ReadOn.blocked {r s t : FastCgiH2Reader} {e : IoError}
    {results : List (Except IoError Bytes)} (hr : r.HandsOver [] s) (h : s.ReadOn results t) :
    r.ReadOn (.error e :: results) t := by
  have hd : delivered (.error e :: results) = delivered results := rfl
  refine ⟨?_, fun hb => ?_, fun hm => ?_⟩
  · rw [hr.delivers]
    exact h.inOrder
  · exact hr.trans (h.kept fun e he => hb e (mem_cons_of_mem _ he))
  · obtain ⟨hc, hdo, ha⟩ := h.atEnd ((mem_cons.mp hm).resolve_left nofun)
    exact ⟨hr.complete.mp hc, hdo, by rw [hd, ha, hr.delivers]; rfl⟩

/-- A reader at the end stays there. -/
lemma read_done {out : ℕ} {r : FastCgiH2Reader} (hd : r.done = true) :
    wp (read out) r (fun _ t => t.done = true) (fun _ _ => False) := by
  simp only [read, readFuel, wp_bind, wp_get, wp_ite, wp_pure, hd, not_true, false_implies,
    and_true, implies_true, takeReady, wp_set]

lemma readEach_done (outs : List ℕ) : ∀ r : FastCgiH2Reader, r.done = true →
    (r.readEach outs).2.done = true := by
  induction outs with
  | nil => exact fun _ h => h
  | cons out outs ih =>
    intro r hd
    rw [readEach]
    cases hr : (read out).run r with
    | ok data t =>
      have hk := wp_ok (read_done hd) hr
      exact ih t hk
    | error e t => exact (wp_error (read_done hd) hr).elim

lemma readEach_step (outs : List ℕ) : ∀ r : FastCgiH2Reader, r.Tidy →
    (∀ out ∈ outs, 0 < out) → r.ReadOn (r.readEach outs).1 (r.readEach outs).2 := by
  induction outs with
  | nil =>
    intro r ht _
    exact ⟨ nil_prefix, fun _ => ⟨ht, rfl, Iff.rfl, id⟩, nofun⟩
  | cons out outs ih =>
    intro r ht hout
    have hl : ∀ out ∈ outs, 0 < out := fun o ho => hout o (mem_cons_of_mem _ ho)
    have hs := read_step (hout out mem_cons_self) ht
    rw [readEach]
    cases hrun : (read out).run r with
    | ok data t =>
      obtain ⟨hr, -, hend⟩ := wp_ok hs hrun
      exact .ok hr hend (ih t hr.tidy hl) (readEach_done outs t)
    | error e t =>
      obtain ⟨hsh, hb⟩ := wp_error hs hrun
      by_cases hk : e.kind = .wouldBlock
      · simp only [if_pos hk]
        exact .blocked (hb hk).1 (ih t (hb hk).1.tidy hl)
      · simp only [if_neg hk]
        refine ⟨ nil_prefix, fun ha => ?_, fun hm => ?_⟩
        · exact absurd (ha e (mem_singleton_self _)) hk
        · exact absurd (mem_singleton.mp hm) nofun

/-- With more reads than there are reads of the upstream that may block and bytes to deliver, the
end is reached or an error that ends it all. -/
lemma readEach_stops (outs : List ℕ) : ∀ r : FastCgiH2Reader, r.Tidy →
    (∀ out ∈ outs, 0 < out) →
    r.upstream.choices.length + r.toDeliver.length < outs.length →
      .ok [] ∈ (r.readEach outs).1 ∨
        ∃ e, .error e ∈ (r.readEach outs).1 ∧ e.kind ≠ .wouldBlock ∧ e ≠ shortReadError := by
  induction outs with
  | nil => exact fun _ _ _ h => absurd h (Nat.not_lt_zero _)
  | cons out outs ih =>
    intro r ht hout hm
    have hl : ∀ out ∈ outs, 0 < out := fun o ho => hout o (mem_cons_of_mem _ ho)
    have hs := read_step (hout out mem_cons_self) ht
    rw [length_cons] at hm
    rw [readEach]
    cases hrun : (read out).run r with
    | ok data t =>
      obtain ⟨hr, hc, -⟩ := wp_ok hs hrun
      have hfe := hc.length_le
      rw [hr.delivers, length_append] at hm
      cases data with
      | nil => exact .inl mem_cons_self
      | cons b data =>
        rw [length_cons] at hm
        refine (ih t hr.tidy hl (by omega)).imp (mem_cons_of_mem _) ?_
        rintro ⟨e, he, hf⟩
        exact ⟨e, mem_cons_of_mem _ he, hf⟩
    | error e t =>
      obtain ⟨hsh, hb⟩ := wp_error hs hrun
      by_cases hk : e.kind = .wouldBlock
      · simp only [if_pos hk]
        obtain ⟨hr, hfe⟩ := hb hk
        rw [hr.delivers, nil_append] at hm
        refine (ih t hr.tidy hl (by omega)).imp (mem_cons_of_mem _) ?_
        rintro ⟨e, he, hf⟩
        exact ⟨e, mem_cons_of_mem _ he, hf⟩
      · simp only [if_neg hk]
        exact .inr ⟨e, mem_singleton_self _, hk, hsh⟩

/-- The reader that a response starts with, some of its body being there already. -/
def startingWith (upstream : Source) (wire ready : Bytes) (contentLength : Option ℕ) :
    FastCgiH2Reader where
  upstream := upstream
  wire := wire
  ready := ready
  contentLength := contentLength
  bodyBytes := ready.length

/-- Whatever the upstream sends and however its reads go, the bytes handed out are the first of the
body; reads that block lose nothing; the end is reported after the END_REQUEST, with the whole body
handed out and of the length it was to have.  A response that does not get there ends in an error
(`shortReadError`, for too little fuel, is none of the errors). -/
theorem body_reader (upstream : Source) (wire ready : Bytes) (contentLength : Option ℕ)
    (outs : List ℕ) (hout : ∀ out ∈ outs, 0 < out) :
    let stream := Core.FastCgi.scan (wire ++ upstream.bytes)
    let body := ready ++ stream.1
    let whole := stream.2 = .ended ∧ ∀ n ∈ contentLength, body.length = n
    let run := (startingWith upstream wire ready contentLength).readEach outs
    delivered run.1 <+: body ∧
      (OnlyBlocked run.1 →
        delivered run.1 ++ run.2.toDeliver = body ∧ (run.2.Complete ↔ whole)) ∧
      (.ok [] ∈ run.1 → whole ∧ run.2.done = true ∧ delivered run.1 = body) ∧
      (¬whole → upstream.choices.length + body.length < outs.length →
        ∃ e, .error e ∈ run.1 ∧ e.kind ≠ .wouldBlock ∧ e ≠ shortReadError) := by
  intro stream body whole run
  set r := startingWith upstream wire ready contentLength
  have htidy : r.Tidy := tidy_of_ready rfl
  have hbody : r.toDeliver = body := rfl
  have hwhole : r.Complete ↔ whole := by
    simp only [Complete, whole, body, stream, length_append]
    simp [r, startingWith, rest]
  have hstep := readEach_step outs r htidy hout
  refine ⟨hbody ▸ hstep.inOrder, fun hblocked => ?_, fun hend => ?_, fun hnot hmany => ?_⟩
  · have hkept := hstep.kept hblocked
    exact ⟨hkept.delivers.symm.trans hbody, hkept.complete.trans hwhole⟩
  · obtain ⟨hcomplete, hdone, hall⟩ := hstep.atEnd hend
    exact ⟨hwhole.mp hcomplete, hdone, hall.trans hbody⟩
  · refine (readEach_stops outs r htidy hout ?_).resolve_left fun hend => ?_
    · rwa [hbody]
    · exact hnot (hwhole.mp (hstep.atEnd hend).1)

/-- An output record of two bytes and an END_REQUEST; the second read of the upstream blocks. -/
def twoBytes : Source where
  bytes := [1, 6, 0, 1, 0, 2, 0, 0, 104, 105, 1, 3, 0, 1, 0, 8, 0, 0, 0, 0, 0, 0, 0, 0, 0, 0]
  choices := [.upTo 3, .wouldBlock, .upTo 12]
  closed := true

theorem body_reader_two_bytes :
    (∀ out ∈ [5, 5, 5, 5], 0 < out) ∧
      delivered ((startingWith twoBytes [] [33] (some 3)).readEach [5, 5, 5, 5]).1 =
        [33, 104, 105] := by
  have hend : .ok [] ∈ ((startingWith twoBytes [] [33] (some 3)).readEach [5, 5, 5, 5]).1 := by
    decide +kernel
  obtain ⟨-, -, hall, -⟩ := body_reader twoBytes [] [33] (some 3) [5, 5, 5, 5] (by decide)
  exact ⟨by decide, (hall hend).2.2⟩

end FastCgiH2Reader

end FastCgi

end Veysrs
