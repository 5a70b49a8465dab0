import Veysrs.Http2.Simulation

/-!
# Bodies are delivered whole

From the moment a body is queued, what the connection writes on its stream is the beginning of the
body's source.  `Live` is the state of a body under way: the bytes sent so far and those its reader
still holds are the source, and the counter kept for it is what has been declared less what has
been sent.  `Delivery` is what may be said of the stream at any time, also when it is over: the
stream ends with END_STREAM only if all of it has been sent, and a source that breaks off is
answered with RST_STREAM.
-/

namespace Veysrs

open Core List

namespace Event

/-- The bytes of a DATA frame written on stream `sid`. -/
def dataOn (sid : ℕ) : Event → Bytes
  | .wrote ⟨h, .data data _⟩ => if h.streamId = sid then data else []
  | _ => []

/-- The event is DATA with END_STREAM on stream `sid`. -/
def EndsBody (sid : ℕ) : Event → Prop
  | .wrote f =>
    f.header.streamId = sid ∧ f.header.frameType = .data ∧ f.endStream = true
  | _ => False

/-- The event neither sends nor reads anything of the body of stream `sid`. -/
structure Elsewhere (sid : ℕ) (e : Event) : Prop where
  data : e.dataOn sid = []
  ends : ¬ e.EndsBody sid
  read : ∀ outcome, e ≠ .bodyRead sid outcome

end Event

/-- The bytes a log has sent on stream `sid`. -/
def sentOn (sid : ℕ) (log : List Event) : Bytes := log.flatMap (Event.dataOn sid)

namespace PendingBody

/-- All of the body has been sent: what it declared, or everything up to end of file. -/
def Complete (body : PendingBody) (sent : Bytes) : Prop :=
  match body.declared with
  | some n => sent.length = n ∧ sent = body.source.take n
  | none => sent = body.source

/-- After `sent` bytes, a read that means that the rest will not come: an error (a file does not
wait, so there blocking is one) or end of file before the declared length. -/
def Fatal (body : PendingBody) (sent : ℕ) : ReadOutcome → Prop
  | .failed => True
  | .wouldBlock | .timedOut => body.isFile = true
  | .got buf => buf = [] ∧ ∃ n, body.declared = some n ∧ sent < n

end PendingBody

/-- What a log says of a body queued for stream `sid` before it; `ended` if the log stops with a
call that failed. -/
structure Delivery (body : PendingBody) (sid : ℕ) (ended : Prop) (log : List Event) : Prop where
  sound : sentOn sid log <+: body.source
  complete : ∀ before e after, log = before ++ e :: after → e.EndsBody sid →
    body.Complete (sentOn sid (before ++ [e]))
  broken : ∀ before outcome after, log = before ++ .bodyRead sid outcome :: after →
    body.Fatal (sentOn sid before).length outcome →
    ((after = [] ∧ ended) ∨ ∃ e rest, after = .wrote (rstFrame sid e) :: rest) ∧
      ∀ e ∈ log, ¬ e.EndsBody sid

/-- The body under way, with what its reader still holds. -/
structure Live (body : PendingBody) (sid : ℕ) (log : List Event) (current : PendingBody) :
    Prop where
  source : body.source = sentOn sid log ++ current.source
  within : ∀ n, body.declared = some n → (sentOn sid log).length ≤ n
  declared : current.declared = body.declared.map (· - (sentOn sid log).length)
  kind : current.isFile = body.isFile
  unended : ∀ e ∈ log, ¬ e.EndsBody sid
  unbroken : ∀ before outcome after, log = before ++ .bodyRead sid outcome :: after →
    ¬ body.Fatal (sentOn sid before).length outcome

/-! ## Events of other streams -/

variable {i : ℕ} {data : Bytes}

section Events

variable {sid : ℕ} {log ev : List Event}

@[simp] lemma sentOn_append (sid : ℕ) (log ev : List Event) :
    sentOn sid (log ++ ev) = sentOn sid log ++ sentOn sid ev := by
  simp [sentOn]

lemma sentOn_of_elsewhere (h : ∀ e ∈ ev, e.Elsewhere sid) : sentOn sid ev = [] := by
  simp only [sentOn, flatMap_eq_nil_iff]
  intro e he
  exact (h e he).data

@[simp] lemma sentOn_readEvents (sid i : ℕ) (chunk : PendingBody.Chunk) :
    sentOn sid (readEvents i chunk) = [] := by
  cases h : chunk.outcome <;> simp [sentOn, readEvents, h, Event.dataOn]

@[simp] lemma sentOn_dataFrame (sid : ℕ) (data : Bytes) (done : Bool) :
    sentOn sid [.wrote (dataFrame sid data done)] = data := by
  simp [sentOn, dataFrame, Event.dataOn]

@[simp] lemma sentOn_rstFrame (sid i : ℕ) (e : Http2ErrorCode) :
    sentOn sid [.wrote (rstFrame i e)] = [] := by
  simp [sentOn, rstFrame, Event.dataOn]

lemma elsewhere_received (sid : ℕ) (f : Frame) : (Event.received f).Elsewhere sid :=
  ⟨rfl, id, by simp⟩

/-- Frames of other streams, and frames that are not DATA. -/
lemma elsewhere_wrote {f : Frame} (h : f.header.streamId ≠ sid ∨
    (f.header.frameType ≠ .data ∧ ∀ data es, f.payload ≠ .data data es)) :
    (Event.wrote f).Elsewhere sid := by
  obtain ⟨header, payload⟩ := f
  refine ⟨?_, ?_, by simp⟩
  · rcases h with h | ⟨_, h⟩
    · cases payload <;> simp_all [Event.dataOn]
    · cases payload <;> simp_all [Event.dataOn]
  · rintro ⟨hs, ht, _⟩
    rcases h with h | ⟨h, _⟩
    · exact h hs
    · exact h ht

lemma elsewhere_readEvents (hi : i ≠ sid) (chunk : PendingBody.Chunk) :
    ∀ e ∈ readEvents i chunk, e.Elsewhere sid := by
  intro e he
  simp only [readEvents, mem_map] at he
  obtain ⟨outcome, _, rfl⟩ := he
  exact ⟨rfl, id, by simp [hi]⟩

lemma elsewhere_control {f : Frame} (h : f.IsControl) : (Event.wrote f).Elsewhere sid := by
  refine elsewhere_wrote (.inr ⟨?_, h.not_data⟩)
  rcases h.type with ⟨h | h, _⟩ | h <;> simp [h]

end Events

/-! ## A body under way -/

section Bodies

variable {body current next : PendingBody} {sid : ℕ} {log ev : List Event} {ended : Prop}

/-- A body under way has broken no promise. -/
lemma Live.delivery (h : Live body sid log current) : Delivery body sid ended log where
  sound := ⟨current.source, h.source.symm⟩
  complete := by
    intro before e after hl hen
    exact absurd hen (h.unended e (by simp [hl]))
  broken := by
    intro before outcome after hl hf
    exact absurd hf (h.unbroken before outcome after hl)

lemma Live.elsewhere (h : Live body sid log current) (hev : ∀ e ∈ ev, e.Elsewhere sid) :
    Live body sid (log ++ ev) current := by
  have hs : sentOn sid (log ++ ev) = sentOn sid log := by
    simp [sentOn_of_elsewhere hev]
  refine ⟨hs ▸ h.source, hs ▸ h.within, hs ▸ h.declared, h.kind, ?_, ?_⟩
  · intro e he
    rcases mem_append.mp he with he | he
    · exact h.unended e he
    · exact (hev e he).ends
  · intro before outcome after hsp
    rcases append_split hsp with ⟨mid, hl, _⟩ | ⟨mid, _, hm⟩
    · exact h.unbroken before outcome mid hl
    · exact absurd rfl ((hev _ (by simp [hm])).read outcome)

lemma Delivery.elsewhere (h : Delivery body sid False log) (hev : ∀ e ∈ ev, e.Elsewhere sid) :
    Delivery body sid False (log ++ ev) where
  sound := by
    simpa [sentOn_of_elsewhere hev] using h.sound
  complete := by
    intro before e after hs hen
    rcases append_split hs with ⟨mid, hl, _⟩ | ⟨mid, _, hm⟩
    · exact h.complete before e mid hl hen
    · exact absurd hen (hev e (by simp [hm])).ends
  broken := by
    intro before outcome after hs hfa
    rcases append_split hs with ⟨mid, hl, rfl⟩ | ⟨mid, _, hm⟩
    · obtain ⟨hr, hen⟩ := h.broken before outcome mid hl hfa
      refine ⟨?_, ?_⟩
      · rcases hr with ⟨_, hf⟩ | ⟨e, rest, rfl⟩
        · exact hf.elim
        · exact .inr ⟨e, rest ++ ev, rfl⟩
      · intro e he
        rcases mem_append.mp he with he | he
        · exact hen e he
        · exact (hev e he).ends
    · exact absurd rfl ((hev _ (by simp [hm])).read outcome)

lemma Delivery.weaken (h : Delivery body sid False log) : Delivery body sid ended log where
  sound := h.sound
  complete := h.complete
  broken := by
    intro before outcome after hs hfa
    obtain ⟨⟨_, hf⟩ | hr, hen⟩ := h.broken before outcome after hs hfa
    · exact hf.elim
    · exact ⟨.inr hr, hen⟩

/-- The reads of a chunk are at most one, and it is of this stream. -/
lemma readEvents_split {chunk : PendingBody.Chunk} {before after : List Event} {e : Event}
    (h : readEvents sid chunk = before ++ e :: after) :
    before = [] ∧ after = [] ∧ ∃ outcome, chunk.outcome = some outcome ∧
      e = .bodyRead sid outcome := by
  cases ho : chunk.outcome with
  | none => simp [readEvents, ho] at h
  | some outcome =>
    rw [readEvents, ho, Option.toList_some, map_singleton] at h
    cases before with
    | nil =>
      rw [nil_append, List.cons.injEq] at h
      exact ⟨rfl, h.2.symm, outcome, rfl, h.1.symm⟩
    | cons b before => simp at h

lemma readEvents_unended (chunk : PendingBody.Chunk) :
    ∀ e ∈ readEvents sid chunk, ¬ e.EndsBody sid := by
  intro e he
  simp only [readEvents, mem_map] at he
  obtain ⟨outcome, _, rfl⟩ := he
  exact id

/-- A read that is not fatal. -/
lemma Live.read (h : Live body sid log current) {chunk : PendingBody.Chunk}
    (hr : ∀ outcome, chunk.outcome = some outcome →
      ¬ body.Fatal (sentOn sid log).length outcome) :
    Live body sid (log ++ readEvents sid chunk) current := by
  have hs : sentOn sid (log ++ readEvents sid chunk) = sentOn sid log := by simp
  refine ⟨hs ▸ h.source, hs ▸ h.within, hs ▸ h.declared, h.kind, ?_, ?_⟩
  · intro e he
    rcases mem_append.mp he with he | he
    · exact h.unended e he
    · exact readEvents_unended chunk e he
  · intro before outcome after hsp
    rcases append_split hsp with ⟨mid, hl, _⟩ | ⟨mid, rfl, hm⟩
    · exact h.unbroken before outcome mid hl
    · obtain ⟨rfl, _, outcome', ho, heq⟩ := readEvents_split hm
      cases heq
      simpa using hr outcome ho

/-- The bytes of a chunk go out and the body goes on. -/
lemma Live.advance (h : Live body sid log current) {max : ℕ}
    (hd : current.Delivers max data false next) (hk : next.isFile = current.isFile) :
    Live body sid (log ++ [.wrote (dataFrame sid data false)]) next := by
  have hs : sentOn sid (log ++ [.wrote (dataFrame sid data false)]) =
      sentOn sid log ++ data := by simp
  refine ⟨?_, ?_, ?_, hk.trans h.kind, ?_, ?_⟩
  · rw [hs, append_assoc, ← hd.source]
    exact h.source
  · intro n hn
    have hlen := hd.within (n - (sentOn sid log).length) (by rw [h.declared, hn]; rfl)
    have hb := h.within n hn
    rw [hs, length_append]
    omega
  · rw [hs, hd.declared, h.declared, Option.map_map]
    congr 1
    funext n
    simp only [Function.comp_apply, length_append]
    omega
  · intro e he
    rcases mem_append.mp he with he | he
    · exact h.unended e he
    · rw [mem_singleton.mp he]
      rintro ⟨_, _, hend⟩
      simp [dataFrame, Frame.endStream, Flags.has] at hend
  · intro before outcome after hsp
    rcases append_split hsp with ⟨mid, hl, _⟩ | ⟨mid, _, hm⟩
    · exact h.unbroken before outcome mid hl
    · cases mid <;> simp at hm

/-- Nothing has been read: the body goes on as it was. -/
lemma Live.replace (h : Live body sid log current) (hs : next.source = current.source)
    (hd : next.declared = current.declared) (hk : next.isFile = current.isFile) :
    Live body sid log next :=
  ⟨hs ▸ h.source, h.within, hd.trans h.declared, hk.trans h.kind, h.unended,
    h.unbroken⟩

/-- What has been sent is all there is once the counter says so, or at the end of file. -/
lemma Live.complete (h : Live body sid log current) {rest : Bytes}
    (hs : current.source = data ++ rest)
    (hend : current.declared = some data.length ∨ current.declared = none ∧ rest = []) :
    body.Complete (sentOn sid log ++ data) := by
  have ha : body.source = sentOn sid log ++ data ++ rest := by
    rw [h.source, hs, append_assoc]
  have hd := h.declared
  unfold PendingBody.Complete
  cases hb : body.declared with
  | none =>
    rw [hb] at hd
    rcases hend with hend | ⟨_, rfl⟩
    · rw [hd] at hend
      cases hend
    · simpa using ha.symm
  | some n =>
    rw [hb, Option.map_some] at hd
    have hle := h.within n hb
    rcases hend with hend | ⟨hend, _⟩
    · rw [hd, Option.some.injEq] at hend
      have hl : (sentOn sid log ++ data).length = n := by
        rw [length_append]
        omega
      refine ⟨hl, ?_⟩
      rw [ha, ← hl, take_left]
    · rw [hd] at hend
      cases hend

/-- The last chunk. -/
lemma Live.finish (h : Live body sid log current)
    (hc : body.Complete (sentOn sid log ++ data)) (hso : data <+: current.source) :
    Delivery body sid ended (log ++ [.wrote (dataFrame sid data true)]) where
  sound := by
    obtain ⟨rest, hr⟩ := hso
    exact ⟨rest, by simp [h.source, ← hr]⟩
  complete := by
    intro before e after hs hen
    rcases append_split hs with ⟨mid, hl, _⟩ | ⟨mid, rfl, hm⟩
    · exact absurd hen (h.unended e (by simp [hl]))
    · cases mid with
      | nil =>
        rw [nil_append, List.cons.injEq] at hm
        rw [append_nil, ← hm.1, sentOn_append, sentOn_dataFrame]
        exact hc
      | cons x mid => simp at hm
  broken := by
    intro before outcome after hs hf
    rcases append_split hs with ⟨mid, hl, _⟩ | ⟨mid, _, hm⟩
    · exact absurd hf (h.unbroken before outcome mid hl)
    · cases mid <;> simp at hm

/-- The source breaks off: the read, whatever it was, is answered with RST_STREAM. -/
lemma Live.fail (h : Live body sid log current) (chunk : PendingBody.Chunk)
    (e : Http2ErrorCode) :
    Delivery body sid ended
      (log ++ (readEvents sid chunk ++ [.wrote (rstFrame sid e)])) := by
  have hu : ∀ e' ∈ log ++ (readEvents sid chunk ++ [.wrote (rstFrame sid e)]),
      ¬ e'.EndsBody sid := by
    intro e' he
    rcases mem_append.mp he with he | he
    · exact h.unended e' he
    · rcases mem_append.mp he with he | he
      · exact readEvents_unended chunk e' he
      · rw [mem_singleton.mp he]
        rintro ⟨_, ht, _⟩
        cases ht
  refine ⟨⟨current.source, by simp [h.source]⟩, ?_, ?_⟩
  · intro before e' after hs hen
    exact absurd hen (hu e' (by simp [hs]))
  · intro before outcome after hs hf
    rcases append_split hs with ⟨mid, hl, _⟩ | ⟨mid, _, hm⟩
    · exact absurd hf (h.unbroken before outcome mid hl)
    · refine ⟨.inr ?_, hu⟩
      rcases append_split hm with ⟨mid', hr, rfl⟩ | ⟨mid', _, hm'⟩
      · obtain ⟨_, rfl, _⟩ := readEvents_split hr
        exact ⟨e, [], rfl⟩
      · cases mid' <;> simp at hm'

/-- The call fails after a read. -/
lemma Live.torn (h : Live body sid log current) (chunk : PendingBody.Chunk) :
    Delivery body sid True (log ++ readEvents sid chunk) := by
  have hu : ∀ e ∈ log ++ readEvents sid chunk, ¬ e.EndsBody sid := by
    intro e he
    rcases mem_append.mp he with he | he
    · exact h.unended e he
    · exact readEvents_unended chunk e he
  refine ⟨⟨current.source, by simp [h.source]⟩, ?_, ?_⟩
  · intro before e after hs hen
    exact absurd hen (hu e (by simp [hs]))
  · intro before outcome after hs hf
    rcases append_split hs with ⟨mid, hl, _⟩ | ⟨mid, _, hm⟩
    · exact absurd hf (h.unbroken before outcome mid hl)
    · obtain ⟨_, rfl, _⟩ := readEvents_split hm
      exact ⟨.inl ⟨rfl, trivial⟩, hu⟩

end Bodies

/-! ## Following a body through a run -/

/-- The stream of the body, by its phase.  It cannot be opened again, so it never waits. -/
def Progress (body : PendingBody) (sid : ℕ) (log : List Event) : Option Phase → Prop
  | none => Delivery body sid False log
  | some (.sending current) => Live body sid log current
  | some _ => False

structure Followed (body : PendingBody) (sid : ℕ) (log : List Event) (m : Mux) : Prop where
  opened : sid ≤ m.lastStreamId
  progress : Progress body sid log ((m.slots sid).map Slot.phase)

section Runs

variable {body : PendingBody} {sid : ℕ} {log ev : List Event} {m m' : Mux}

/-- A step that is not about the stream. -/
lemma Followed.elsewhere (h : Followed body sid log m) (hev : ∀ e ∈ ev, e.Elsewhere sid)
    (hl : m.lastStreamId ≤ m'.lastStreamId)
    (hph : (m'.slots sid).map Slot.phase = (m.slots sid).map Slot.phase) :
    Followed body sid (log ++ ev) m' := by
  refine ⟨h.opened.trans hl, ?_⟩
  have hp := h.progress
  rw [hph]
  cases hs : (m.slots sid).map Slot.phase with
  | none =>
    rw [hs] at hp
    exact Delivery.elsewhere hp hev
  | some p =>
    rw [hs] at hp
    cases p with
    | sending current => exact Live.elsewhere hp hev
    | receiving => exact hp
    | awaiting => exact hp

variable {current : PendingBody}

lemma Followed.live (h : Followed body sid log m) {w : ℤ}
    (hs : m.slots sid = some ⟨w, .sending current⟩) : Live body sid log current := by
  have hp := h.progress
  rw [hs] at hp
  exact hp

/-- The stream does not wait for its response. -/
lemma Followed.ne_waiting (h : Followed body sid log m) {slot : Slot}
    (hs : m.slots i = some slot) (hph : slot.phase.Waiting) : sid ≠ i := by
  rintro rfl
  have hp := h.progress
  obtain ⟨w, phase⟩ := slot
  rw [hs] at hp
  cases phase with
  | sending current => exact hph
  | receiving => exact hp
  | awaiting => exact hp

/-- The stream has been reset by the client, or its response is over. -/
lemma Followed.delivery (h : Followed body sid log m) : Delivery body sid False log := by
  have hp := h.progress
  cases hs : (m.slots sid).map Slot.phase with
  | none =>
    rw [hs] at hp
    exact hp
  | some p =>
    rw [hs] at hp
    cases p with
    | sending current => exact Live.delivery hp
    | receiving => exact hp.elim
    | awaiting => exact hp.elim

/-- A step that writes on another stream and moves it. -/
lemma Followed.other {slot : Option Slot} (h : Followed body sid log m) (hi : sid ≠ i)
    (hev : ∀ e ∈ ev, e.Elsewhere sid) (hl : m.lastStreamId ≤ m'.lastStreamId)
    (hs : m'.slots = (m.put i slot).slots) : Followed body sid (log ++ ev) m' :=
  h.elsewhere hev hl (by rw [hs, Mux.put_slots_of_ne _ hi])

lemma elsewhere_fragments (frames : List Frame) (h : ∀ f ∈ frames, f.IsFragment i) (hi : sid ≠ i) :
    ∀ e ∈ frames.map Event.wrote, e.Elsewhere sid := by
  intro e he
  obtain ⟨f, hf, rfl⟩ := mem_map.mp he
  exact elsewhere_wrote (.inl (by rw [(h f hf).streamId]; exact hi.symm))

/-- Reads of another stream, and a frame written on it. -/
lemma elsewhere_reads (hi : sid ≠ i) (chunk : PendingBody.Chunk) {f : Frame}
    (hf : f.header.streamId = i) : ∀ e ∈ readEvents i chunk ++ [.wrote f], e.Elsewhere sid := by
  intro e he
  rcases mem_append.mp he with he | he
  · exact elsewhere_readEvents hi.symm chunk e he
  · rw [mem_singleton.mp he]
    exact elsewhere_wrote (.inl (by rw [hf]; exact hi.symm))

/-- A read that brought data is not fatal. -/
lemma not_fatal_of_data {choice : ReadChoice} {amount sent : ℕ} {done : Bool}
    (h : (current.readChunk choice amount).result = .ok (.data data done)) :
    ∀ outcome, (current.readChunk choice amount).outcome = some outcome →
      ¬ body.Fatal sent outcome := by
  intro outcome ho
  rcases PendingBody.readChunk_outcome h with hn | ⟨hs, hne⟩
  · rw [hn] at ho
    cases ho
  · rw [hs, Option.some.injEq] at ho
    subst ho
    exact fun hf => hne hf.1

/-- Nor is one that found the body at its end. -/
lemma Live.not_fatal_of_done {choice : ReadChoice} {amount : ℕ} (h : Live body sid log current)
    (hp : 0 < amount) (hdo : (current.readChunk choice amount).result = .ok .done) :
    ∀ outcome, (current.readChunk choice amount).outcome = some outcome →
      ¬ body.Fatal (sentOn sid log).length outcome := by
  intro outcome ho
  obtain ⟨hend, hno | hg⟩ := PendingBody.readChunk_done hp hdo
  · rw [hno] at ho
    cases ho
  · rw [hg, Option.some.injEq] at ho
    subst ho
    rintro ⟨_, n, hn, hlt⟩
    have hd := h.declared
    rw [hn, Option.map_some] at hd
    rcases hend with hend | ⟨hend, _⟩
    · rw [hd, Option.some.injEq] at hend
      omega
    · rw [hd] at hend
      cases hend

/-- **Every step keeps the body followed.** -/
lemma Followed.step (h : Followed body sid log m) (hst : m.Step ev m') :
    Followed body sid (log ++ ev) m' := by
  have hre : ∀ f : Frame, ∀ e ∈ [Event.received f], e.Elsewhere sid := by
    intro f e he
    rw [mem_singleton.mp he]
    exact elsewhere_received sid f
  cases hst with
  | control hf =>
    refine h.elsewhere ?_ le_rfl rfl
    intro e he
    rw [mem_singleton.mp he]
    exact elsewhere_control hf
  | quiet hf => exact h.elsewhere (hre _) le_rfl rfl
  | @settings f settings hf =>
    obtain ⟨hp, hla⟩ := m.applySettings_phase settings
    exact h.elsewhere (hre _) hla.ge (hp sid)
  | connCredit hf hsid => exact h.elsewhere (hre _) le_rfl rfl
  | @streamCredit f n slot hf hsid hs =>
    refine h.elsewhere (hre _) le_rfl ?_
    by_cases hi : sid = f.header.streamId
    · subst hi
      simp [hs]
    · simp [hi]
  | staleCredit hf hsid hs => exact h.elsewhere (hre _) le_rfl rfl
  | @clientReset f e hf =>
    by_cases hi : sid = f.header.streamId
    · subst hi
      refine ⟨h.opened, ?_⟩
      rw [Mux.put_slots_same]
      exact h.delivery.elsewhere (hre f)
    · exact h.other hi (hre f) le_rfl rfl
  | @refuse f block es eh hf hla =>
    have hi : f.header.streamId ≠ sid := by
      have := h.opened
      omega
    refine h.elsewhere ?_ hla.le rfl
    intro e he
    rcases mem_pair.mp he with rfl | rfl
    · exact elsewhere_received sid f
    · exact elsewhere_wrote (.inl hi)
  | @accept f block es eh hf hla =>
    have hi : sid ≠ f.header.streamId := by
      have := h.opened
      omega
    exact h.other hi (hre f) hla.le rfl
  | park hs hp => exact h.other (h.ne_waiting hs hp) (by simp) le_rfl rfl
  | @finish i slot block hs hp hm =>
    have hi := h.ne_waiting hs hp
    exact h.other hi (elsewhere_fragments _ (fun f hf => mem_headerFrames hf) hi) le_rfl rfl
  | @respond i slot block body hs hp hm =>
    have hi := h.ne_waiting hs hp
    exact h.other hi (elsewhere_fragments _ (fun f hf => mem_headerFrames hf) hi) le_rfl rfl
  | @upstreamFailed i w hs =>
    have hi := h.ne_waiting hs trivial
    refine h.other hi ?_ le_rfl rfl
    intro e he
    rw [mem_singleton.mp he]
    exact elsewhere_wrote (.inl hi.symm)
  | @stalled i w current choice amount hs ha hr =>
    by_cases hi : sid = i
    · subst hi
      have hl := h.live hs
      refine ⟨h.opened, ?_⟩
      rw [Mux.put_slots_same]
      rcases hr with hr | hr
      · obtain ⟨hsa, hfi, hout⟩ := PendingBody.readChunk_pending hr
        rw [hsa]
        refine Live.read hl ?_
        intro outcome ho
        have hn : ¬ body.isFile = true := by simp [← hl.kind, hfi]
        rcases hout with hout | hout
        all_goals
          rw [hout, Option.some.injEq] at ho
          subst ho
          exact hn
      · have hd := PendingBody.readChunk_delivers hr
        refine (hl.read (not_fatal_of_data hr)).replace ?_ ?_ (by simp)
        · simpa using hd.source.symm
        · simpa using hd.declared
    · exact h.other hi (elsewhere_readEvents (Ne.symm hi) _) le_rfl rfl
  | @send i w current choice amount data done hs ha hr hda =>
    by_cases hi : sid = i
    · subst hi
      have hl := (h.live hs).read (not_fatal_of_data hr)
      have hd := PendingBody.readChunk_delivers hr
      refine ⟨h.opened, ?_⟩
      rw [Mux.put_slots_same, ← append_assoc]
      cases done with
      | true =>
        exact hl.finish (hl.complete hd.source (.inl (hd.done_iff.mp rfl)))
          ⟨_, hd.source.symm⟩
      | false => exact hl.advance hd (by simp)
    · exact h.other hi (elsewhere_reads hi _ rfl) le_rfl rfl
  | @finishBody i w current choice amount hs ha hr =>
    by_cases hi : sid = i
    · subst hi
      have hl := h.live hs
      refine ⟨h.opened, ?_⟩
      rw [Mux.put_slots_same, ← append_assoc]
      rcases hr with hr | hr
      · obtain ⟨hend, _⟩ := PendingBody.readChunk_done ha.pos hr
        have hl' := hl.read (hl.not_fatal_of_done ha.pos hr)
        exact hl'.finish (hl'.complete rfl hend) nil_prefix
      · have hd := PendingBody.readChunk_delivers hr
        have hl' := hl.read (not_fatal_of_data hr)
        exact hl'.finish (hl'.complete hd.source (.inl (hd.done_iff.mp rfl)))
          nil_prefix
    · exact h.other hi (elsewhere_reads hi _ rfl) le_rfl rfl
  | @failBody i w current choice amount e hs ha hr =>
    by_cases hi : sid = i
    · subst hi
      refine ⟨h.opened, ?_⟩
      rw [Mux.put_slots_same]
      exact (h.live hs).fail _ e
    · exact h.other hi (elsewhere_reads hi _ rfl) le_rfl rfl

/-- What a call that fails has done to the stream. -/
lemma Followed.torn {tail : List Event} (h : Followed body sid log m)
    (ht : m.Abandoned tail) : Delivery body sid True (log ++ tail) := by
  cases ht with
  | nothing => exact (h.delivery.elsewhere (by simp)).weaken
  | rejected f =>
    refine (h.delivery.elsewhere ?_).weaken
    intro e he
    rw [mem_singleton.mp he]
    exact elsewhere_received sid f
  | response hs hp hm hfr =>
    refine (h.delivery.elsewhere ?_).weaken
    exact elsewhere_fragments _ (fun f hf => mem_headerFrames (hfr.subset hf))
      (h.ne_waiting hs hp)
  | @read i w current choice amount hs ha =>
    by_cases hi : sid = i
    · subst hi
      exact (h.live hs).torn _
    · exact (h.delivery.elsewhere (elsewhere_readEvents (Ne.symm hi) _)).weaken

/-- A body just queued has been sent nothing of. -/
lemma Live.start (body : PendingBody) (sid : ℕ) : Live body sid [] body where
  source := rfl
  within := fun n _ => Nat.zero_le n
  declared := by simp [sentOn]
  kind := rfl
  unended := by simp
  unbroken := by simp

end Runs

/-- **Bodies are delivered whole.**  Take any state a run of calls reaches, a body queued in it, and
any calls made from there: what has been written on the stream since is the beginning of the
body's source; END_STREAM was written only when all of it had been sent; and if a read broke the
source off, RST_STREAM followed at once, unless the calls ended there with an error, and there was
no END_STREAM. -/
theorem bodies_delivered {config : ServerConfig} {secure : Bool} {calls : List (Env × Call)}
    {s : ConnState} {pending : PendingResponse}
    (hrun : (runCalls calls).run (ConnState.start config secure) = .ok () s)
    (hqueued : pending ∈ s.conn.pendingResponses) (later : List (Env × Call)) :
    ∃ since, (stateOf ((runCalls later).run s)).trace = s.trace ++ since ∧
      Delivery pending.body pending.streamId (isOk ((runCalls later).run s) = false) since := by
  obtain ⟨m, _, href⟩ := wp_ok (runCalls_tracks calls (start_tracks config secure)) hrun
  obtain ⟨w, hslot⟩ := href.slot_of_queued hqueued
  have hstart : Followed pending.body pending.streamId [] m :=
    ⟨href.scalars.sound.below _ _ hslot, by rw [hslot]; exact .start _ _⟩
  have htracks : Tracks ⟨m, s.trace⟩ s := ⟨m, ⟨[], (append_nil _).symm, .refl⟩, href⟩
  have hfollowed : ∀ {since : List Event} {m' : Mux}, Runs Mux.Step m since m' →
      Followed pending.body pending.streamId since m' := fun hruns =>
    hruns.invariant hstart fun _ _ _ _ h hstep => h.step hstep
  have hlater := runCalls_tracks later htracks
  cases hend : (runCalls later).run s with
  | ok a t =>
    obtain ⟨m', ⟨since, htrace, hruns⟩, _⟩ := wp_ok hlater hend
    exact ⟨since, htrace, (hfollowed hruns).delivery.weaken⟩
  | error e t =>
    obtain ⟨m', trace, tail, ⟨since, htrace, hruns⟩, htail, ht⟩ := wp_error hlater hend
    refine ⟨since ++ tail, ?_, ?_⟩
    · simp [stateOf, ht, htrace]
    · simpa [isOk] using (hfollowed hruns).torn htail

/-- Three bytes are queued and then sent. -/
theorem bodies_delivered_sample :
    ∃ s, (runCalls (sampleCalls.take 1)).run (ConnState.start {} false) = .ok () s ∧
      ⟨1, .bytes [1, 2, 3] 0 (Nat.zero_le _)⟩ ∈ s.conn.pendingResponses ∧
      ∃ since, (stateOf ((runCalls [(sampleOutside, .schedule)]).run s)).trace =
          s.trace ++ since ∧
        Delivery (.bytes [1, 2, 3] 0 (Nat.zero_le _)) 1
          (isOk ((runCalls [(sampleOutside, .schedule)]).run s) = false) since := by
  have hrun := eq_ok_of_isOk
    (r := (runCalls (sampleCalls.take 1)).run (ConnState.start {} false)) (by decide)
  have hqueued : ⟨1, .bytes [1, 2, 3] 0 (Nat.zero_le _)⟩ ∈
      (stateOf ((runCalls (sampleCalls.take 1)).run
        (ConnState.start {} false))).conn.pendingResponses := by
    decide
  exact ⟨_, hrun, hqueued, bodies_delivered hrun hqueued _⟩

end Veysrs
