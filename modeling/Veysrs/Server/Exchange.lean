import Veysrs.Core.Io
import Veysrs.Http.Response
import Veysrs.Http2.Body

/-!
# One request between a client and an upstream

The state the dynamic HTTP/1.1 handlers (`server/proxy.rs`, `server/fastcgi.rs`) work on: what the
client and the upstream have still to send, what has been written to each, and the buffer of the
client's connection.  How a peer's bytes are cut into reads, and whether a read fails, is chosen
from outside (`Source.choices`); writes succeed, a write that fails ending a call where it stands.

`Source.read` is `Read::read` and `Source.readExact` is `Read::read_exact`; what they deliver is
`read_cases` and `readExact_cases`, and from a source that delivers (`Source.Delivers`) they get
what is there however it is cut (`read_delivers`, `readExact_delivers`).
-/

namespace Veysrs

open Core List

/-! ## Sources -/

/-- What a peer has still to send, what its next reads do, and whether it closes the connection
after the last byte or keeps it open, so that a further read times out. -/
structure Source where
  bytes : Bytes
  choices : List ReadChoice
  closed : Bool
  deriving DecidableEq, Repr

def timedOutError : IoError := ⟨.timedOut, "timed out"⟩

def blockedError : IoError := ⟨.wouldBlock, "would block"⟩

def brokenError : IoError := ⟨.other, "connection reset"⟩

def shortReadError : IoError := ⟨.unexpectedEof, "failed to fill whole buffer"⟩

variable {s : Source} {want : ℕ}

namespace Source

/-- `Read::read` into a buffer of `want` bytes; nothing at all is the end of the stream. -/
def read (want : ℕ) (s : Source) : Except IoError Bytes × Source :=
  match readSource (s.choices.headD (.upTo want)) want s.bytes with
  | (.got data, rest) =>
    if data = [] ∧ 0 < want ∧ s.closed = false then
      (.error timedOutError, { s with choices := s.choices.tail })
    else (.ok data, { s with bytes := rest, choices := s.choices.tail })
  | (.wouldBlock, _) => (.error blockedError, { s with choices := s.choices.tail })
  | (.timedOut, _) => (.error timedOutError, { s with choices := s.choices.tail })
  | (.failed, _) => (.error brokenError, { s with choices := s.choices.tail })

/-- `Read::read_exact`; a read that delivers delivers a byte at least, so `want` is fuel enough. -/
def readExactFuel : ℕ → ℕ → Source → Except IoError Bytes × Source
  | _, 0, s => (.ok [], s)
  | 0, _ + 1, s => (.error shortReadError, s)
  | fuel + 1, want + 1, s =>
    match s.read (want + 1) with
    | (.error e, s) => (.error e, s)
    | (.ok [], s) => (.error shortReadError, s)
    | (.ok data, s) =>
      match readExactFuel fuel (want + 1 - data.length) s with
      | (.ok rest, s) => (.ok (data ++ rest), s)
      | (.error e, s) => (.error e, s)

def readExact (want : ℕ) (s : Source) : Except IoError Bytes × Source := readExactFuel want want s

/-- Every read delivers. -/
def Delivers (s : Source) : Prop := ∀ choice ∈ s.choices, ∃ n, choice = .upTo n

/-- `t` is what is left of `s` after `k` bytes. -/
structure After (s : Source) (k : ℕ) (t : Source) : Prop where
  inside : k ≤ s.bytes.length
  bytes : t.bytes = s.bytes.drop k
  closed : t.closed = s.closed
  choices : t.choices <:+ s.choices

lemma After.refl (s : Source) : s.After 0 s := ⟨Nat.zero_le _, rfl, rfl, suffix_rfl⟩

lemma After.delivers {t : Source} {k : ℕ} (h : s.After k t) (hs : s.Delivers) : t.Delivers :=
  fun choice hc => hs choice (h.choices.subset hc)

lemma After.trans {t u : Source} {j k : ℕ} (h : s.After j t) (h' : t.After k u) :
    s.After (j + k) u := by
  have hl := h'.inside
  rw [h.bytes, length_drop] at hl
  have hj := h.inside
  refine ⟨by omega, ?_, h'.closed.trans h.closed, h'.choices.trans h.choices⟩
  rw [h'.bytes, h.bytes, drop_drop]

lemma read_upTo {n : ℕ} (h : s.choices.headD (.upTo want) = .upTo n) :
    s.read want =
      if s.bytes.take (min want (max n 1)) = [] ∧ 0 < want ∧ s.closed = false then
        (.error timedOutError, { s with choices := s.choices.tail })
      else (.ok (s.bytes.take (min want (max n 1))),
        { s with bytes := s.bytes.drop (min want (max n 1)), choices := s.choices.tail }) := by
  rw [read, h]
  rfl

lemma Delivers.headD (hs : s.Delivers) (want : ℕ) :
    ∃ n, s.choices.headD (.upTo want) = .upTo n := by
  cases hc : s.choices with
  | nil => exact ⟨want, rfl⟩
  | cons c cs => exact hs c (by rw [hc]; exact mem_cons_self)

/-- What a read returned and what is left: an error and everything, or some bytes and the rest. -/
lemma read_cases (want : ℕ) (s : Source) :
    (∃ e t, s.read want = (.error e, t) ∧ s.After 0 t) ∨
      ∃ k t, s.read want = (.ok (s.bytes.take k), t) ∧ s.After k t ∧ k ≤ want ∧
        (k = 0 → want = 0 ∨ (s.bytes = [] ∧ s.closed = true)) := by
  have hf : s.After 0 { s with choices := s.choices.tail } :=
    ⟨Nat.zero_le _, rfl, rfl, tail_suffix _⟩
  cases hc : s.choices.headD (.upTo want) with
  | upTo n =>
    rw [read_upTo hc]
    split_ifs with ho
    · exact .inl ⟨_, _, rfl, hf⟩
    · -- past the end, `take` and `drop` stop at the end
      rw [take_eq_take_min, drop_eq_drop_min]
      refine .inr ⟨min (min want (max n 1)) s.bytes.length, _, rfl,
        ⟨Nat.min_le_right _ _, rfl, rfl, tail_suffix _⟩, by omega, fun hz => ?_⟩
      rcases Nat.eq_zero_or_pos want with hw | hw
      · exact .inl hw
      · have hb : s.bytes = [] := by
          rw [← length_eq_zero_iff]
          omega
        rw [hb] at ho
        exact .inr ⟨hb, by simpa [hw] using ho⟩
  | wouldBlock => exact .inl ⟨_, _, by rw [read, hc]; rfl, hf⟩
  | timedOut => exact .inl ⟨_, _, by rw [read, hc]; rfl, hf⟩
  | fail => exact .inl ⟨_, _, by rw [read, hc]; rfl, hf⟩

/-- A read that blocks was one of those that were to come. -/
lemma read_failed {t : Source} {e : IoError} (h : s.read want = (.error e, t)) :
    e ≠ shortReadError ∧ (e.kind = .wouldBlock → t.choices.length < s.choices.length) := by
  cases hc : s.choices.headD (.upTo want) with
  | upTo n =>
    rw [read_upTo hc] at h
    split_ifs at h
    · cases h
      exact ⟨by decide, fun hk => absurd hk (by decide)⟩
    · cases h
  | wouldBlock =>
    rw [read, hc] at h
    cases h
    refine ⟨by decide, fun _ => ?_⟩
    cases hs : s.choices with
    | nil =>
      rw [hs] at hc
      cases hc
    | cons choice choices => simp
  | timedOut =>
    rw [read, hc] at h
    cases h
    exact ⟨by decide, fun hk => absurd hk (by decide)⟩
  | fail =>
    rw [read, hc] at h
    cases h
    exact ⟨by decide, fun hk => absurd hk (by decide)⟩

/-- A source that delivers has a byte for every read as long as it has one. -/
lemma read_delivers (hs : s.Delivers) (hw : 0 < want) (hb : s.bytes ≠ []) :
    ∃ k t, s.read want = (.ok (s.bytes.take k), t) ∧ s.After k t ∧ k ≤ want ∧ 0 < k := by
  rcases read_cases want s with ⟨e, t, hr, -⟩ | ⟨k, t, hr, ha, hle, hz⟩
  · exfalso
    obtain ⟨n, hn⟩ := hs.headD want
    rw [read_upTo hn, if_neg] at hr
    · cases hr
    · rintro ⟨hnil, -⟩
      rw [take_eq_nil_iff] at hnil
      rcases hnil with h | h
      · omega
      · exact hb h
  · refine ⟨k, t, hr, ha, hle, Nat.pos_of_ne_zero fun h => ?_⟩
    rcases hz h with h | h
    · omega
    · exact hb h.1

/-- At its end a source says so, or keeps the reader waiting. -/
lemma read_at_end (hs : s.Delivers) (hw : 0 < want) (hb : s.bytes = []) :
    ∃ t, s.read want = (if s.closed then .ok [] else .error timedOutError, t) ∧ s.After 0 t := by
  obtain ⟨n, hn⟩ := hs.headD want
  refine ⟨{ s with choices := s.choices.tail }, ?_, Nat.zero_le _, rfl, rfl, tail_suffix _⟩
  rw [read_upTo hn, hb]
  cases hc : s.closed with
  | true => simp
  | false => simp [hw]

/-- What `read_exact` returned and what is left. -/
lemma readExact_cases (want : ℕ) (s : Source) :
    (∃ e k t, s.readExact want = (.error e, t) ∧ s.After k t) ∨
      ∃ t, s.readExact want = (.ok (s.bytes.take want), t) ∧ s.After want t := by
  suffices h : ∀ fuel want (s : Source), want ≤ fuel →
      (∃ e k t, readExactFuel fuel want s = (.error e, t) ∧ s.After k t) ∨
        ∃ t, readExactFuel fuel want s = (.ok (s.bytes.take want), t) ∧ s.After want t from
    h _ _ s le_rfl
  intro fuel
  induction fuel with
  | zero =>
    intro want s hf
    obtain rfl : want = 0 := by omega
    exact .inr ⟨s, by simp [readExactFuel], Nat.zero_le _, rfl, rfl, suffix_rfl⟩
  | succ fuel ih =>
    intro want s hf
    cases want with
    | zero => exact .inr ⟨s, by simp [readExactFuel], Nat.zero_le _, rfl, rfl, suffix_rfl⟩
    | succ want =>
      rcases read_cases (want + 1) s with ⟨e, t, hr, ha⟩ | ⟨k, t, hr, ha, hle, -⟩
      · exact .inl ⟨e, 0, t, by rw [readExactFuel, hr], ha⟩
      · cases hd : s.bytes.take k with
        | nil =>
          rw [hd] at hr
          exact .inl ⟨shortReadError, k, t, by rw [readExactFuel, hr], ha⟩
        | cons b data =>
          rw [hd] at hr
          have hl : (b :: data).length = k := by
            rw [← hd, length_take, Nat.min_eq_left ha.inside]
          have hk : 0 < k := by rw [← hl]; exact Nat.succ_pos _
          rcases ih (want + 1 - k) t (by omega) with ⟨e, j, u, hre, hu⟩ | ⟨u, hre, hu⟩
          · exact .inl ⟨e, k + j, u, by rw [readExactFuel, hr]; simp only [hl, hre],
              ha.trans hu⟩
          · refine .inr ⟨u, ?_, ?_⟩
            · rw [readExactFuel, hr]
              simp only [hl, hre]
              rw [ha.bytes, ← hd, ← take_add, Nat.add_sub_cancel' hle]
            · have ht := ha.trans hu
              rwa [Nat.add_sub_cancel' hle] at ht

/-- From a source that delivers, `read_exact` gets what it wants if it is there. -/
lemma readExact_delivers (hs : s.Delivers) (hw : want ≤ s.bytes.length) :
    ∃ t, s.readExact want = (.ok (s.bytes.take want), t) ∧ s.After want t := by
  suffices h : ∀ fuel want (s : Source), want ≤ fuel → s.Delivers → want ≤ s.bytes.length →
      ∃ data t, readExactFuel fuel want s = (.ok data, t) by
    obtain ⟨data, t, hok⟩ := h _ _ s le_rfl hs hw
    rcases readExact_cases want s with ⟨e, k, u, her, -⟩ | hdo
    · rw [readExact, hok] at her
      cases her
    · exact hdo
  intro fuel
  induction fuel with
  | zero =>
    intro want s hf _ _
    obtain rfl : want = 0 := by omega
    exact ⟨[], s, by simp [readExactFuel]⟩
  | succ fuel ih =>
    intro want s hf hs hw
    cases want with
    | zero => exact ⟨[], s, by simp [readExactFuel]⟩
    | succ want =>
      have hb : s.bytes ≠ [] := fun h => by simp [h] at hw
      obtain ⟨k, t, hr, ha, hle, hp⟩ := read_delivers hs (Nat.succ_pos want) hb
      have hlen : (s.bytes.take k).length = k := by
        rw [length_take, Nat.min_eq_left ha.inside]
      have hl : want + 1 - k ≤ t.bytes.length := by
        rw [ha.bytes, length_drop]
        omega
      obtain ⟨data, u, hre⟩ := ih (want + 1 - k) t (by omega) (ha.delivers hs) hl
      cases hd : s.bytes.take k with
      | nil =>
        rw [hd] at hlen
        simp at hlen
        omega
      | cons b rest =>
        rw [hd] at hr hlen
        exact ⟨(b :: rest) ++ data, u, by rw [readExactFuel, hr]; simp only [hlen, hre]⟩

/-- `read_exact` fails where there is too little. -/
lemma readExact_short (hw : s.bytes.length < want) :
    ∃ e t, s.readExact want = (.error e, t) := by
  rcases readExact_cases want s with ⟨e, k, t, her, -⟩ | ⟨t, -, ha⟩
  · exact ⟨e, t, her⟩
  · exact absurd ha.inside (by omega)

end Source

/-! ## Exchanges -/

/-- What is written to the client: the head of a relayed response, a part of its body, or a
response of the server's own. -/
inductive Sent where
  | head (text : Str)
  | body (data : Bytes)
  | error (status : StatusCode) (message : String)
  deriving DecidableEq, Repr

namespace Sent

def bytes : Sent → Bytes
  | head text => utf8 text
  | body data => data
  | error status message => HttpResponse.errorBytes status message

/-- Whether it starts a response. -/
def startsResponse : Sent → Bool
  | head _ => true
  | body _ => false
  | error _ _ => true

end Sent

structure Exchange where
  /-- What the client has still to send, after what is buffered. -/
  client : Source
  buffered : Bytes
  /-- What has been written to the client. -/
  sent : List Sent
  /-- What the upstream has still to send. -/
  upstream : Source
  /-- What has been written to the upstream. -/
  written : Bytes

abbrev ExchangeM := EStateM IoError Exchange

/-- A program that reads a source. -/
abbrev ReadM := EStateM IoError Source

def readSome (want : ℕ) : ReadM Bytes := fun s =>
  match s.read want with
  | (.ok data, t) => .ok data t
  | (.error e, t) => .error e t

def readExactly (want : ℕ) : ReadM Bytes := fun s =>
  match s.readExact want with
  | (.ok data, t) => .ok data t
  | (.error e, t) => .error e t

/-- A source that starts with `data` delivers it. -/
lemma readExactly_append {data rest : Bytes} (hs : s.Delivers) (hb : s.bytes = data ++ rest) :
    ∃ t, (readExactly data.length).run s = .ok data t ∧ t.Delivers ∧ t.bytes = rest := by
  have hle : data.length ≤ s.bytes.length := by
    rw [hb, length_append]
    exact Nat.le_add_right _ _
  obtain ⟨t, hr, ha⟩ := Source.readExact_delivers hs hle
  refine ⟨t, ?_, ha.delivers hs, by rw [ha.bytes, hb, drop_left]⟩
  show readExactly data.length s = _
  rw [readExactly, hr, hb, take_left]

def onClient {α : Type} (x : ReadM α) : ExchangeM α := fun s =>
  match x s.client with
  | .ok a client => .ok a { s with client }
  | .error e client => .error e { s with client }

def onUpstream {α : Type} (x : ReadM α) : ExchangeM α := fun s =>
  match x s.upstream with
  | .ok a upstream => .ok a { s with upstream }
  | .error e upstream => .error e { s with upstream }

/-- The writes of some parts, one after another. -/
def send (parts : List Sent) : ExchangeM Unit := modify fun s => { s with sent := s.sent ++ parts }

/-- `send_error`. -/
def sendError (status : StatusCode) (message : String) : ExchangeM Unit :=
  send [.error status message]

def writeUpstream (data : Bytes) : ExchangeM Unit :=
  modify fun s => { s with written := s.written ++ data }

/-- Nothing is taken from the client and nothing written upstream: how a response is relayed. -/
structure Relays (s t : Exchange) : Prop where
  client : t.client = s.client
  buffered : t.buffered = s.buffered
  written : t.written = s.written

instance : IsPreorder Exchange Relays where
  refl _ := ⟨rfl, rfl, rfl⟩
  trans _ _ _ h h' := ⟨h'.client.trans h.client, h'.buffered.trans h.buffered,
    h'.written.trans h.written⟩

lemma relays_send (parts : List Sent) : Moves Relays (send parts) := fun _ => ⟨rfl, rfl, rfl⟩

lemma relays_sendError (status : StatusCode) (message : String) :
    Moves Relays (sendError status message) := fun _ => ⟨rfl, rfl, rfl⟩

lemma relays_onUpstream {α : Type} (x : ReadM α) : Moves Relays (onUpstream x) := by
  intro s
  simp only [wp, onUpstream, EStateM.run]
  cases x s.upstream <;> exact ⟨rfl, rfl, rfl⟩

section Rules

variable {α : Type} {s : Exchange} {Q : α → Exchange → Prop} {E : IoError → Exchange → Prop}

@[simp] lemma wp_onClient (x : ReadM α) : wp (onClient x) s Q E ↔
    wp x s.client (fun a client => Q a { s with client }) (fun e client => E e { s with client }) := by
  simp only [wp, onClient, EStateM.run]
  cases x s.client <;> exact Iff.rfl

@[simp] lemma wp_onUpstream (x : ReadM α) : wp (onUpstream x) s Q E ↔
    wp x s.upstream (fun a upstream => Q a { s with upstream })
      (fun e upstream => E e { s with upstream }) := by
  simp only [wp, onUpstream, EStateM.run]
  cases x s.upstream <;> exact Iff.rfl

variable {P : Unit → Exchange → Prop}

@[simp] lemma wp_send (parts : List Sent) :
    wp (send parts) s P E ↔ P () { s with sent := s.sent ++ parts } := Iff.rfl

@[simp] lemma wp_sendError (status : StatusCode) (message : String) :
    wp (sendError status message) s P E ↔
      P () { s with sent := s.sent ++ [.error status message] } := Iff.rfl

@[simp] lemma wp_writeUpstream (data : Bytes) :
    wp (writeUpstream data) s P E ↔ P () { s with written := s.written ++ data } := Iff.rfl

/-- A read either fails or delivers; from a source that delivers it fails at the end only. -/
lemma wp_readSome {src : Source} {P : Bytes → Source → Prop} {F : IoError → Source → Prop}
    (hw : 0 < want)
    (hok : ∀ k t, src.After k t → k ≤ want → (k = 0 → src.bytes = [] ∧ src.closed = true) →
      P (src.bytes.take k) t)
    (her : ∀ e t, src.After 0 t → (src.Delivers → src.bytes = [] ∧ src.closed = false) → F e t) :
    wp (readSome want) src P F := by
  have hrun : wp (readSome want) src P F ↔
      match src.read want with
      | (.ok data, t) => P data t
      | (.error e, t) => F e t := by
    simp only [wp, readSome, EStateM.run]
    rcases src.read want with ⟨_ | _, _⟩ <;> exact Iff.rfl
  rw [hrun]
  rcases Source.read_cases want src with ⟨e, t, hr, ha⟩ | ⟨k, t, hr, ha, hle, hz⟩
  · rw [hr]
    refine her e t ha fun hd => ?_
    by_cases hb : src.bytes = []
    · obtain ⟨u, hend, -⟩ := Source.read_at_end hd hw hb
      refine ⟨hb, ?_⟩
      cases hc : src.closed with
      | false => rfl
      | true =>
        rw [hc, hr] at hend
        cases hend
    · obtain ⟨k, u, hg, -⟩ := Source.read_delivers hd hw hb
      rw [hg] at hr
      cases hr
  · rw [hr]
    exact hok k t ha hle fun h => (hz h).resolve_left hw.ne'

/-- A read whose size is known. -/
lemma wp_readSome_upTo {src : Source} {n : ℕ} {P : Bytes → Source → Prop}
    {F : IoError → Source → Prop} (hc : src.choices.headD (.upTo want) = .upTo n)
    (hw : 0 < want) (hb : src.bytes ≠ []) :
    wp (readSome want) src P F ↔ P (src.bytes.take (min want (max n 1)))
      { src with bytes := src.bytes.drop (min want (max n 1)), choices := src.choices.tail } := by
  have hs : ¬(src.bytes.take (min want (max n 1)) = [] ∧ 0 < want ∧ src.closed = false) := by
    rintro ⟨hn, -⟩
    rcases take_eq_nil_iff.mp hn with h | h
    · omega
    · exact hb h
  simp only [wp, readSome, EStateM.run, Source.read_upTo hc, if_neg hs]

end Rules

/-! ## A body on its way to the upstream -/

/-- The loop with which a body goes from the client to an upstream, `write` being what is done with
a piece: first what is buffered, then what is read.  Every round takes a byte at least. -/
def streamBodyFuel (write : Bytes → ExchangeM Unit) : ℕ → ℕ → ExchangeM Unit
  | _, 0 => pure ()
  | 0, _ + 1 => throw shortReadError
  | fuel + 1, remaining + 1 => do
      let s ← get
      if s.buffered.isEmpty then do
        let data ← onClient (readSome (min (remaining + 1) (16 * 1024)))
        if data.isEmpty then throw ⟨.unexpectedEof, "client closed request body"⟩
        else do
          write data
          streamBodyFuel write fuel (remaining + 1 - data.length)
      else do
        let taken := min (remaining + 1) s.buffered.length
        modify fun s => { s with buffered := s.buffered.drop taken }
        write (s.buffered.take taken)
        streamBodyFuel write fuel (remaining + 1 - taken)

def streamBody (write : Bytes → ExchangeM Unit) (remaining : ℕ) : ExchangeM Unit :=
  streamBodyFuel write remaining remaining

/-- The bytes of the client still to come. -/
def Exchange.toCome (s : Exchange) : Bytes := s.buffered ++ s.client.bytes

/-- What the body loop has done when it returns: it has written the next `n` bytes of the client in
pieces, and taken no other. -/
structure Streamed (f : Bytes → Bytes) (n : ℕ) (s t : Exchange) : Prop where
  enough : n ≤ s.toCome.length
  buffered : t.buffered = s.buffered.drop n
  client : s.client.After (n - s.buffered.length) t.client
  pieces : ∃ pieces : List Bytes, (∀ piece ∈ pieces, piece ≠ []) ∧
    pieces.flatten = s.toCome.take n ∧ t.written = s.written ++ pieces.flatMap f
  sent : t.sent = s.sent
  upstream : t.upstream = s.upstream

lemma streamed_zero (f : Bytes → Bytes) (s : Exchange) : Streamed f 0 s s :=
  ⟨Nat.zero_le _, rfl, ⟨by simp, by simp, rfl, suffix_rfl⟩, ⟨[], by simp⟩, rfl, rfl⟩

/-- The rest of the body after a piece of `k` bytes. -/
lemma Streamed.cons {f : Bytes → Bytes} {k n : ℕ} {s s' t : Exchange}
    (h : Streamed f (n - k) s' t) (hk : 0 < k) (hle : k ≤ n) (hl : k ≤ s.toCome.length) (hp : s'.written = s.written ++ f (s.toCome.take k))
    (hb : s'.buffered = s.buffered.drop k)
    (hc : s.client.After (k - s.buffered.length) s'.client) (hse : s'.sent = s.sent)
    (hu : s'.upstream = s.upstream) (hem : s.buffered.length < k → s.buffered = []) :
    Streamed f n s t := by
  have hco : s'.toCome = s.toCome.drop k := by
    simp only [Exchange.toCome]
    rw [hb, hc.bytes, drop_append]
  have hen := h.enough
  rw [hco, length_drop] at hen
  obtain ⟨pieces, hne, hf, hw⟩ := h.pieces
  refine ⟨by omega, ?_, ?_, ⟨s.toCome.take k :: pieces, ?_, ?_, ?_⟩, h.sent.trans hse,
    h.upstream.trans hu⟩
  · rw [h.buffered, hb, drop_drop, Nat.add_sub_cancel' hle]
  · have ha := hc.trans h.client
    rw [hb, length_drop] at ha
    have hsum : k - s.buffered.length + (n - k - (s.buffered.length - k)) =
        n - s.buffered.length := by
      by_cases hs : s.buffered.length < k
      · rw [hem hs]
        omega
      · omega
    rwa [hsum] at ha
  · rintro piece hm
    rcases mem_cons.mp hm with rfl | hm
    · rw [ne_eq, take_eq_nil_iff, not_or]
      exact ⟨by omega, fun hn => by rw [hn, length_nil] at hl; omega⟩
    · exact hne piece hm
  · rw [flatten_cons, hf, hco, ← take_add, Nat.add_sub_cancel' hle]
  · rw [hw, hp, flatMap_cons, append_assoc]

/-- The body loop writes the next `n` bytes of the client; it fails only if the client does not
send them. -/
lemma wp_streamBody {write : Bytes → ExchangeM Unit} {f : Bytes → Bytes}
    (hw : ∀ data s, (write data).run s = .ok () { s with written := s.written ++ f data })
    (n : ℕ) (s : Exchange) :
    wp (streamBody write n) s (fun _ t => Streamed f n s t)
      (fun _ _ => ¬(s.client.Delivers ∧ n ≤ s.toCome.length)) := by
  have hwp : ∀ data (s : Exchange) {P : Unit → Exchange → Prop} {E : IoError → Exchange → Prop},
      wp (write data) s P E ↔ P () { s with written := s.written ++ f data } := by
    intro data s P E
    rw [wp, hw]
  suffices h : ∀ fuel n (s : Exchange), n ≤ fuel →
      wp (streamBodyFuel write fuel n) s (fun _ t => Streamed f n s t)
        (fun _ _ => ¬(s.client.Delivers ∧ n ≤ s.toCome.length)) from h n n s le_rfl
  intro fuel
  induction fuel with
  | zero =>
    intro n s hn
    obtain rfl : n = 0 := by omega
    simpa [streamBodyFuel] using streamed_zero f s
  | succ fuel ih =>
    intro n s hn
    cases n with
    | zero => simpa [streamBodyFuel] using streamed_zero f s
    | succ n =>
      rw [streamBodyFuel]
      simp only [wp_bind, wp_ite, wp_onClient, wp_modify, hwp, List.isEmpty_iff]
      refine ⟨fun hem => ?_, fun hf => ?_⟩
      · -- nothing is buffered: a read of the client
        have hc : s.toCome = s.client.bytes := by rw [Exchange.toCome, hem, nil_append]
        refine wp_readSome (by omega) (fun k client ha hle hz => ⟨fun hnil => ?_,
          fun hda => ?_⟩) (fun e client _ hend => ?_)
        · rintro ⟨-, hl⟩
          rw [take_eq_nil_iff] at hnil
          have hb : s.client.bytes = [] := hnil.elim (fun hk => (hz hk).1) id
          rw [hc, hb, length_nil] at hl
          omega
        · have hk : 0 < k := by
            rcases Nat.eq_zero_or_pos k with rfl | hk
            · exact absurd take_zero hda
            · exact hk
          have hl : (s.client.bytes.take k).length = k := by
            rw [length_take, Nat.min_eq_left ha.inside]
          rw [hl]
          refine wp_mono (ih (n + 1 - k) _ (by omega)) (fun _ t ht => ?_) (fun e t ht => ?_)
          · refine ht.cons hk (by omega) (by rw [hc]; exact ha.inside) ?_ ?_ ?_ rfl rfl
              (fun _ => hem)
            · rw [hc]
            · simp [hem]
            · rw [hem]
              exact ha
          · rintro ⟨hd, hl⟩
            refine ht ⟨ha.delivers hd, ?_⟩
            simp only [Exchange.toCome, hem, nil_append] at hl ⊢
            rw [ha.bytes, length_drop]
            omega
        · rintro ⟨hd, hl⟩
          rw [hc, (hend hd).1, length_nil] at hl
          omega
      · -- a piece of the buffer
        have hp : 0 < s.buffered.length := length_pos_iff.mpr hf
        refine wp_mono (ih _ _ (by omega)) (fun _ t ht => ?_) (fun e t ht => ?_)
        · refine ht.cons (by omega) (by omega) ?_ ?_ rfl ?_ rfl rfl (by omega)
          · simp only [Exchange.toCome, length_append]
            omega
          · rw [Exchange.toCome, take_append_of_le_length (by omega)]
          · rw [Nat.sub_eq_zero_of_le (by omega)]
            exact ⟨Nat.zero_le _, rfl, rfl, suffix_rfl⟩
        · rintro ⟨hd, hl⟩
          refine ht ⟨hd, ?_⟩
          simp only [Exchange.toCome, length_append] at hl ⊢
          omega

end Veysrs
