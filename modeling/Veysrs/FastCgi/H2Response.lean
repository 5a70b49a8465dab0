import Veysrs.FastCgi.Response
import Veysrs.Http2.Reader

/-!
# FastCGI responses over HTTP/2

`FastCgiH2Reader` and `H2FastCgiPending` of `server/fastcgi.rs`: the head of a response is polled
for, and the body is read through the reader that comes with it.

A reader takes off the record its bytes start with or keeps them all (`readRecord_front`), so with
records still to come (`Brings`) it takes these off one by one, however they are cut into reads.
Polling is a function of the records (`poll_brings`), and so is what the reader delivers
(`read_gives`).
-/

namespace Veysrs

open Core List

namespace FastCgi

/-! ## The reader -/

structure FastCgiH2Reader where
  upstream : Source
  wire : Bytes := []
  ready : Bytes := []
  offset : ℕ := 0
  done : Bool := false
  contentLength : Option ℕ := none
  bodyBytes : ℕ := 0
  deriving DecidableEq, Repr

abbrev H2ReaderM := EStateM IoError FastCgiH2Reader

namespace FastCgiH2Reader

/-- `upstream.read` into a buffer of 16 KiB. -/
def readUpstream : H2ReaderM Bytes := fun r =>
  match r.upstream.read (16 * 1024) with
  | (.ok data, upstream) => .ok data { r with upstream }
  | (.error e, upstream) => .error e { r with upstream }

/-- The loop of `read_record`; every round but the last reads a byte at least. -/
def readRecordFuel : ℕ → H2ReaderM (Option (UInt8 × Bytes))
  | 0 => throw shortReadError
  | fuel + 1 => do
      let r ← get
      match Core.FastCgi.parse r.wire with
      | .malformed => throw (invalidData "malformed FastCGI record")
      | .record kind data rest =>
        set { r with wire := rest }
        return some (kind, data)
      | .incomplete =>
        let chunk ← readUpstream
        if chunk.isEmpty then return none
        else do
          modify fun r => { r with wire := r.wire ++ chunk }
          readRecordFuel fuel

def readRecord : H2ReaderM (Option (UInt8 × Bytes)) := do
  let r ← get
  readRecordFuel (r.upstream.bytes.length + 1)

def consumeRecord (kind : UInt8) (data : Bytes) : H2ReaderM Unit := do
  let r ← get
  if kind = Core.FastCgi.stdout then
    let next := r.bodyBytes + data.length
    if exceeds r.contentLength next then
      throw (invalidData "FastCGI body exceeds Content-Length")
    else set { r with bodyBytes := next, ready := r.ready ++ data }
  else if kind = Core.FastCgi.endRequest then
    if data.length ≠ 8 then throw (invalidData "malformed FastCGI END_REQUEST")
    else if r.contentLength.any (· ≠ r.bodyBytes) then
      throw ⟨.unexpectedEof, "FastCGI body length mismatch"⟩
    else set { r with done := true }
  else return

/-- The next bytes that are ready, at most `out`. -/
def takeReady (out : ℕ) : H2ReaderM Bytes := do
  let r ← get
  let amount := min out (r.ready.length - r.offset)
  let offset := r.offset + amount
  if offset = r.ready.length then set { r with ready := [], offset := 0 }
  else set { r with offset }
  return (r.ready.drop r.offset).take amount

/-- `Read::read`.  After a record the source goes back to the top if something is ready, returns if
the response is over, and takes the next record otherwise; each is what the top does. -/
def readFuel : ℕ → ℕ → H2ReaderM Bytes
  | 0, _ => throw shortReadError
  | fuel + 1, out => do
      let r ← get
      if r.offset < r.ready.length then takeReady out
      else if r.done then return []
      else match ← readRecord with
        | some (kind, data) =>
          consumeRecord kind data
          readFuel fuel out
        | none => throw ⟨.unexpectedEof, "FastCGI upstream closed before END_REQUEST"⟩

/-- Every record takes a byte at least. -/
def read (out : ℕ) : H2ReaderM Bytes := do
  let r ← get
  readFuel (r.wire.length + r.upstream.bytes.length + 2) out

/-- Read to the end: what was delivered, and whether the end was reached. -/
def drainFuel (out : ℕ) : ℕ → FastCgiH2Reader → Bytes × Bool
  | 0, _ => ([], false)
  | fuel + 1, r =>
    match (read out).run r with
    | .ok [] _ => ([], true)
    | .ok data r =>
      let (rest, complete) := drainFuel out fuel r
      (data ++ rest, complete)
    | .error _ _ => ([], false)

/-- Every read but the last delivers a byte at least. -/
def drain (out : ℕ) (r : FastCgiH2Reader) : Bytes × Bool :=
  drainFuel out (r.ready.length + r.wire.length + r.upstream.bytes.length + 1) r

end FastCgiH2Reader

/-! ## Polling -/

/-- The pending response; `expired` is what the next looks at the clock say about the deadline. -/
structure H2FastCgiPending where
  reader : FastCgiH2Reader
  headerBytes : Bytes := []
  maxHeaders : ℕ
  method : Method
  expired : List Bool := []
  deriving DecidableEq, Repr

/-- A response, the reader of its body and the body's length. -/
abbrev H2Response := HttpResponse × Option FastCgiH2Reader × Option ℕ

/-- What a record makes of a pending response. -/
inductive Polled where
  | more (headerBytes : Bytes)
  | failed (error : IoError)
  | ready (head : Head) (body : Bytes)
  deriving DecidableEq, Repr

/-- The head is complete at `stop`. -/
def pollHead (stdout : Bytes) (stop : ℕ) : Polled :=
  match parseHead (stdout.take stop) with
  | .error e => .failed e
  | .ok head =>
    let body := stdout.drop stop
    if exceeds head.contentLength body.length then
      .failed (invalidData "FastCGI body exceeds Content-Length")
    else .ready head body

def pollRecord (maxHeaders : ℕ) (headerBytes : Bytes) (kind : UInt8) (data : Bytes) : Polled :=
  if kind = Core.FastCgi.stdout then
    let headerBytes := headerBytes ++ data
    if maxHeaders < headerBytes.length then .failed (invalidData "FastCGI headers too large")
    else match findSub blankLine headerBytes with
      | none => .more headerBytes
      | some position => pollHead headerBytes (position + 4)
  else if kind = Core.FastCgi.endRequest then
    .failed ⟨.unexpectedEof, "FastCGI ended before response headers"⟩
  else .more headerBytes

/-- `matches!(status, 100..=199 | 204 | 304)`. -/
def bodilessStatus (status : ℕ) : Bool :=
  (100 ≤ status && status ≤ 199) || status = 204 || status = 304

/-- The response for a head, and the reader for the rest of its body. -/
def readyResponse (method : Method) (head : Head) (body : Bytes) (reader : FastCgiH2Reader) :
    H2Response :=
  let new := HttpResponse.new (.fromU16 head.status)
  let response := { new with headers := new.headers ++ head.headers }
  if method = .head || bodilessStatus head.status || head.contentLength = some 0 then
    (response, none, some 0)
  else (response, some { reader with
    ready := reader.ready ++ body, contentLength := head.contentLength, bodyBytes := body.length },
    head.contentLength)

abbrev PollM := EStateM IoError H2FastCgiPending

/-- `read_record` on the reader of the pending response; a reader that has to wait is no error. -/
def pollReader : PollM (Option (Option (UInt8 × Bytes))) := fun pending =>
  match FastCgiH2Reader.readRecord.run pending.reader with
  | .ok record reader => .ok (some record) { pending with reader }
  | .error e reader =>
    if e.kind = .wouldBlock ∨ e.kind = .timedOut then .ok none { pending with reader }
    else .error e { pending with reader }

/-- The loop of `poll`; a round takes a record. -/
def pollFuel : ℕ → PollM (Option H2Response)
  | 0 => throw shortReadError
  | fuel + 1 => do
      let pending ← get
      set { pending with expired := pending.expired.tail }
      if pending.expired.headD false then
        throw ⟨.timedOut, "FastCGI response header timeout"⟩
      else match ← pollReader with
        | none => return none
        | some none => throw ⟨.unexpectedEof, "FastCGI returned no response headers"⟩
        | some (some (kind, data)) =>
          match pollRecord pending.maxHeaders pending.headerBytes kind data with
          | .failed e => throw e
          | .more headerBytes =>
            modify fun pending => { pending with headerBytes }
            pollFuel fuel
          | .ready head body =>
            let pending ← get
            return some (readyResponse pending.method head body pending.reader)

/-- `poll`. -/
def poll : PollM (Option H2Response) := do
  let pending ← get
  pollFuel (pending.reader.wire.length + pending.reader.upstream.bytes.length + 1)

/-! ## Records to come -/

open Core.FastCgi (Record)

variable {r : FastCgiH2Reader} {records : List Record} {pending : H2FastCgiPending}

namespace FastCgiH2Reader

/-- The same but for what is between the upstream and the records taken off. -/
def Refilled (r t : FastCgiH2Reader) : Prop := t = { r with upstream := t.upstream, wire := t.wire }

lemma Refilled.trans {t u : FastCgiH2Reader} (h : r.Refilled t) (h' : t.Refilled u) :
    r.Refilled u := by
  rw [Refilled] at h h' ⊢
  rw [h', h]

/-- The bytes that have not been taken off as records, read from the upstream or not. -/
def rest (r : FastCgiH2Reader) : Bytes := r.wire ++ r.upstream.bytes

/-- Nothing was taken off and nothing was lost; an error that says to try again has used up one of
the reads to come. -/
structure Kept (r : FastCgiH2Reader) (e : IoError) (t : FastCgiH2Reader) : Prop where
  refilled : r.Refilled t
  rest : t.rest = r.rest
  blocked : e.kind = .wouldBlock → t.upstream.choices.length < r.upstream.choices.length

/-- What was taken off is what the bytes start with. -/
structure TookOff (r : FastCgiH2Reader) (item : Option (UInt8 × Bytes)) (t : FastCgiH2Reader) :
    Prop where
  refilled : r.Refilled t
  choices : t.upstream.choices <:+ r.upstream.choices
  parsed : match item with
    | some (kind, content) => Core.FastCgi.parse r.rest = .record kind content t.rest
    | none => Core.FastCgi.parse r.rest = .incomplete

section Refill

variable {r s t : FastCgiH2Reader} (hrefilled : r.Refilled s)
  (hchoices : s.upstream.choices <:+ r.upstream.choices) (hrest : s.rest = r.rest)

include hrefilled hchoices hrest

lemma TookOff.after {item : Option (UInt8 × Bytes)} (h : s.TookOff item t) :
    r.TookOff item t := by
  refine ⟨hrefilled.trans h.refilled, h.choices.trans hchoices, ?_⟩
  rw [← hrest]
  exact h.parsed

lemma Kept.after {e : IoError} (h : s.Kept e t) : r.Kept e t :=
  ⟨hrefilled.trans h.refilled, h.rest.trans hrest, fun hk =>
    (h.blocked hk).trans_le hchoices.length_le⟩

end Refill

lemma wp_readUpstream {P : Bytes → FastCgiH2Reader → Prop} {F : IoError → FastCgiH2Reader → Prop}
    (hok : ∀ k upstream, r.upstream.After k upstream →
      (k = 0 → r.upstream.bytes = []) → P (r.upstream.bytes.take k) { r with upstream })
    (her : ∀ e upstream, r.upstream.After 0 upstream →
      (r.upstream.Delivers → r.upstream.bytes = []) → F e { r with upstream }) :
    wp readUpstream r P F := by
  have hr : wp readUpstream r P F ↔ wp (readSome (16 * 1024)) r.upstream
      (fun data upstream => P data { r with upstream })
      (fun e upstream => F e { r with upstream }) := by
    simp only [wp, readUpstream, readSome, EStateM.run]
    rcases r.upstream.read (16 * 1024) with ⟨_ | _, _⟩ <;> exact Iff.rfl
  rw [hr]
  exact wp_readSome (by decide) (fun k upstream ha _ hz =>
      hok k upstream ha fun hk => (hz hk).1)
    (fun e upstream ha hend => her e upstream ha fun hd => (hend hd).1)

/-- A read of the upstream moves bytes from it to the wire, or fails and moves none. -/
lemma readUpstream_moves (r : FastCgiH2Reader) :
    wp readUpstream r
      (fun chunk t => t = { r with upstream := t.upstream } ∧
        t.upstream.choices <:+ r.upstream.choices ∧ chunk ++ t.upstream.bytes = r.upstream.bytes ∧
        (chunk = [] → r.upstream.bytes = []))
      (fun e t => r.Kept e t ∧ e ≠ shortReadError ∧
        (r.upstream.Delivers → r.upstream.bytes = [])) := by
  have hf : wp readUpstream r (fun _ _ => True) (fun e t => e ≠ shortReadError ∧
      (e.kind = .wouldBlock → t.upstream.choices.length < r.upstream.choices.length)) := by
    simp only [wp, readUpstream, EStateM.run]
    rcases hr : r.upstream.read (16 * 1024) with ⟨_ | _, upstream⟩
    · exact Source.read_failed hr
    · trivial
  refine wp_mono (wp_and (wp_readUpstream (r := r) (P := fun chunk t =>
      t = { r with upstream := t.upstream } ∧ t.upstream.choices <:+ r.upstream.choices ∧
        chunk ++ t.upstream.bytes = r.upstream.bytes ∧ (chunk = [] → r.upstream.bytes = []))
      (F := fun _ t => r.Refilled t ∧ t.rest = r.rest ∧
        (r.upstream.Delivers → r.upstream.bytes = [])) ?_ ?_) hf)
    (fun _ _ ht => ht.1) (fun e t ht => ⟨⟨ht.1.1, ht.1.2.1, ht.2.2⟩, ht.2.1, ht.1.2.2⟩)
  · intro k upstream ha hz
    refine ⟨rfl, ha.choices, ?_, fun hn => ?_⟩
    · show r.upstream.bytes.take k ++ upstream.bytes = r.upstream.bytes
      rw [ha.bytes, take_append_drop]
    · exact (take_eq_nil_iff.mp hn).elim hz id
  · intro e upstream ha hend
    refine ⟨rfl, ?_, hend⟩
    show r.wire ++ upstream.bytes = r.wire ++ r.upstream.bytes
    rw [ha.bytes, drop_zero]

/-- `read_record` takes off the record the bytes start with, or takes off nothing. -/
lemma readRecordFuel_front (fuel : ℕ) : ∀ r : FastCgiH2Reader, r.upstream.bytes.length < fuel →
    wp (readRecordFuel fuel) r (r.TookOff)
      (fun e t => r.Kept e t ∧ e ≠ shortReadError ∧
        (r.upstream.Delivers → ∀ kind content left,
          Core.FastCgi.parse r.rest ≠ .record kind content left)) := by
  induction fuel with
  | zero => exact fun _ h => absurd h (Nat.not_lt_zero _)
  | succ fuel ih =>
    intro r hf
    rw [readRecordFuel]
    simp only [wp_bind, wp_get]
    cases hp : Core.FastCgi.parse r.wire with
    | malformed =>
      have hrest : Core.FastCgi.parse r.rest = .malformed := by
        rw [rest, Core.FastCgi.parse_append (by rw [hp]; intro h; cases h), hp]
      refine ⟨⟨rfl, rfl, fun hki => absurd hki (by decide)⟩, by decide, fun _ => ?_⟩
      rw [hrest]
      intro kind content left h
      cases h
    | record kind content left =>
      refine ⟨rfl, suffix_rfl, ?_⟩
      rw [rest, Core.FastCgi.parse_append (by rw [hp]; intro h; cases h), hp]
      rfl
    | incomplete =>
      simp only [wp_bind, wp_ite, wp_modify, List.isEmpty_iff]
      refine wp_mono (readUpstream_moves r) (fun chunk t ht => ?_) (fun e t ht => ?_)
      · obtain ⟨hs, hchoices, hc, hem⟩ := ht
        refine ⟨fun hn => ⟨?_, hchoices, ?_⟩, fun hda => ?_⟩
        · rw [hs]
          rfl
        · show Core.FastCgi.parse r.rest = .incomplete
          rw [rest, hem hn, append_nil, hp]
        · have hl := congrArg List.length hc
          have hpos := length_pos_iff.mpr hda
          rw [length_append] at hl
          have hrefilled : r.Refilled { t with wire := t.wire ++ chunk } := by
            rw [hs]
            rfl
          have hrest : rest { t with wire := t.wire ++ chunk } = r.rest := by
            have hw : t.wire = r.wire := by rw [hs]
            rw [rest, rest, hw, append_assoc, hc]
          refine wp_mono (ih { t with wire := t.wire ++ chunk } ?_)
            (fun item u hu => hu.after hrefilled hchoices hrest)
            (fun e u hu => ⟨hu.1.after hrefilled hchoices hrest, hu.2.1, fun hd => ?_⟩)
          · show t.upstream.bytes.length < fuel
            omega
          · rw [← hrest]
            exact hu.2.2 fun choice hch => hd choice (hchoices.subset hch)
      · obtain ⟨hk, hsh, hend⟩ := ht
        refine ⟨hk, hsh, fun hd kind content left hr => ?_⟩
        rw [rest, hend hd, append_nil, hp] at hr
        cases hr

lemma readRecord_front (r : FastCgiH2Reader) :
    wp readRecord r r.TookOff
      (fun e t => r.Kept e t ∧ e ≠ shortReadError ∧
        (r.upstream.Delivers → ∀ kind content left,
          Core.FastCgi.parse r.rest ≠ .record kind content left)) := by
  exact readRecordFuel_front _ r (Nat.lt_succ_self _)

/-- The records still to come, whatever the reads of the upstream do. -/
def Brings (r : FastCgiH2Reader) (records : List Record) : Prop :=
  r.wire ++ r.upstream.bytes = records.flatMap Record.encode

lemma length_le_of_brings (h : r.Brings records) :
    records.length + (records.flatMap Record.content).length ≤
      r.wire.length + r.upstream.bytes.length := by
  rw [← length_append, h]
  clear h
  induction records with
  | nil => simp
  | cons record records ih =>
    simp only [flatMap_cons, length_append, length_cons, Record.encode, Record.header] at ih ⊢
    omega

/-- What taking a record off comes to. -/
def Taken (records : List Record) (item : Option (UInt8 × Bytes)) (t : FastCgiH2Reader) : Prop :=
  match records with
  | [] => item = none
  | record :: rest => item = some record.item ∧ t.Brings rest

/-- A record is taken off, or everything is still to come; if the upstream delivers, the record that
is to come is taken off. -/
lemma readRecord_brings (h : r.Brings records) :
    wp readRecord r
      (fun item t => r.Refilled t ∧ (r.upstream.Delivers → t.upstream.Delivers) ∧
        Taken records item t)
      (fun _ t => r.Refilled t ∧ t.Brings records ∧ (r.upstream.Delivers → records = [])) := by
  have hrest : r.rest = records.flatMap Record.encode := h
  refine wp_mono (readRecord_front r) (fun item t ht => ⟨ht.refilled, fun hd choice hc =>
    hd choice (ht.choices.subset hc), ?_⟩) (fun e t ht => ⟨ht.1.refilled,
      ht.1.rest.trans hrest, fun hd => ?_⟩)
  · have hp := ht.parsed
    rw [hrest] at hp
    cases records with
    | nil =>
      cases item with
      | none => rfl
      | some item => cases hp
    | cons record records =>
      rw [flatMap_cons, Core.FastCgi.parse_encode] at hp
      cases item with
      | none => cases hp
      | some item =>
        obtain ⟨kind, content⟩ := item
        obtain ⟨rfl, rfl, hl⟩ := Core.FastCgi.Parsed.record.inj hp
        exact ⟨rfl, hl.symm⟩
  · cases records with
    | nil => rfl
    | cons record records =>
      refine absurd ?_ (ht.2.2 hd record.kind record.content (records.flatMap Record.encode))
      rw [hrest, flatMap_cons, Core.FastCgi.parse_encode]

end FastCgiH2Reader

/-! ## Polling is a function of the records -/

/-- The head among the records, with what is left of them. -/
def polled (maxHeaders : ℕ) : List Record → Bytes → Option (Head × Bytes × List Record)
  | [], _ => none
  | record :: records, headerBytes =>
    match pollRecord maxHeaders headerBytes record.kind record.content with
    | .failed _ => none
    | .more headerBytes => polled maxHeaders records headerBytes
    | .ready head body => some (head, body, records)

/-- The deadline does not pass. -/
def H2FastCgiPending.InTime (pending : H2FastCgiPending) : Prop :=
  ∀ look ∈ pending.expired, look = false

/-- What a poll leads to, given the records it has before it. -/
def PolledFor (pending : H2FastCgiPending) (records : List Record) (response : H2Response) : Prop :=
  ∃ head body rest reader,
    polled pending.maxHeaders records pending.headerBytes = some (head, body, rest) ∧
    response = readyResponse pending.method head body reader ∧ reader.Brings rest ∧
    pending.reader.Refilled reader ∧
    (pending.reader.upstream.Delivers → reader.upstream.Delivers)

/-- A poll that has to wait leaves the same to be found. -/
structure SameToFind (pending : H2FastCgiPending) (records : List Record) (t : H2FastCgiPending) :
    Prop where
  method : t.method = pending.method
  maxHeaders : t.maxHeaders = pending.maxHeaders
  reader : pending.reader.Refilled t.reader
  left : ∃ left, t.reader.Brings left ∧
    polled pending.maxHeaders left t.headerBytes =
      polled pending.maxHeaders records pending.headerBytes

lemma wp_pollReader {P : Option (Option (UInt8 × Bytes)) → H2FastCgiPending → Prop}
    {F : IoError → H2FastCgiPending → Prop} (h : pending.reader.Brings records)
    (hok : ∀ item reader, pending.reader.Refilled reader →
      (pending.reader.upstream.Delivers → reader.upstream.Delivers) →
      FastCgiH2Reader.Taken records item reader → P (some item) { pending with reader })
    (hwa : ∀ reader, pending.reader.Refilled reader → reader.Brings records →
      (pending.reader.upstream.Delivers → records = []) → P none { pending with reader })
    (her : ∀ e t, (pending.reader.upstream.Delivers → records = []) → F e t) :
    wp pollReader pending P F := by
  have hr := FastCgiH2Reader.readRecord_brings h
  simp only [wp, pollReader, EStateM.run] at hr ⊢
  cases hrun : FastCgiH2Reader.readRecord pending.reader with
  | ok item reader =>
    rw [hrun] at hr
    exact hok item reader hr.1 hr.2.1 hr.2.2
  | error e reader =>
    rw [hrun] at hr
    by_cases hw : e.kind = .wouldBlock ∨ e.kind = .timedOut
    · simp only [if_pos hw]
      exact hwa reader hr.1 hr.2.1 hr.2.2
    · simp only [if_neg hw]
      exact her e _ hr.2.2

/-- Polling finds the head that is among the records, or has to wait.  If the upstream delivers and
the deadline does not pass, it waits or fails only if there is no head. -/
lemma pollFuel_brings (fuel : ℕ) : ∀ (pending : H2FastCgiPending) (records : List Record),
    pending.reader.Brings records →
      wp (pollFuel fuel) pending
        (fun response t => match response with
          | none => SameToFind pending records t ∧
              (pending.reader.upstream.Delivers → pending.InTime → records.length < fuel →
                polled pending.maxHeaders records pending.headerBytes = none)
          | some response => PolledFor pending records response)
        (fun _ _ => pending.reader.upstream.Delivers → pending.InTime → records.length < fuel →
          polled pending.maxHeaders records pending.headerBytes = none) := by
  induction fuel with
  | zero => exact fun _ _ _ _ _ h => absurd h (Nat.not_lt_zero _)
  | succ fuel ih =>
    intro pending records h
    rw [pollFuel]
    simp only [wp_bind, wp_ite]
    refine ⟨fun hex _ hti => ?_, fun _ => wp_pollReader h
      (fun item reader hrefilled hd hta => ?_)
      (fun reader hrefilled hb hn => ⟨⟨rfl, rfl, hrefilled, records, hb, rfl⟩,
        fun hd _ _ => ?_⟩)
      (fun _ _ hn hd _ _ => ?_)⟩
    · cases hl : pending.expired with
      | nil =>
        rw [hl] at hex
        cases hex
      | cons look looks =>
        rw [hl, hti look (by rw [hl]; exact mem_cons_self)] at hex
        cases hex
    · cases records with
      | nil =>
        rw [hta]
        exact fun _ _ _ => rfl
      | cons record records =>
        obtain ⟨rfl, hb⟩ := hta
        simp only [Core.FastCgi.Record.item]
        cases hr : pollRecord pending.maxHeaders pending.headerBytes record.kind
          record.content with
        | failed e => exact fun _ _ _ => by rw [polled, hr]
        | ready head body =>
          exact ⟨head, body, records, reader, by rw [polled, hr], rfl, hb, hrefilled,
            hd⟩
        | more headerBytes =>
          have hp : polled pending.maxHeaders (record :: records) pending.headerBytes =
              polled pending.maxHeaders records headerBytes := by rw [polled, hr]
          simp only [hp, length_cons, Nat.succ_lt_succ_iff]
          refine wp_mono (ih _ records hb) (fun response t ht => ?_)
            (fun e t ht hs hti hf => ht (hd hs)
              (fun look hlo => hti look (mem_of_mem_tail hlo)) hf)
          cases response with
          | none =>
            obtain ⟨⟨hm, hmax, hrea, left, hle, hsa⟩, hn⟩ := ht
            exact ⟨⟨hm, hmax, hrefilled.trans hrea, left, hle,
              hsa.trans hp.symm⟩, fun hs hti hf => hn (hd hs)
                (fun look hlo => hti look (mem_of_mem_tail hlo)) hf⟩
          | some response =>
            obtain ⟨head, body, rest, last, hfo, hre, hrest, hla, hs⟩ := ht
            exact ⟨head, body, rest, last, hp.trans hfo, hre, hrest,
              hrefilled.trans hla, fun h => hs (hd h)⟩
    · rw [hn hd, polled]
    · rw [hn hd, polled]

lemma poll_brings (h : pending.reader.Brings records) :
    wp poll pending
      (fun response t => match response with
        | none => SameToFind pending records t ∧
            (pending.reader.upstream.Delivers → pending.InTime →
              polled pending.maxHeaders records pending.headerBytes = none)
        | some response => PolledFor pending records response)
      (fun _ _ => pending.reader.upstream.Delivers → pending.InTime →
        polled pending.maxHeaders records pending.headerBytes = none) := by
  have hl := FastCgiH2Reader.length_le_of_brings h
  have hf : records.length <
      pending.reader.wire.length + pending.reader.upstream.bytes.length + 1 := by omega
  simp only [poll, wp_bind, wp_get]
  refine wp_mono (pollFuel_brings _ pending records h) (fun response t ht => ?_)
    (fun _ _ ht hd hti => ht hd hti hf)
  cases response with
  | none => exact ⟨ht.1, fun hd hti => ht.2 hd hti hf⟩
  | some response => exact ht

/-- However often it was polled for, a response is the one among the records. -/
lemma polls_brings {response : H2Response} (h : Polls poll pending response) :
    ∀ records, pending.reader.Brings records → ∃ head body rest reader,
      polled pending.maxHeaders records pending.headerBytes = some (head, body, rest) ∧
      response = readyResponse pending.method head body reader ∧ reader.Brings rest ∧
      pending.reader.Refilled reader := by
  induction h with
  | ready hrun =>
    intro records hb
    obtain ⟨head, body, rest, reader, hf, hr, hrest, hre, -⟩ :=
      wp_ok (poll_brings hb) hrun
    exact ⟨head, body, rest, reader, hf, hr, hrest, hre⟩
  | again hrun _ ih =>
    intro records hb
    obtain ⟨⟨hm, hmax, hre, left, hle, hs⟩, -⟩ := wp_ok (poll_brings hb) hrun
    obtain ⟨head, body, rest, last, hf, hr, hrest, hl⟩ := ih left hle
    rw [hmax] at hf
    exact ⟨head, body, rest, last, hs.symm.trans hf, by rw [hr, hm], hrest,
      hre.trans hl⟩

/-! ## So is reading the body -/

/-- What the records give a reader that has read `k` bytes of the body, and whether it gets to the
end. -/
def drained (contentLength : Option ℕ) : ℕ → List Record → Bytes × Bool
  | _, [] => ([], false)
  | k, record :: records =>
    if record.kind = Core.FastCgi.stdout then
      if exceeds contentLength (k + record.content.length) then ([], false)
      else
        let (rest, complete) := drained contentLength (k + record.content.length) records
        (record.content ++ rest, complete)
    else if record.kind = Core.FastCgi.endRequest then
      ([], record.content.length = 8 && !contentLength.any (· ≠ k))
    else drained contentLength k records

namespace FastCgiH2Reader

/-- What is ready is what has not been handed out. -/
def owed (r : FastCgiH2Reader) : Bytes := r.ready.drop r.offset

/-- Between reads nothing that was handed out is kept. -/
def Tidy (r : FastCgiH2Reader) : Prop := r.offset < r.ready.length ∨ r.ready = [] ∧ r.offset = 0

lemma run_consumeRecord (kind : UInt8) (data : Bytes) (r : FastCgiH2Reader) :
    (consumeRecord kind data).run r =
      if kind = Core.FastCgi.stdout then
        if exceeds r.contentLength (r.bodyBytes + data.length) then
          .error (invalidData "FastCGI body exceeds Content-Length") r
        else .ok () { r with bodyBytes := r.bodyBytes + data.length, ready := r.ready ++ data }
      else if kind = Core.FastCgi.endRequest then
        if data.length ≠ 8 then .error (invalidData "malformed FastCGI END_REQUEST") r
        else if r.contentLength.any (· ≠ r.bodyBytes) then
          .error ⟨.unexpectedEof, "FastCGI body length mismatch"⟩ r
        else .ok () { r with done := true }
      else .ok () r := by
  rw [consumeRecord, run_bind_of_ok (x := get) (a := r) (t := r) rfl]
  dsimp only
  split_ifs <;> rfl

/-- What the reader still gives and whether it then gets to the end. -/
def Gives (r : FastCgiH2Reader) (outcome : Bytes × Bool) : Prop :=
  r.Tidy ∧ (r.done = true ∧ outcome = (r.owed, true) ∨
    r.done = false ∧ ∃ records, r.Brings records ∧
      outcome = (r.owed ++ (drained r.contentLength r.bodyBytes records).1,
        (drained r.contentLength r.bodyBytes records).2))

/-- What the reader has still to deliver before it ends or fails. -/
def Owes (r : FastCgiH2Reader) (bytes : Bytes) : Prop := ∃ complete, r.Gives (bytes, complete)

variable {out : ℕ}

lemma wp_takeReady {P : Bytes → FastCgiH2Reader → Prop} {F : IoError → FastCgiH2Reader → Prop}
    (hr : r.offset < r.ready.length) (ho : 0 < out)
    (h : ∀ k t, 0 < k → k ≤ out → k ≤ r.owed.length → t.Tidy → t.owed = r.owed.drop k →
      t = { r with ready := t.ready, offset := t.offset } → P (r.owed.take k) t) :
    wp (takeReady out) r P F := by
  have hl : r.owed.length = r.ready.length - r.offset := length_drop
  set k := min out (r.ready.length - r.offset) with hk
  simp only [takeReady, wp_bind, wp_get]
  by_cases ha : r.offset + k = r.ready.length
  · rw [if_pos ha]
    refine h k { r with ready := [], offset := 0 } (by omega) (by omega) (by omega)
      (.inr ⟨rfl, rfl⟩) ?_ rfl
    have hn : r.owed.drop k = [] := drop_eq_nil_of_le (by omega)
    rw [hn]
    rfl
  · rw [if_neg ha]
    refine h k { r with offset := r.offset + k } (by omega) (by omega) (by omega) (.inl ?_) ?_ rfl
    · show r.offset + k < r.ready.length
      omega
    · exact drop_drop.symm

lemma tidy_of_ready (ho : r.offset = 0) : r.Tidy := by
  rw [Tidy, ho, length_pos_iff]
  exact (em _).symm.imp_right fun hn => ⟨hn, rfl⟩

lemma gives_of_brings (h : r.Brings records) (ho : r.offset = 0) (hd : r.done = false) :
    r.Gives (r.ready ++ (drained r.contentLength r.bodyBytes records).1,
      (drained r.contentLength r.bodyBytes records).2) :=
  ⟨tidy_of_ready ho, .inr ⟨hd, records, h, by rw [owed, ho, drop_zero]⟩⟩

/-- A record that is consumed leaves a reader that gives what the records did. -/
lemma consumeRecord_gives {record : Record} (hr : r.ready = []) (ho : r.offset = 0)
    (hd : r.done = false) (hb : r.Brings records) :
    wp (consumeRecord record.kind record.content) r
      (fun _ t => t.Gives (drained r.contentLength r.bodyBytes (record :: records)) ∧
        t.upstream = r.upstream ∧ t.wire = r.wire)
      (fun e _ => e.waits = false ∧
        drained r.contentLength r.bodyBytes (record :: records) = ([], false)) := by
  have how : r.owed = [] := by rw [owed, hr, drop_nil]
  rw [wp, run_consumeRecord, drained]
  by_cases hs : record.kind = Core.FastCgi.stdout
  · rw [if_pos hs, if_pos hs]
    by_cases hex : exceeds r.contentLength (r.bodyBytes + record.content.length) = true
    · rw [if_pos hex, if_pos hex]
      exact ⟨rfl, rfl⟩
    · rw [if_neg hex, if_neg hex]
      refine ⟨⟨tidy_of_ready ho, .inr ⟨hd, records, hb, ?_⟩⟩, rfl, rfl⟩
      simp only [owed, hr, ho, nil_append, drop_zero]
  · rw [if_neg hs, if_neg hs]
    by_cases hend : record.kind = Core.FastCgi.endRequest
    · rw [if_pos hend]
      split_ifs with hl hm
      · exact ⟨rfl, by simp [hl]⟩
      · exact ⟨rfl, by simp only [hm, Bool.not_true, Bool.and_false]⟩
      · rw [Bool.not_eq_true] at hm
        refine ⟨⟨.inr ⟨hr, ho⟩, .inl ⟨rfl, ?_⟩⟩, rfl, rfl⟩
        rw [hm, decide_eq_true (not_not.mp hl)]
        exact congrArg (·, true) how.symm
    · rw [if_neg hend, if_neg hend]
      exact ⟨⟨.inr ⟨hr, ho⟩, .inr ⟨hd, records, hb, by
        rw [how, nil_append]⟩⟩, rfl, rfl⟩

/-- A read hands out the next of what the reader gives, and nothing only at the end; one that has to
wait keeps it all.  If the upstream delivers, a read fails only with nothing left to give. -/
lemma readFuel_gives (hout : 0 < out) (fuel : ℕ) :
    ∀ (r : FastCgiH2Reader) (outcome : Bytes × Bool), r.Gives outcome →
      wp (readFuel fuel out) r
        (fun data t => (r.upstream.Delivers → t.upstream.Delivers) ∧ data.length ≤ out ∧
          (data = [] → outcome = ([], true)) ∧
          ∃ rest, outcome.1 = data ++ rest ∧ t.Gives (rest, outcome.2))
        (fun e t => (e.waits = true → t.Gives outcome) ∧
          (r.upstream.Delivers → r.rest.length < fuel → outcome = ([], false))) := by
  induction fuel with
  | zero => exact fun _ _ _ => ⟨fun hw => absurd hw (by decide), fun _ hf =>
      absurd hf (Nat.not_lt_zero _)⟩
  | succ fuel ih =>
    rintro r outcome ⟨hti, hg⟩
    rw [readFuel]
    simp only [wp_bind, wp_ite]
    refine ⟨fun hr => ?_, fun hr => ⟨fun hdo => ?_, fun hdo => ?_⟩⟩
    · refine wp_takeReady hr hout fun k t hk hle hlen ht ho hs => ?_
      have hda : (r.owed.take k).length ≤ out := by
        rw [length_take]
        omega
      have hn : r.owed.take k ≠ [] := fun hnil => by
        have := congrArg List.length hnil
        rw [length_take, length_nil] at this
        omega
      refine ⟨fun hd => by rw [hs]; exact hd, hda, fun hnil =>
        absurd hnil hn, ?_⟩
      rcases hg with ⟨hdo, rfl⟩ | ⟨hdo, records, h, rfl⟩
      · refine ⟨t.owed, by rw [ho, take_append_drop], ht, .inl ⟨?_, rfl⟩⟩
        rw [hs]
        exact hdo
      · refine ⟨t.owed ++ (drained r.contentLength r.bodyBytes records).1, ?_, ht,
          .inr ⟨?_, records, ?_, ?_⟩⟩
        · rw [ho, ← append_assoc, take_append_drop]
        · rw [hs]
          exact hdo
        · rw [hs]
          exact h
        · rw [hs]
    · -- the end: nothing is ready
      have ho : r.owed = [] := drop_eq_nil_of_le (Nat.not_lt.mp hr)
      rcases hg with ⟨-, rfl⟩ | ⟨hnot, -⟩
      · exact ⟨id, Nat.zero_le _, fun _ => by rw [ho], r.owed, rfl, hti, .inl ⟨hdo, rfl⟩⟩
      · rw [hdo] at hnot
        cases hnot
    · obtain ⟨hrr, hro⟩ := hti.resolve_left hr
      have ho : r.owed = [] := by rw [owed, hrr, drop_nil]
      obtain ⟨hm, records, h, rfl⟩ := hg.resolve_left fun hnot => hdo hnot.1
      rw [ho, nil_append]
      refine wp_mono (readRecord_brings h) (fun item t ht => ?_) (fun e t ht => ⟨fun _ => ?_, ?_⟩)
      · obtain ⟨hrefilled, hd, hta⟩ := ht
        cases records with
        | nil =>
          rw [hta]
          exact ⟨fun hw => absurd hw (by decide), fun _ _ => rfl⟩
        | cons record records =>
          obtain ⟨rfl, hb⟩ := hta
          have hr : t.ready = [] := by rw [hrefilled]; exact hrr
          have hof : t.offset = 0 := by rw [hrefilled]; exact hro
          have hnot : t.done = false := by rw [hrefilled]; exact hm
          have hl : t.contentLength = r.contentLength := by rw [hrefilled]
          have hc : t.bodyBytes = r.bodyBytes := by rw [hrefilled]
          rw [← hl, ← hc]
          simp only [wp_bind]
          refine wp_mono (consumeRecord_gives hr hof hnot hb)
            (fun _ u hu => wp_mono (ih u _ hu.1)
              (fun data v hv => ⟨fun h => hv.1 (hu.2.1 ▸ hd h), hv.2⟩)
              (fun e v hv => ⟨hv.1, fun hst hf => hv.2 (hu.2.1 ▸ hd hst) ?_⟩))
            (fun e u hu => ⟨fun hw => ?_, fun _ _ => hu.2⟩)
          · have hlo : r.rest = record.encode ++ t.rest := by
              rw [rest, rest, h, hb, flatMap_cons]
            have hp := Core.FastCgi.length_encode_pos record
            rw [hlo, length_append, rest] at hf
            rw [rest, hu.2.1, hu.2.2]
            omega
          · rw [hu.1] at hw
            cases hw
      · obtain ⟨hrefilled, hb, -⟩ := ht
        refine ⟨by rw [hrefilled]; exact hti, .inr ⟨by rw [hrefilled]; exact hm, records,
          hb, ?_⟩⟩
        have hsti : t.owed = r.owed := by rw [owed, hrefilled]; rfl
        rw [hsti, ho, nil_append, hrefilled]
      · intro hd _
        rw [ht.2.2 hd]
        rfl

lemma read_gives (ho : 0 < out) {outcome : Bytes × Bool} (h : r.Gives outcome) :
    wp (read out) r
      (fun data t => (r.upstream.Delivers → t.upstream.Delivers) ∧ data.length ≤ out ∧
        (data = [] → outcome = ([], true)) ∧
        ∃ rest, outcome.1 = data ++ rest ∧ t.Gives (rest, outcome.2))
      (fun e t => (e.waits = true → t.Gives outcome) ∧
        (r.upstream.Delivers → outcome = ([], false))) := by
  simp only [read, wp_bind, wp_get]
  refine wp_mono (readFuel_gives ho _ r outcome h) (fun _ _ ht => ht)
    (fun _ _ ht => ⟨ht.1, fun hd => ht.2 hd ?_⟩)
  rw [rest, length_append]
  omega

lemma handsOut_read : HandsOut read Owes := by
  rintro r bytes want ⟨complete, hg⟩ hwa
  refine wp_mono (read_gives hwa hg) (fun data t ht => ?_) (fun e t ht hw => ?_)
  · obtain ⟨-, hl, hend, rest, hb, hrest⟩ := ht
    exact ⟨rest, hb, ⟨complete, hrest⟩, hl, fun hn => congrArg Prod.fst (hend hn)⟩
  · exact ⟨complete, ht.1 hw⟩

/-- Read to the end, a reader whose upstream delivers hands out what it gives. -/
lemma drainFuel_gives (ho : 0 < out) (fuel : ℕ) :
    ∀ (r : FastCgiH2Reader) (outcome : Bytes × Bool), r.Gives outcome → r.upstream.Delivers →
      outcome.1.length < fuel → drainFuel out fuel r = outcome := by
  induction fuel with
  | zero => exact fun _ _ _ _ h => absurd h (Nat.not_lt_zero _)
  | succ fuel ih =>
    intro r outcome hg hd hf
    have hr := read_gives ho hg
    rw [drainFuel]
    cases hrun : (read out).run r with
    | error e t => exact ((wp_error hr hrun).2 hd).symm
    | ok data t =>
      obtain ⟨hs, -, hend, rest, hb, hrest⟩ := wp_ok hr hrun
      cases data with
      | nil => exact (hend rfl).symm
      | cons b data =>
        rw [hb, length_append, length_cons] at hf
        simp only [ih t _ hrest (hs hd) (by dsimp only; omega), ← hb]

lemma length_drained_le (limit : Option ℕ) (records : List Record) : ∀ k,
    (drained limit k records).1.length ≤ (records.flatMap Record.content).length := by
  induction records with
  | nil => exact fun _ => le_rfl
  | cons record records ih =>
    intro k
    rw [drained, flatMap_cons, length_append]
    split_ifs
    · exact Nat.zero_le _
    · simpa using ih _
    · exact Nat.zero_le _
    · exact (ih k).trans (Nat.le_add_left _ _)

/-- However its records are cut into reads and whatever the size of the buffer, a reader delivers what
its records give. -/
lemma drain_brings (hout : 0 < out) (h : r.Brings records) (hd : r.upstream.Delivers)
    (ho : r.offset = 0) (hdo : r.done = false) :
    r.drain out = (r.ready ++ (drained r.contentLength r.bodyBytes records).1,
      (drained r.contentLength r.bodyBytes records).2) := by
  have hl := length_le_of_brings h
  have hm := length_drained_le r.contentLength records r.bodyBytes
  refine drainFuel_gives hout _ r _ (gives_of_brings h ho hdo) hd ?_
  rw [length_append]
  omega

end FastCgiH2Reader

end FastCgi

end Veysrs
