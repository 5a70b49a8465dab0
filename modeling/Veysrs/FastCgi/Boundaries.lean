import Veysrs.FastCgi.H2Response

/-!
# Record boundaries in FastCGI responses

A FastCGI server may cut its standard output into records as it likes.  Both relays work on what a
record happens to contain: the limit on the head is applied to the record that completes it, body
and all, and `Content-Length` record by record.

The records before the one that completes the head only add up (`relayAll_before`,
`polled_before`), and so do those of the body while it is not too long (`sentBytes_body`,
`drained_body`).  What is left is the record in between, which may carry up to 65534 bytes of the
body.  `boundariesInvisible` says when that, and where a body becomes too long, makes no difference.
-/

namespace Veysrs

open Core List

namespace FastCgi

open Core.FastCgi (Record stdout stderr endRequest)

/-! ## Response streams -/

/-- The standard output in a list of records. -/
def stdoutOf (records : List Record) : Bytes :=
  (records.filter fun record => record.kind = stdout).flatMap Record.content

/-- A whole response: records of standard output and standard error, and the end. -/
structure ResponseStream where
  records : List Record
  last : Record
  kinds : ∀ record ∈ records, record.kind = stdout ∨ record.kind = stderr
  ends : last.kind = endRequest

def ResponseStream.stdout (a : ResponseStream) : Bytes := stdoutOf a.records

def ResponseStream.bytes (a : ResponseStream) : Bytes := (a.records ++ [a.last]).flatMap Record.encode

/-- What `stream_response` writes to the client. -/
def clientBytes (p : ResponseParams) (s : Exchange) (upstream : Source) : Bytes :=
  (stateOf ((streamResponse p).run { s with upstream, sent := [] })).sent.flatMap Sent.bytes

/-- Status, headers and body over HTTP/2, and whether the body's end was reached; nothing if polling
does not lead to a response.  The deadline is taken not to pass. -/
def h2Outcome (maxHeaders : ℕ) (method : Method) (out : ℕ) (upstream : Source) :
    Option (StatusCode × Headers × Bytes × Bool) :=
  match poll.run { reader := { upstream }, maxHeaders, method } with
  | .ok (some (response, reader, _)) _ =>
    some (response.status, response.headers, match reader with
      | some reader => reader.drain out
      | none => ([], true))
  | _ => none

/-! ## Up to the head -/

section Records

variable {record : Record} {records : List Record}

@[simp] lemma stdoutOf_nil : stdoutOf [] = [] := rfl

lemma stdoutOf_cons (h : record.kind = stdout) (records : List Record) :
    stdoutOf (record :: records) = record.content ++ stdoutOf records := by
  simp [stdoutOf, h]

lemma stdoutOf_cons_other (h : record.kind ≠ stdout) (records : List Record) :
    stdoutOf (record :: records) = stdoutOf records := by
  simp [stdoutOf, h]

lemma stdoutOf_append (xs ys : List Record) :
    stdoutOf (xs ++ ys) = stdoutOf xs ++ stdoutOf ys := by
  simp [stdoutOf]

/-- Records none of which ends the response: each is one of standard output or does not count. -/
inductive NoEnd : List Record → Prop
  | nil : NoEnd []
  | output {record : Record} {records : List Record} (h : record.kind = stdout) :
      NoEnd records → NoEnd (record :: records)
  | other {record : Record} {records : List Record} (h : record.kind ≠ stdout)
      (hend : record.kind ≠ endRequest) : NoEnd records → NoEnd (record :: records)

lemma noEnd_of_forall (h : ∀ record ∈ records, record.kind ≠ endRequest) : NoEnd records := by
  induction records with
  | nil => exact .nil
  | cons record records ih =>
    obtain ⟨hend, hr⟩ := forall_mem_cons.mp h
    by_cases hs : record.kind = stdout
    · exact .output hs (ih hr)
    · exact .other hs hend (ih hr)

end Records

lemma blankLine_ne_nil : blankLine ≠ [] := by decide

section Before

variable {records : List Record}

/-- **Output without an empty line only adds up**, until it is too much: so it does for any reader
`F` of the records that takes them one by one. -/
lemma adds_up {β : Type} {F : List Record → Bytes → β} {tooLong : β} {maxHeaders : ℕ}
    (hs : ∀ record rest before, record.kind = stdout →
      findSub blankLine (before ++ record.content) = none →
      F (record :: rest) before = if maxHeaders < (before ++ record.content).length then tooLong
        else F rest (before ++ record.content))
    (ho : ∀ record rest before, record.kind ≠ stdout →
      record.kind ≠ endRequest → F (record :: rest) before = F rest before)
    (hki : NoEnd records) : ∀ before : Bytes,
    before.length ≤ maxHeaders → findSub blankLine (before ++ stdoutOf records) = none →
      F records before = if maxHeaders < (before ++ stdoutOf records).length then tooLong
        else F [] (before ++ stdoutOf records) := by
  induction hki with
  | nil =>
    intro before hle _
    rw [stdoutOf_nil, append_nil, if_neg (Nat.not_lt.mpr hle)]
  | @output record records hk _ ih =>
    intro before hle hm
    rw [stdoutOf_cons hk, ← append_assoc] at hm ⊢
    rw [hs record records before hk (findSub_eq_none_of_append blankLine_ne_nil hm)]
    by_cases hl : maxHeaders < (before ++ record.content).length
    · have hmo : maxHeaders < (before ++ record.content ++ stdoutOf records).length := by
        simp only [length_append] at hl ⊢
        omega
      rw [if_pos hl, if_pos hmo]
    · rw [if_neg hl, ih _ (Nat.not_lt.mp hl) hm]
  | other hk hend _ ih =>
    intro before hle hm
    rw [stdoutOf_cons_other hk] at hm ⊢
    rw [ho _ _ before hk hend, ih before hle hm]

lemma relayAll_before (p : ResponseParams) (rest : List Received)
    (hki : NoEnd records) (before : Bytes)
    (hle : before.length ≤ p.maxHeaders)
    (hmi : findSub blankLine (before ++ stdoutOf records) = none) :
    relayAll p (records.map received ++ rest) { stdout := before } =
      if p.maxHeaders < (before ++ stdoutOf records).length then
        [.error badGateway "FastCGI headers too large"]
      else relayAll p rest { stdout := before ++ stdoutOf records } := by
  refine adds_up (F := fun records before => relayAll p (records.map received ++ rest)
    { stdout := before }) ?_ ?_ hki before hle hmi
  · intro record records before hk hm
    rw [map_cons, cons_append, relayAll, received, onRecord, if_pos hk, onStdout]
    by_cases hl : p.maxHeaders < (before ++ record.content).length
    · simp only [Bool.false_eq_true, if_false, if_pos hl, nil_append]
    · simp only [Bool.false_eq_true, if_false, if_neg hl, hm, nil_append]
  · intro record records before hk hend
    rw [map_cons, cons_append, relayAll, received, onRecord, if_neg hk, if_neg hend]
    rfl

lemma polled_before (maxHeaders : ℕ) (rest : List Record)
    (hki : NoEnd records) (before : Bytes)
    (hle : before.length ≤ maxHeaders)
    (hmi : findSub blankLine (before ++ stdoutOf records) = none) :
    polled maxHeaders (records ++ rest) before =
      if maxHeaders < (before ++ stdoutOf records).length then none
      else polled maxHeaders rest (before ++ stdoutOf records) := by
  refine adds_up (F := fun records before => polled maxHeaders (records ++ rest) before) ?_ ?_
    hki before hle hmi
  · intro record records before hk hm
    rw [cons_append, polled, pollRecord, if_pos hk]
    by_cases hl : maxHeaders < (before ++ record.content).length
    · simp only [if_pos hl]
    · simp only [if_neg hl, hm]
  · intro record records before hk hend
    rw [cons_append, polled, pollRecord, if_neg hk, if_neg hend]

/-- The record that completes the head. -/
lemma exists_head_record {position : ℕ} : ∀ before : Bytes,
    findSub blankLine before = none →
    findSub blankLine (before ++ stdoutOf records) = some position →
      ∃ pre record post, records = pre ++ record :: post ∧
        record.kind = stdout ∧
        findSub blankLine (before ++ stdoutOf pre) = none ∧
        findSub blankLine (before ++ stdoutOf pre ++ record.content) = some position := by
  induction records with
  | nil =>
    intro before hm hf
    rw [stdoutOf_nil, append_nil, hm] at hf
    cases hf
  | cons record records ih =>
    intro before hm hf
    by_cases hs : record.kind = stdout
    · rw [stdoutOf_cons hs, ← append_assoc] at hf
      cases hn : findSub blankLine (before ++ record.content) with
      | some i =>
        rw [findSub_append blankLine_ne_nil hn, Option.some.injEq] at hf
        subst hf
        exact ⟨[], record, records, rfl, hs, by simpa using hm, by simpa using hn⟩
      | none =>
        obtain ⟨pre, r, post, rfl, hr, hpre, hp⟩ := ih _ hn hf
        rw [append_assoc before, ← stdoutOf_cons hs] at hpre hp
        exact ⟨record :: pre, r, post, rfl, hr, hpre, hp⟩
    · rw [stdoutOf_cons_other hs] at hf
      obtain ⟨pre, r, post, rfl, hr, hpre, hp⟩ := ih _ hm hf
      rw [← stdoutOf_cons_other hs] at hpre hp
      exact ⟨record :: pre, r, post, rfl, hr, hpre, hp⟩

end Before

/-! ## From the head on -/

variable {limit : Option ℕ} {head : Head}

section Body

variable {p : ResponseParams} {relay : FcgiRelay} {records : List Record}

/-- What is written, as bytes. -/
def sentBytes (p : ResponseParams) (received : List Received) (relay : FcgiRelay) : Bytes :=
  (relayAll p received relay).flatMap Sent.bytes

lemma exceeds_mono {m n : ℕ} (hle : m ≤ n) (h : exceeds limit m = true) :
    exceeds limit n = true := by
  cases limit with
  | none => cases h
  | some k => exact decide_eq_true (Nat.lt_of_lt_of_le (of_decide_eq_true h) hle)

lemma fits_mono {m n : ℕ} (hle : m ≤ n) (h : exceeds limit n = false) : exceeds limit m = false :=
  Bool.eq_false_iff.mpr fun hm => Bool.eq_false_iff.mp h (exceeds_mono hle hm)

lemma exceeds_zero (limit : Option ℕ) : exceeds limit 0 = false := by
  cases limit <;> simp [exceeds]

lemma shown_append (p : ResponseParams) (xs ys : Bytes) :
    shown p (xs ++ ys) = shown p xs ++ shown p ys := by
  cases hh : p.head <;> simp [shown, hh]

lemma sentBytes_stdout {record : Record} {rest : List Received} (hs : relay.headersSent = true)
    (hg : relay.gzip = none) (hst : record.kind = stdout) :
    sentBytes p (received record :: rest) relay =
      if exceeds relay.contentLength (relay.bodyBytes + record.content.length) then
        HttpResponse.errorBytes badGateway "FastCGI body exceeds Content-Length"
      else shown p record.content ++
        sentBytes p rest { relay with bodyBytes := relay.bodyBytes + record.content.length } := by
  simp only [sentBytes, relayAll, received, onRecord, if_pos hst, onStdout, hs]
  by_cases hex : exceeds relay.contentLength (relay.bodyBytes + record.content.length) = true
  · simp [hex, Sent.bytes]
  · simp only [if_neg hex, relayBody, hg, shown]
    cases p.head <;> simp [Sent.bytes, hs]

/-- Other records do not count. -/
lemma sentBytes_other {record : Record} {rest : List Received}
    (hs : record.kind ≠ stdout) (hend : record.kind ≠ endRequest) :
    sentBytes p (received record :: rest) relay = sentBytes p rest relay := by
  rw [sentBytes, relayAll, received, onRecord, if_neg hs, if_neg hend]
  rfl

/-- A body that is not too long is written as it is; one that is too long is noticed, and in answer
to `HEAD` nothing was written of it. -/
lemma sentBytes_body (rest : List Received) (hk : NoEnd records) : ∀ relay : FcgiRelay,
    relay.headersSent = true → relay.gzip = none →
    exceeds relay.contentLength relay.bodyBytes = false →
    (exceeds relay.contentLength (relay.bodyBytes + (stdoutOf records).length) = true →
      p.head = true) →
      sentBytes p (records.map received ++ rest) relay =
        if exceeds relay.contentLength (relay.bodyBytes + (stdoutOf records).length) then
          HttpResponse.errorBytes badGateway "FastCGI body exceeds Content-Length"
        else shown p (stdoutOf records) ++ sentBytes p rest
          { relay with bodyBytes := relay.bodyBytes + (stdoutOf records).length } := by
  induction hk with
  | nil =>
    intro relay _ _ hf _
    simp [hf, shown]
  | @output record records hs _ ih =>
    intro relay hse hg _ hh
    rw [stdoutOf_cons hs, length_append, ← Nat.add_assoc] at hh ⊢
    rw [map_cons, cons_append, sentBytes_stdout hse hg hs]
    cases hn : exceeds relay.contentLength (relay.bodyBytes + record.content.length) with
    | true => rw [if_pos rfl, if_pos (exceeds_mono (Nat.le_add_right _ _) hn)]
    | false =>
      rw [if_neg Bool.false_ne_true, ih { relay with
        bodyBytes := relay.bodyBytes + record.content.length } hse hg hn hh]
      split_ifs with hex
      · rw [shown, if_pos (hh hex), nil_append]
      · rw [shown_append, append_assoc]
  | other hs hend _ ih =>
    intro relay hse hg hf hh
    rw [stdoutOf_cons_other hs] at hh ⊢
    rw [map_cons, cons_append, sentBytes_other hs hend, ih relay hse hg hf hh]

lemma drained_body (rest : List Record) (hk : NoEnd records) : ∀ k : ℕ,
    exceeds limit (k + (stdoutOf records).length) = false →
      drained limit k (records ++ rest) =
        (stdoutOf records ++ (drained limit (k + (stdoutOf records).length) rest).1,
          (drained limit (k + (stdoutOf records).length) rest).2) := by
  induction hk with
  | nil =>
    intro k _
    simp
  | output hs _ ih =>
    intro k hf
    rw [stdoutOf_cons hs, length_append, ← Nat.add_assoc] at *
    rw [cons_append, drained, if_pos hs, fits_mono (Nat.le_add_right _ _) hf,
      if_neg Bool.false_ne_true, ih _ hf, append_assoc]
  | other hs hend _ ih =>
    intro k hf
    rw [stdoutOf_cons_other hs] at hf ⊢
    rw [cons_append, drained, if_neg hs, if_neg hend, ih k hf]

end Body

/-! ## The record that completes the head -/

/-- The head is complete with `record`, at `position + 4`. -/
structure Completes (pre : List Record) (record : Record) (position : ℕ) : Prop where
  kinds : ∀ r ∈ pre, r.kind ≠ endRequest
  stdout : record.kind = stdout
  missing : findSub blankLine (stdoutOf pre) = none
  found : findSub blankLine (stdoutOf pre ++ record.content) = some position

/-- What of the body comes with the head. -/
def carried (pre : List Record) (record : Record) (position : ℕ) : Bytes :=
  (stdoutOf pre ++ record.content).drop (position + 4)

/-- The loop when the head was written with `k` bytes of the body. -/
def started (head : Head) (k : ℕ) : FcgiRelay :=
  { headersSent := true, contentLength := head.contentLength, bodyBytes := k }

variable {p : ResponseParams}

section Completes

variable {pre : List Record} {record : Record} {position : ℕ}

lemma Completes.length (h : Completes pre record position) :
    (stdoutOf pre ++ record.content).length = position + 4 + (carried pre record position).length ∧
      (stdoutOf pre).length < position + 4 ∧ (carried pre record position).length ≤ 65534 := by
  have hle := findSub_add_length_le blankLine_ne_nil h.found
  have hlt := length_lt_of_findSub_append blankLine_ne_nil h.missing h.found
  have hf := record.content_fits
  rw [show blankLine.length = 4 from rfl, length_append] at hle
  rw [show blankLine.length = 4 from rfl] at hlt
  rw [carried, length_drop, length_append]
  omega

lemma Completes.stdoutOf (h : Completes pre record position) (post : List Record) :
    FastCgi.stdoutOf (pre ++ record :: post) =
      FastCgi.stdoutOf pre ++ record.content ++ FastCgi.stdoutOf post := by
  rw [stdoutOf_append, stdoutOf_cons h.stdout, append_assoc]

lemma Completes.take (h : Completes pre record position) (post : List Record) :
    (FastCgi.stdoutOf (pre ++ record :: post)).take (position + 4) =
      (FastCgi.stdoutOf pre ++ record.content).take (position + 4) := by
  rw [h.stdoutOf, take_append_of_le_length]
  have hl := h.length.1
  omega

lemma Completes.drop (h : Completes pre record position) (post : List Record) :
    (FastCgi.stdoutOf (pre ++ record :: post)).drop (position + 4) =
      carried pre record position ++ FastCgi.stdoutOf post := by
  rw [h.stdoutOf, drop_append_of_le_length, carried]
  have hl := h.length.1
  omega

/-- What `stream_response` does with the head. -/
lemma relayAll_completes (h : Completes pre record position) (hg : p.acceptGzip = false)
    (rest : List Received) :
    relayAll p (pre.map received ++ received record :: rest) {} =
      if p.maxHeaders < position + 4 + (carried pre record position).length then
        [.error badGateway "FastCGI headers too large"]
      else match parseHead ((stdoutOf pre ++ record.content).take (position + 4)) with
        | .error _ => []
        | .ok head => .head (headText p head) ::
            if exceeds head.contentLength (carried pre record position).length then
              [.error badGateway "FastCGI body exceeds Content-Length"]
            else (if p.head then [] else [.body (carried pre record position)]) ++
              relayAll p rest (started head (carried pre record position).length) := by
  obtain ⟨hlen, hb, -⟩ := h.length
  rw [relayAll_before p _ (noEnd_of_forall h.kinds) [] (Nat.zero_le _) h.missing, nil_append, ← hlen]
  by_cases hl : p.maxHeaders < (stdoutOf pre ++ record.content).length
  · rw [if_pos hl]
    split_ifs with hp
    · rfl
    · simp only [relayAll, received, onRecord, if_pos h.stdout, onStdout, Bool.false_eq_true,
        if_false, if_pos hl, nil_append]
  · have hp : ¬p.maxHeaders < (stdoutOf pre).length := by
      omega
    simp only [if_neg hl, if_neg hp, relayAll, received, onRecord, if_pos h.stdout, onStdout,
      h.found, onHead]
    cases parseHead ((stdoutOf pre ++ record.content).take (position + 4)) with
    | error e => rfl
    | ok head =>
      have hc : p.compress head = false := by
        rw [ResponseParams.compress, hg, Bool.false_and, Bool.false_and]
      have ha : p.announced head = head.contentLength := by
        rw [ResponseParams.announced, hc, if_neg Bool.false_ne_true]
      have hca : (stdoutOf pre ++ record.content).drop (position + 4) =
          carried pre record position := rfl
      simp only [ha, hc, hca]
      cases exceeds head.contentLength (carried pre record position).length with
      | true => simp
      | false => cases hh : p.head <;> simp [relayBody, hh, started]

lemma sentBytes_completes (h : Completes pre record position) (hg : p.acceptGzip = false)
    (rest : List Received) :
    sentBytes p (pre.map received ++ received record :: rest) {} =
      if p.maxHeaders < position + 4 + (carried pre record position).length then
        HttpResponse.errorBytes badGateway "FastCGI headers too large"
      else match parseHead ((stdoutOf pre ++ record.content).take (position + 4)) with
        | .error _ => []
        | .ok head => utf8 (headText p head) ++
            if exceeds head.contentLength (carried pre record position).length then
              HttpResponse.errorBytes badGateway "FastCGI body exceeds Content-Length"
            else shown p (carried pre record position) ++
              sentBytes p rest (started head (carried pre record position).length) := by
  rw [sentBytes, relayAll_completes h hg]
  by_cases hl : p.maxHeaders < position + 4 + (carried pre record position).length
  · rw [if_pos hl, if_pos hl]
    exact append_nil _
  · rw [if_neg hl, if_neg hl]
    cases parseHead ((stdoutOf pre ++ record.content).take (position + 4)) with
    | error e => rfl
    | ok head =>
      cases hex : exceeds head.contentLength (carried pre record position).length with
      | true => simp [hex, Sent.bytes]
      | false => cases hh : p.head <;> simp [hex, Sent.bytes, shown, hh, sentBytes]

/-- What polling does with it. -/
lemma polled_completes (h : Completes pre record position) (maxHeaders : ℕ) (rest : List Record) :
    polled maxHeaders (pre ++ record :: rest) [] =
      if maxHeaders < position + 4 + (carried pre record position).length then none
      else match parseHead ((stdoutOf pre ++ record.content).take (position + 4)) with
        | .error _ => none
        | .ok head =>
          if exceeds head.contentLength (carried pre record position).length then none
          else some (head, carried pre record position, rest) := by
  obtain ⟨hlen, hb, -⟩ := h.length
  rw [polled_before maxHeaders _ (noEnd_of_forall h.kinds) [] (Nat.zero_le _) h.missing, nil_append, ← hlen]
  by_cases hl : maxHeaders < (stdoutOf pre ++ record.content).length
  · rw [if_pos hl]
    split_ifs with hp
    · rfl
    · rw [polled, pollRecord, if_pos h.stdout]
      simp only [if_pos hl]
  · have hp : ¬maxHeaders < (stdoutOf pre).length := by
      omega
    rw [if_neg hp, polled, pollRecord, if_pos h.stdout]
    simp only [if_neg hl, h.found, pollHead]
    cases parseHead ((stdoutOf pre ++ record.content).take (position + 4)) with
    | error e => rfl
    | ok head =>
      have hc : (stdoutOf pre ++ record.content).drop (position + 4) =
          carried pre record position := rfl
      by_cases hex : exceeds head.contentLength (carried pre record position).length = true
      · simp only [hc, if_pos hex]
      · simp only [hc, if_neg hex]

end Completes

/-! ## From the wire to the records -/

section Wire

variable {a : ResponseStream} {upstream : Source}

lemma sent_eq (p : ResponseParams) (s : Exchange) (hd : s.upstream.Delivers)
    (hb : s.upstream.bytes = a.bytes) :
    (stateOf ((streamResponse p).run s)).sent =
      s.sent ++ relayAll p (a.records.map received ++ [received a.last]) {} := by
  have hl : (a.records ++ [a.last]).length < s.upstream.bytes.length + 1 := by
    have hbr : FastCgiH2Reader.Brings { upstream := s.upstream } (a.records ++ [a.last]) :=
      hb
    have hle := FastCgiH2Reader.length_le_of_brings hbr
    simp only [length_nil] at hle
    omega
  rw [sent_streamResponse, deliveries_encode _ _ _ hd hb hl, map_append]
  rfl

lemma clientBytes_eq (p : ResponseParams) (s : Exchange) (hd : upstream.Delivers)
    (hb : upstream.bytes = a.bytes) :
    clientBytes p s upstream = sentBytes p (a.records.map received ++ [received a.last]) {} := by
  rw [clientBytes, sent_eq p { s with upstream, sent := [] } hd hb]
  rfl

/-- The body is not read: `HEAD`, a status without a body, or an empty one. -/
def bodyUnread (method : Method) (head : Head) : Bool :=
  method = .head || bodilessStatus head.status || head.contentLength = some 0

/-- What polling leads to: the rest of the body is that of the remaining records. -/
def h2Result (method : Method) : Option (Head × Bytes × List Record) →
    Option (StatusCode × Headers × Bytes × Bool)
  | none => none
  | some (head, body, rest) =>
    let new := HttpResponse.new (.fromU16 head.status)
    some (new.status, new.headers ++ head.headers,
      if bodyUnread method head then ([], true)
      else (body ++ (drained head.contentLength body.length rest).1,
        (drained head.contentLength body.length rest).2))

lemma h2Outcome_eq {maxHeaders : ℕ} {method : Method} {out : ℕ} (hout : 0 < out)
    (hd : upstream.Delivers) (hby : upstream.bytes = a.bytes) :
    h2Outcome maxHeaders method out upstream =
      h2Result method (polled maxHeaders (a.records ++ [a.last]) []) := by
  have hb : FastCgiH2Reader.Brings { upstream } (a.records ++ [a.last]) := hby
  have hp := @poll_brings _ { reader := { upstream }, maxHeaders, method } hb
  have ht : H2FastCgiPending.InTime { reader := { upstream }, maxHeaders, method } :=
    fun _ h => absurd h not_mem_nil
  rw [h2Outcome]
  cases hrun : poll.run { reader := { upstream }, maxHeaders, method } with
  | error e t =>
    have hn := wp_error hp hrun hd ht
    rw [hn]
    rfl
  | ok response t =>
    cases response with
    | none =>
      have hn := (wp_ok hp hrun).2 hd ht
      rw [hn]
      rfl
    | some response =>
      obtain ⟨head, body, rest, reader, hpo, rfl, hrest, hr, hs⟩ := wp_ok hp hrun
      rw [hpo, h2Result, readyResponse, bodyUnread]
      split_ifs with hu
      · rfl
      · have hre : reader.ready = [] := by rw [hr]
        have ho : reader.offset = 0 := by rw [hr]
        have hdo : reader.done = false := by rw [hr]
        have hdr := FastCgiH2Reader.drain_brings (r := { reader with
          ready := reader.ready ++ body, contentLength := head.contentLength,
          bodyBytes := body.length }) hout hrest (hs hd) ho hdo
        simp only [hre, nil_append] at hdr ⊢
        rw [hdr]

end Wire

/-! ## When boundaries make no difference -/

/-- No blank line; a head over the limit; or a limit that leaves room for the most that can come
with the head, and a head that is refused, or without `Content-Length`, or with a body that is not
longer than it says; in answer to `HEAD` the body may be longer if `Content-Length` covers what can
come with the head. -/
def boundariesInvisible (maxHeaders : ℕ) (method : Method) (stdout : Bytes) : Prop :=
  match findSub blankLine stdout with
  | none => True
  | some position =>
    maxHeaders < position + 4 ∨
      (min stdout.length (position + 4 + 65534) ≤ maxHeaders ∧
        match parseHead (stdout.take (position + 4)) with
        | .error _ => True
        | .ok head =>
          exceeds head.contentLength (stdout.drop (position + 4)).length = false ∨
            (method = .head ∧ exceeds head.contentLength 65534 = false))

instance (maxHeaders : ℕ) (method : Method) (stdout : Bytes) :
    Decidable (boundariesInvisible maxHeaders method stdout) := by
  unfold boundariesInvisible
  cases findSub blankLine stdout with
  | none => exact inferInstance
  | some position =>
    dsimp only
    cases parseHead (stdout.take (position + 4)) with
    | error _ => exact inferInstance
    | ok head => exact inferInstance

/-- What is then written for `stdout` and an end of content `last`. -/
def relayOf (p : ResponseParams) (stdout last : Bytes) : Bytes :=
  match findSub blankLine stdout with
  | none =>
    if p.maxHeaders < stdout.length then
      HttpResponse.errorBytes badGateway "FastCGI headers too large"
    else sentBytes p [.record endRequest last] { stdout }
  | some position =>
    if p.maxHeaders < position + 4 then
      HttpResponse.errorBytes badGateway "FastCGI headers too large"
    else match parseHead (stdout.take (position + 4)) with
      | .error _ => []
      | .ok head => utf8 (headText p head) ++
          if exceeds head.contentLength (stdout.drop (position + 4)).length then
            HttpResponse.errorBytes badGateway "FastCGI body exceeds Content-Length"
          else shown p (stdout.drop (position + 4)) ++
            sentBytes p [.record endRequest last]
              (started head (stdout.drop (position + 4)).length)

/-- And what is received over HTTP/2. -/
def h2Of (maxHeaders : ℕ) (method : Method) (stdout last : Bytes) :
    Option (StatusCode × Headers × Bytes × Bool) :=
  match findSub blankLine stdout with
  | none => none
  | some position =>
    if maxHeaders < position + 4 then none
    else match parseHead (stdout.take (position + 4)) with
      | .error _ => none
      | .ok head =>
        let new := HttpResponse.new (.fromU16 head.status)
        some (new.status, new.headers ++ head.headers,
          if bodyUnread method head then ([], true)
          else (stdout.drop (position + 4),
            last.length = 8 &&
              !head.contentLength.any (· ≠ (stdout.drop (position + 4)).length)))

lemma ResponseStream.not_end (a : ResponseStream) :
    ∀ record ∈ a.records, record.kind ≠ endRequest := by
  intro record hm hend
  rcases a.kinds record hm with h | h <;> exact absurd (h.symm.trans hend) (by decide)

lemma ResponseStream.noEnd (a : ResponseStream) : NoEnd a.records := noEnd_of_forall a.not_end

lemma ResponseStream.received_last (a : ResponseStream) :
    received a.last = .record endRequest a.last.content := by
  rw [received, a.ends]

/-- The record of a stream that completes its head. -/
lemma ResponseStream.completes (a : ResponseStream) {position : ℕ}
    (h : findSub blankLine a.stdout = some position) :
    ∃ pre record post, a.records = pre ++ record :: post ∧ Completes pre record position ∧
      (∀ r ∈ post, r.kind ≠ endRequest) ∧
      (stdoutOf pre ++ record.content).take (position + 4) = a.stdout.take (position + 4) ∧
      carried pre record position ++ stdoutOf post = a.stdout.drop (position + 4) ∧
      position + 4 + (carried pre record position).length ≤ a.stdout.length := by
  obtain ⟨pre, record, post, hre, hs, hm, hf⟩ :=
    @exists_head_record a.records position [] rfl h
  have hend := a.not_end
  rw [hre] at hend
  have hc : Completes pre record position :=
    ⟨fun r hr => hend r (mem_append_left _ hr), hs, hm, hf⟩
  have ha : a.stdout = stdoutOf pre ++ record.content ++ stdoutOf post := by
    rw [ResponseStream.stdout, hre, hc.stdoutOf]
  refine ⟨pre, record, post, hre, hc,
    fun r hr => hend r (mem_append_right _ (mem_cons_of_mem _ hr)), ?_, ?_, ?_⟩
  · rw [ResponseStream.stdout, hre, hc.take]
  · rw [ResponseStream.stdout, hre, hc.drop]
  · rw [ha, length_append, hc.length.1]
    exact Nat.le_add_right _ _

/-- Where the head that polling found is, and what comes after it. -/
lemma ResponseStream.of_polled (a : ResponseStream) {maxHeaders : ℕ} {body : Bytes}
    {rest : List Record}
    (h : polled maxHeaders (a.records ++ [a.last]) [] = some (head, body, rest)) :
    ∃ pre record post position, a.records = pre ++ record :: post ∧
      (∀ r ∈ post, r.kind ≠ endRequest) ∧ Completes pre record position ∧
      findSub blankLine a.stdout = some position ∧
      parseHead (a.stdout.take (position + 4)) = .ok head ∧
      position + 4 + (carried pre record position).length ≤ maxHeaders ∧
      exceeds head.contentLength (carried pre record position).length = false ∧
      body = carried pre record position ∧ rest = post ++ [a.last] := by
  cases hf : findSub blankLine a.stdout with
  | none =>
    have hb := polled_before maxHeaders [a.last] a.noEnd [] (Nat.zero_le _) hf
    have hend : a.last.kind ≠ Core.FastCgi.stdout := by rw [a.ends]; decide
    rw [h, polled, pollRecord, if_pos a.ends] at hb
    split_ifs at hb
  | some position =>
    obtain ⟨pre, record, post, hr, hc, hpo, ht, -, -⟩ := a.completes hf
    refine ⟨pre, record, post, position, hr, hpo, hc, rfl, ?_⟩
    rw [hr, append_assoc, cons_append, polled_completes hc, ht] at h
    split_ifs at h with hl
    cases hp : parseHead (a.stdout.take (position + 4)) with
    | error e =>
      rw [hp] at h
      cases h
    | ok found =>
      rw [hp] at h
      simp only at h
      split_ifs at h with hex
      obtain ⟨rfl, rfl, rfl⟩ : found = head ∧ _ = body ∧ _ = rest := by simpa using h
      exact ⟨rfl, Nat.not_lt.mp hl, Bool.eq_false_iff.mpr hex, rfl, rfl⟩

/-- If only parts of the body are written, they are the rest of the output, and as much as was
announced. -/
lemma relayAll_bodies {records : List Record} {last : Record} (hh : p.head = false)
    (hk : NoEnd records) (hla : last.kind = endRequest) :
    ∀ relay : FcgiRelay, relay.headersSent = true → relay.gzip = none →
    (∀ part ∈ relayAll p (records.map received ++ [received last]) relay, ∃ data, part = .body data) →
    (relayAll p (records.map received ++ [received last]) relay).flatMap Sent.bytes =
        stdoutOf records ∧
      relay.contentLength.any (· ≠ relay.bodyBytes + (stdoutOf records).length) = false := by
  induction hk with
  | nil =>
    intro relay hse hg hb
    have hs : last.kind ≠ stdout := by rw [hla]; decide
    simp only [map_nil, nil_append, relayAll, received, onRecord, if_neg hs,
      onEndRequest] at hb ⊢
    split_ifs at hb ⊢ with hl hm
    · obtain ⟨data, hd⟩ := hb _ (mem_singleton_self _)
      cases hd
    · obtain ⟨data, hd⟩ := hb _ (mem_singleton_self _)
      cases hd
    · exact ⟨by simp [onEnd, hse, hg], Bool.eq_false_iff.mpr hm⟩
  | @output record records hs _ ih =>
    intro relay hse hg hb
    rw [stdoutOf_cons hs, length_append, ← Nat.add_assoc]
    simp only [map_cons, cons_append, relayAll, received, onRecord, if_pos hs,
      onStdout, hse, if_true] at hb ⊢
    by_cases hex :
        exceeds relay.contentLength (relay.bodyBytes + record.content.length) = true
    · simp only [if_pos hex] at hb
      obtain ⟨data, hd⟩ := hb _ (mem_singleton_self _)
      cases hd
    · simp only [if_neg hex, relayBody, hh, hg] at hb ⊢
      obtain ⟨hr, hl⟩ := ih
        { relay with bodyBytes := relay.bodyBytes + record.content.length, gzip := none } hse
        rfl (fun part hp => hb part (mem_append_right _ hp))
      rw [flatMap_append]
      exact ⟨congrArg₂ _ (append_nil _) hr, hl⟩
  | other hs hend _ ih =>
    intro relay hse hg hb
    rw [stdoutOf_cons_other hs]
    simp only [map_cons, cons_append, relayAll, received, onRecord, if_neg hs,
      if_neg hend] at hb ⊢
    exact ih relay hse hg hb

section Invisible

variable {pre post : List Record} {record : Record} {position : ℕ}

/-- Under the limit, the part of the body that comes with the head is not too long. -/
lemma Completes.fits (h : Completes pre record position) {n : ℕ} {q : Prop}
    (hl : exceeds limit ((carried pre record position).length + n) = false ∨
      (q ∧ exceeds limit 65534 = false)) :
    exceeds limit (carried pre record position).length = false :=
  hl.elim (fits_mono (Nat.le_add_right _ _)) fun hh => fits_mono h.length.2.2 hh.2

/-- The whole body, from the head on. -/
lemma sentBytes_carried (h : Completes pre record position) (hp : NoEnd post) {body : Bytes}
    (hb : carried pre record position ++ stdoutOf post = body)
    (hl : exceeds head.contentLength body.length = false ∨
      (p.head = true ∧ exceeds head.contentLength 65534 = false)) (rest : List Received) :
    (if exceeds head.contentLength (carried pre record position).length then
        HttpResponse.errorBytes badGateway "FastCGI body exceeds Content-Length"
      else shown p (carried pre record position) ++
        sentBytes p (post.map received ++ rest)
          (started head (carried pre record position).length)) =
      if exceeds head.contentLength body.length then
        HttpResponse.errorBytes badGateway "FastCGI body exceeds Content-Length"
      else shown p body ++ sentBytes p rest (started head body.length) := by
  subst hb
  rw [length_append] at hl ⊢
  have hf := h.fits hl
  rw [hf, if_neg Bool.false_ne_true]
  have hh : exceeds head.contentLength ((carried pre record position).length +
      (stdoutOf post).length) = true → p.head = true := fun hex => by
    rw [hex] at hl
    exact (hl.resolve_left Bool.noConfusion).1
  have hb := sentBytes_body rest hp (started head _) rfl rfl hf hh
  split_ifs with hex
  · rw [shown, if_pos (hh hex)]
    exact hb.trans (if_pos hex)
  · rw [shown_append, append_assoc]
    exact congrArg _ (hb.trans (if_neg hex))

lemma drained_end {k : ℕ} {last : Record} (hend : last.kind = endRequest) :
    drained limit k [last] = ([], last.content.length = 8 && !limit.any (· ≠ k)) := by
  rw [drained, if_neg (by rw [hend]; decide), if_pos hend]

lemma h2Result_carried (h : Completes pre record position) (hp : NoEnd post) {method : Method}
    {body : Bytes} (hb : carried pre record position ++ stdoutOf post = body)
    (hl : exceeds head.contentLength body.length = false ∨
      (method = .head ∧ exceeds head.contentLength 65534 = false)) {last : Record}
    (hend : last.kind = endRequest) :
    (h2Result method
      (if exceeds head.contentLength (carried pre record position).length then none
        else some (head, carried pre record position, post ++ [last]))) =
      some ((HttpResponse.new (.fromU16 head.status)).status,
        (HttpResponse.new (.fromU16 head.status)).headers ++ head.headers,
        if bodyUnread method head then ([], true)
        else (body, last.content.length = 8 && !head.contentLength.any (· ≠ body.length))) := by
  subst hb
  rw [length_append] at hl ⊢
  rw [h.fits hl, if_neg Bool.false_ne_true, h2Result]
  rcases hl with ha | ⟨rfl, -⟩
  · rw [drained_body [last] hp _ ha, drained_end hend, append_nil]
  · rfl

variable {maxHeaders : ℕ} {method : Method} {a : ResponseStream}

/-- With no difference to see, a stream is relayed as its output and its end say. -/
lemma sentBytes_of_invisible (level : ℕ) (encoder : GzEncoder)
    (h : boundariesInvisible maxHeaders method a.stdout) :
    sentBytes (withoutGzip maxHeaders method level encoder)
        (a.records.map received ++ [received a.last]) {} =
      relayOf (withoutGzip maxHeaders method level encoder) a.stdout a.last.content := by
  rw [boundariesInvisible] at h
  rw [relayOf, a.received_last]
  cases hf : findSub blankLine a.stdout with
  | none =>
    rw [sentBytes, relayAll_before _ _ a.noEnd [] (Nat.zero_le _) hf]
    show List.flatMap Sent.bytes (if _ < a.stdout.length then _ else _) = _
    split_ifs
    · exact append_nil _
    · rfl
  | some position =>
    rw [hf] at h
    obtain ⟨pre, record, post, hr, hc, hpo, ht, hd, hto⟩ :=
      a.completes hf
    have hca := hc.length.2.2
    rw [hr, map_append, map_cons, append_assoc, cons_append,
      sentBytes_completes hc rfl, ht]
    show (if maxHeaders < _ then _ else _) = if maxHeaders < _ then _ else _
    rcases h with hs | ⟨hro, h⟩
    · rw [if_pos hs, if_pos (by omega)]
    · rw [if_neg (by omega), if_neg (by omega)]
      cases hp : parseHead (a.stdout.take (position + 4)) with
      | error e => rfl
      | ok head =>
        rw [hp] at h
        exact congrArg _ (sentBytes_carried hc (noEnd_of_forall hpo) hd
          (h.imp_right fun hh => ⟨decide_eq_true hh.1, hh.2⟩) _)

lemma h2Result_of_invisible (h : boundariesInvisible maxHeaders method a.stdout) :
    h2Result method (polled maxHeaders (a.records ++ [a.last]) []) =
      h2Of maxHeaders method a.stdout a.last.content := by
  rw [boundariesInvisible] at h
  rw [h2Of]
  cases hf : findSub blankLine a.stdout with
  | none =>
    rw [polled_before _ _ a.noEnd [] (Nat.zero_le _) hf]
    split_ifs
    · rfl
    · rw [polled, pollRecord, if_neg (by rw [a.ends]; decide), if_pos a.ends]
      rfl
  | some position =>
    rw [hf] at h
    obtain ⟨pre, record, post, hr, hc, hpo, ht, hd, hto⟩ :=
      a.completes hf
    have hca := hc.length.2.2
    rw [hr, append_assoc, cons_append, polled_completes hc, ht]
    rcases h with hs | ⟨hro, h⟩
    · rw [if_pos (by omega)]
      simp only [if_pos hs]
      rfl
    · rw [if_neg (by omega)]
      simp only [if_neg (show ¬maxHeaders < position + 4 by omega)]
      cases hp : parseHead (a.stdout.take (position + 4)) with
      | error e => rfl
      | ok head =>
        rw [hp] at h
        exact h2Result_carried hc (noEnd_of_forall hpo) hd h a.ends

end Invisible

/-! ## When they do -/

/-- A record of standard output. -/
def piece (content : Bytes) : Record :=
  { kind := stdout
    content := content.take 65535
    padding := []
    reserved := 0
    content_fits := Nat.lt_succ_of_le (length_take_le _ _)
    padding_fits := by decide }

lemma piece_kind (content : Bytes) : (piece content).kind = stdout := rfl

lemma not_end_of_mem_pieces {pieces : List Bytes} :
    ∀ record ∈ pieces.map piece, record.kind ≠ endRequest := by
  intro record hm
  obtain ⟨content, -, rfl⟩ := mem_map.mp hm
  rw [piece_kind]
  decide

/-- The end of a response that went well. -/
def endRecord : Record :=
  { kind := endRequest
    content := List.replicate 8 0
    padding := []
    reserved := 0
    content_fits := by decide
    padding_fits := by decide }

/-- The output `stdout`, whose head ends at `position + 4`: the last byte of the head goes with `m`
bytes of the body, and the rest of the body is cut after `k` bytes at least. -/
def piecesOf (stdout : Bytes) (position m k : ℕ) : List Bytes :=
  chunks 65535 (stdout.take (position + 3)) ++ (stdout.drop (position + 3)).take (m + 1) ::
    (chunks 65535 ((stdout.drop (position + 4 + m)).take k) ++
      chunks 65535 ((stdout.drop (position + 4 + m)).drop k))

/-- One record for each piece. -/
def streamOf (pieces : List Bytes) : ResponseStream :=
  { records := pieces.map piece
    last := endRecord
    kinds := by
      intro record hmem
      obtain ⟨content, -, rfl⟩ := mem_map.mp hmem
      exact .inl rfl
    ends := rfl }

lemma last_streamOf (pieces : List Bytes) : (streamOf pieces).last = endRecord := rfl

def cutStream (stdout : Bytes) (position m k : ℕ) : ResponseStream :=
  streamOf (piecesOf stdout position m k)

lemma stdoutOf_map_piece {pieces : List Bytes} (h : ∀ c ∈ pieces, c.length ≤ 65535) :
    stdoutOf (pieces.map piece) = pieces.flatten := by
  induction pieces with
  | nil => rfl
  | cons content pieces ih =>
    obtain ⟨hc, hp⟩ := forall_mem_cons.mp h
    have ht : (piece content).content = content := take_of_length_le hc
    rw [map_cons, stdoutOf_cons (piece_kind _), ih hp, flatten_cons, ht]

lemma stdoutOf_chunks (data : Bytes) : stdoutOf ((chunks 65535 data).map piece) = data := by
  rw [stdoutOf_map_piece fun c hc => (chunks_spec (by decide) data c hc).2, flatten_chunks]

section Visible

variable {stdout : Bytes} {position m k : ℕ}

lemma piece_content (hm : m ≤ 65534) :
    (piece ((stdout.drop (position + 3)).take (m + 1))).content =
      (stdout.drop (position + 3)).take (m + 1) :=
  take_of_length_le ((length_take_le _ _).trans (by omega))

lemma records_cutStream : (cutStream stdout position m k).records =
    (chunks 65535 (stdout.take (position + 3))).map piece ++
      piece ((stdout.drop (position + 3)).take (m + 1)) ::
        ((chunks 65535 ((stdout.drop (position + 4 + m)).take k)).map piece ++
          (chunks 65535 ((stdout.drop (position + 4 + m)).drop k)).map piece) := by
  simp [cutStream, streamOf, piecesOf]

lemma stdout_cutStream (hm : m ≤ 65534) : (cutStream stdout position m k).stdout = stdout := by
  rw [ResponseStream.stdout, records_cutStream, stdoutOf_append,
    stdoutOf_cons (piece_kind _), stdoutOf_append, stdoutOf_chunks, stdoutOf_chunks,
    stdoutOf_chunks, piece_content hm,
    take_append_drop, show position + 4 + m = position + 3 + (m + 1) by omega,
    ← append_assoc, ← take_add, take_append_drop]

lemma completes_cut (hf : findSub blankLine stdout = some position) (hm : m ≤ 65534) :
    Completes ((chunks 65535 (stdout.take (position + 3))).map piece)
      (piece ((stdout.drop (position + 3)).take (m + 1))) position := by
  refine ⟨not_end_of_mem_pieces, rfl, ?_, ?_⟩
  · rw [stdoutOf_chunks, findSub_take blankLine_ne_nil hf, if_neg]
    show ¬position + 4 ≤ position + 3
    omega
  · rw [stdoutOf_chunks, piece_content hm, ← take_add,
      findSub_take blankLine_ne_nil hf, if_pos]
    show position + 4 ≤ position + 3 + (m + 1)
    omega

lemma carried_cut (hm : m ≤ 65534) :
    carried ((chunks 65535 (stdout.take (position + 3))).map piece)
      (piece ((stdout.drop (position + 3)).take (m + 1))) position =
        (stdout.drop (position + 4)).take m := by
  rw [carried, stdoutOf_chunks, piece_content hm, ← take_add, drop_take]
  congr 1
  omega

lemma head_cut (hm : m ≤ 65534) :
    (stdoutOf ((chunks 65535 (stdout.take (position + 3))).map piece) ++
      (piece ((stdout.drop (position + 3)).take (m + 1))).content).take (position + 4) =
        stdout.take (position + 4) := by
  rw [stdoutOf_chunks, piece_content hm, ← take_add, take_take,
    Nat.min_eq_left (by omega)]

variable {maxHeaders : ℕ} {method : Method}

/-- A record that carries `m` bytes of the body with the head is refused if they take it over the
limit, or if they are more than announced. -/
lemma h2Result_cut (hf : findSub blankLine stdout = some position) (hm : m ≤ 65534)
    (hb : m ≤ (stdout.drop (position + 4)).length)
    (hp : parseHead (stdout.take (position + 4)) = .ok head) :
    (h2Result method (polled maxHeaders ((cutStream stdout position m k).records ++ [endRecord])
      [])).isSome = (!decide (maxHeaders < position + 4 + m) && !exceeds head.contentLength m) := by
  rw [records_cutStream, append_assoc, cons_append,
    polled_completes (completes_cut hf hm), carried_cut hm, head_cut hm, hp,
    length_take, Nat.min_eq_left hb]
  by_cases hl : maxHeaders < position + 4 + m
  · rw [if_pos hl, decide_eq_true hl]
    rfl
  · rw [decide_eq_false hl]
    dsimp only
    split_ifs with hex
    · rw [hex]
      rfl
    · rw [Bool.not_eq_true] at hex
      rw [hex]
      rfl

/-- A body that becomes too long after `k` bytes has been written up to there. -/
lemma sentBytes_cut (hf : findSub blankLine stdout = some position)
    (hg : p.acceptGzip = false) (hh : p.head = false) (hfits : position + 4 ≤ p.maxHeaders)
    (hp : parseHead (stdout.take (position + 4)) = .ok head) {n : ℕ}
    (hl : head.contentLength = some n) (hk : k ≤ n)
    (hn : n < k + min 65535 ((stdout.drop (position + 4)).length - k)) :
    sentBytes p ((cutStream stdout position 0 k).records.map received ++
        [received (cutStream stdout position 0 k).last]) {} =
      utf8 (headText p head) ++ ((stdout.drop (position + 4)).take k ++
        HttpResponse.errorBytes badGateway "FastCGI body exceeds Content-Length") := by
  have hs : ∀ data, shown p data = data := fun data => by
    rw [shown, hh, if_neg Bool.false_ne_true]
  have hex : ∀ length, exceeds head.contentLength length = decide (n < length) := fun length =>
    by rw [hl]; rfl
  have hlen : ((stdout.drop (position + 4)).take k).length = k := by
    rw [length_take]
    omega
  -- the record after the first `k` bytes of the body
  obtain ⟨others, hc⟩ : ∃ others, chunks 65535 ((stdout.drop (position + 4)).drop k) =
      ((stdout.drop (position + 4)).drop k).take 65535 :: others := by
    refine chunks_eq_cons _ fun hnil => ?_
    have := congrArg List.length hnil
    rw [length_drop, length_nil] at this
    omega
  rw [records_cutStream, map_append, map_cons, append_assoc, cons_append,
    sentBytes_completes (completes_cut hf (Nat.zero_le _)) hg, carried_cut (Nat.zero_le _),
    head_cut (Nat.zero_le _), hp, take_zero, length_nil, if_neg (by omega)]
  simp only [hex, Nat.not_lt_zero, decide_false, Bool.false_eq_true, if_false, hs,
    nil_append]
  have hcut : exceeds (started head 0).contentLength ((started head 0).bodyBytes +
      (stdoutOf ((chunks 65535 ((stdout.drop (position + 4)).take k)).map piece)).length) =
      false := by
    rw [stdoutOf_chunks, hlen]
    show exceeds head.contentLength (0 + k) = false
    rw [hex, decide_eq_false_iff_not]
    omega
  rw [map_append, append_assoc, sentBytes_body _ (noEnd_of_forall not_end_of_mem_pieces)
    (started head 0) rfl rfl (exceeds_zero _) (by rw [hcut]; exact Bool.noConfusion), hcut,
    if_neg Bool.false_ne_true, stdoutOf_chunks, hlen, hs, hc, map_cons, map_cons,
    cons_append, sentBytes_stdout rfl rfl (piece_kind _), if_pos]
  have hfi : (piece (((stdout.drop (position + 4)).drop k).take 65535)).content.length =
      min 65535 ((stdout.drop (position + 4)).length - k) := by
    simp only [piece, length_take, length_drop]
    omega
  show exceeds head.contentLength (0 + k + _) = true
  rw [hex, decide_eq_true_eq]
  omega

/-- A head that is no head is refused as too long if too much comes with it. -/
lemma sentBytes_cut_error (hf : findSub blankLine stdout = some position) (hm : m ≤ 65534)
    (hb : m ≤ (stdout.drop (position + 4)).length) (hg : p.acceptGzip = false) {e : IoError}
    (hp : parseHead (stdout.take (position + 4)) = .error e) :
    sentBytes p ((cutStream stdout position m 0).records.map received ++
        [received (cutStream stdout position m 0).last]) {} =
      if p.maxHeaders < position + 4 + m then
        HttpResponse.errorBytes badGateway "FastCGI headers too large"
      else [] := by
  rw [records_cutStream, map_append, map_cons, append_assoc, cons_append,
    sentBytes_completes (completes_cut hf hm) hg, carried_cut hm, head_cut hm, hp,
    length_take, Nat.min_eq_left hb]

lemma errorBytes_ne_nil :
    HttpResponse.errorBytes badGateway "FastCGI headers too large" ≠ [] := by
  decide

/-- A head that is good alone and refused with `m` bytes of the body. -/
lemma h2Result_cut_ne (hf : findSub blankLine stdout = some position)
    (hfi : position + 4 ≤ maxHeaders) (hp : parseHead (stdout.take (position + 4)) = .ok head)
    (hm : m ≤ 65534) (hb : m ≤ (stdout.drop (position + 4)).length)
    (hr : maxHeaders < position + 4 + m ∨ exceeds head.contentLength m = true) :
    h2Result method (polled maxHeaders ((cutStream stdout position 0 0).records ++ [endRecord]) []) ≠
      h2Result method
        (polled maxHeaders ((cutStream stdout position m 0).records ++ [endRecord]) []) := by
  intro heq
  have hs := congrArg Option.isSome heq
  rw [h2Result_cut hf (Nat.zero_le _) (Nat.zero_le _) hp, h2Result_cut hf hm hb hp,
    exceeds_zero, decide_eq_false (by omega : ¬maxHeaders < position + 4 + 0)] at hs
  rcases hr with hl | hex
  · rw [decide_eq_true hl] at hs
    cases hs
  · rw [hex, Bool.not_true, Bool.and_false] at hs
    cases hs

/-- Where boundaries are not invisible, there are two streams that show it. -/
lemma exists_visible (level : ℕ) (encoder : GzEncoder)
    (h : ¬boundariesInvisible maxHeaders method stdout) :
    ∃ a b : ResponseStream, a.stdout = stdout ∧ b.stdout = stdout ∧ a.last = b.last ∧
      (sentBytes (withoutGzip maxHeaders method level encoder)
            (a.records.map received ++ [received a.last]) {} ≠
          sentBytes (withoutGzip maxHeaders method level encoder)
            (b.records.map received ++ [received b.last]) {} ∨
        h2Result method (polled maxHeaders (a.records ++ [a.last]) []) ≠
          h2Result method (polled maxHeaders (b.records ++ [b.last]) [])) := by
  rw [boundariesInvisible] at h
  cases hf : findSub blankLine stdout with
  | none => exact absurd trivial (by rwa [hf] at h)
  | some position =>
    rw [hf, not_or, Nat.not_lt] at h
    obtain ⟨hfi, h⟩ := h
    have hlen : (stdout.drop (position + 4)).length = stdout.length - (position + 4) :=
      length_drop
    have ht := findSub_add_length_le blankLine_ne_nil hf
    by_cases hr : min stdout.length (position + 4 + 65534) ≤ maxHeaders
    · -- the body is longer than announced
      rw [not_and] at h
      cases hp : parseHead (stdout.take (position + 4)) with
      | error e => exact absurd trivial (by simpa only [hp] using h hr)
      | ok head =>
        have h := h hr
        rw [hp, not_or, Bool.not_eq_false, not_and, Bool.not_eq_false] at h
        obtain ⟨hlo, hme⟩ := h
        cases hl : head.contentLength with
        | none =>
          rw [hl] at hlo
          cases hlo
        | some n =>
          have hn : n < (stdout.drop (position + 4)).length := by
            rw [hl] at hlo
            exact of_decide_eq_true hlo
          by_cases hs : n < 65534
          · refine ⟨cutStream stdout position 0 0, cutStream stdout position (n + 1) 0,
              stdout_cutStream (Nat.zero_le _), stdout_cutStream (by omega), rfl, .inr ?_⟩
            refine h2Result_cut_ne hf hfi hp (by omega) (by omega) (.inr ?_)
            rw [hl]
            exact decide_eq_true (Nat.lt_succ_self n)
          · have hh : ¬method = .head := fun hh => by
              have hc := hme hh
              rw [hl] at hc
              exact hs (of_decide_eq_true hc)
            refine ⟨cutStream stdout position 0 n, cutStream stdout position 0 (n - 1),
              stdout_cutStream (Nat.zero_le _), stdout_cutStream (Nat.zero_le _), rfl,
              .inl fun heq => ?_⟩
            have hcut : ∀ k ≤ n, n < k + min 65535 ((stdout.drop (position + 4)).length - k) → _ :=
              fun k hk hne => sentBytes_cut (p := withoutGzip maxHeaders method level encoder)
                hf rfl (decide_eq_false hh) hfi hp hl hk hne
            have hb := congrArg List.length heq
            rw [hcut n le_rfl (by omega), hcut (n - 1) (by omega) (by omega)] at hb
            simp only [length_append, length_take] at hb
            omega
    · -- the limit leaves no room for what can come with the head
      set m := min (stdout.drop (position + 4)).length 65534 with hm
      refine ⟨cutStream stdout position 0 0, cutStream stdout position m 0,
        stdout_cutStream (Nat.zero_le _), stdout_cutStream (by omega), rfl, ?_⟩
      cases hp : parseHead (stdout.take (position + 4)) with
      | ok head =>
        exact .inr (h2Result_cut_ne hf hfi hp (by omega) (by omega) (.inl (by omega)))
      | error e =>
        refine .inl fun heq => errorBytes_ne_nil ?_
        have hcut : ∀ k ≤ 65534, k ≤ (stdout.drop (position + 4)).length → _ := fun k hk hbo =>
          sentBytes_cut_error (p := withoutGzip maxHeaders method level encoder) hf hk hbo
            rfl hp
        rw [hcut 0 (Nat.zero_le _) (Nat.zero_le _), hcut m (by omega) (by omega),
          if_neg (by exact Nat.not_lt.mpr hfi), if_pos] at heq
        · exact heq.symm
        · show maxHeaders < _
          omega

end Visible

/-- A source that delivers the bytes of a stream. -/
def ResponseStream.source (a : ResponseStream) : Source :=
  { bytes := a.bytes, choices := [], closed := true }

/-- Every two streams of one output and one end are relayed alike, over both versions of HTTP, if and
only if boundaries are invisible in that output. -/
theorem boundaries_iff (maxHeaders : ℕ) (method : Method) (level : ℕ) (encoder : GzEncoder)
    (s : Exchange) (stdout : Bytes) :
    (∀ (a b : ResponseStream) (upstream upstream' : Source) (out out' : ℕ),
      a.stdout = stdout → b.stdout = stdout → a.last.content = b.last.content →
      upstream.Delivers → upstream.bytes = a.bytes →
      upstream'.Delivers → upstream'.bytes = b.bytes → 0 < out → 0 < out' →
        clientBytes (withoutGzip maxHeaders method level encoder) s upstream =
            clientBytes (withoutGzip maxHeaders method level encoder) s upstream' ∧
          h2Outcome maxHeaders method out upstream = h2Outcome maxHeaders method out' upstream') ↔
      boundariesInvisible maxHeaders method stdout := by
  constructor
  · intro h
    by_contra hvisible
    obtain ⟨a, b, ha, hb, hlast, hdiffer⟩ := exists_visible level encoder hvisible
    have hdelivers : ∀ c : ResponseStream, c.source.Delivers := fun c _ hmem =>
      absurd hmem not_mem_nil
    obtain ⟨hclient, hh2⟩ := h a b a.source b.source 1 1 ha hb (congrArg Record.content hlast)
      (hdelivers a) rfl (hdelivers b) rfl Nat.one_pos Nat.one_pos
    rw [clientBytes_eq (a := a) _ s (hdelivers a) rfl, clientBytes_eq (a := b) _ s (hdelivers b) rfl]
      at hclient
    rw [h2Outcome_eq (a := a) Nat.one_pos (hdelivers a) rfl,
      h2Outcome_eq (a := b) Nat.one_pos (hdelivers b) rfl] at hh2
    exact hdiffer.elim (fun hne => hne hclient) (fun hne => hne hh2)
  · intro h a b upstream upstream' out out' ha hb hlast hdelivers hbytes hdelivers' hbytes' hout hout'
    rw [clientBytes_eq _ s hdelivers hbytes, clientBytes_eq _ s hdelivers' hbytes',
      h2Outcome_eq hout hdelivers hbytes, h2Outcome_eq hout' hdelivers' hbytes',
      sentBytes_of_invisible level encoder (by rwa [ha]),
      sentBytes_of_invisible level encoder (by rwa [hb]), h2Result_of_invisible (by rwa [ha]),
      h2Result_of_invisible (by rwa [hb]), ha, hb, hlast]
    exact ⟨rfl, rfl⟩

/-- A body of two bytes where one was announced, in three records and in one: over HTTP/1.1 the
first byte is written or not, and over HTTP/2 there is a response or none. -/
theorem boundary_seen :
    let apart := streamOf (["Content-Length: 1\r\n\r\n", "a", "b"].map fun text => utf8 text.toList)
    let whole := streamOf [utf8 "Content-Length: 1\r\n\r\nab".toList]
    let p := withoutGzip 1024 .get 6 plainParams.encoder
    apart.stdout = whole.stdout ∧ apart.last = whole.last ∧
      clientBytes p (exchangeWith []) apart.source ≠ clientBytes p (exchangeWith []) whole.source ∧
      h2Outcome 1024 .get 4096 apart.source ≠ h2Outcome 1024 .get 4096 whole.source := by
  intro apart whole p
  exact ⟨by decide +kernel, (last_streamOf _).trans (last_streamOf _).symm, by decide +kernel,
    by decide +kernel⟩

end FastCgi

end Veysrs
