import Veysrs.Proxy.Reuse

/-!
# The head of a compressed response

`stream_upstream_response` and `fastcgi::stream_response` may decide to compress what they relay.
The head is then to lose its `Content-Length` and to gain `Content-Encoding` and `Vary`; like any
relayed head it ends with `Connection: close` (`intendedHead`).

Both functions take the text apart into lines and join it again, after which the last line has no
line break of its own, and neither adds one behind `Vary: Accept-Encoding`.  The two last headers
run together: a head comes out as intended exactly when nothing is compressed
(`headText_eq_intendedHead_iff`, one for each function).
-/

namespace Veysrs

open Core List
open FastCgi (ResponseParams)

/-- What the head of a relayed response should be. -/
def intendedHead (compressed : Bool) (statusLine : Str) (headers : Headers) : Str :=
  let kept := if compressed then
      headers.filter fun h => !eqIgnoreAsciiCase h.1 "Content-Length".toList
    else headers
  let added := if compressed then ["Content-Encoding: gzip".toList, "Vary: Accept-Encoding".toList]
    else []
  joinLines (statusLine :: kept.map headerLine ++ added ++ ["Connection: close".toList, [], []])

lemma intendedHead_false (statusLine : Str) (headers : Headers) :
    intendedHead false statusLine headers =
      joinLines (statusLine :: headers.map headerLine ++ ["Connection: close".toList, [], []]) := by
  simp [intendedHead]

/-! ## The last lines of a head -/

lemma joinLines_suffix {lines more : List Str} (hne : more ≠ []) :
    joinLines more <:+ joinLines (lines ++ more) := by
  obtain ⟨m, rest, rfl⟩ := exists_cons_of_ne_nil hne
  induction lines with
  | nil => exact suffix_rfl
  | cons l lines ih =>
    obtain ⟨n, others, hl⟩ : ∃ n others, lines ++ m :: rest = n :: others :=
      exists_cons_of_ne_nil (by simp)
    rw [cons_append, hl, joinLines_cons_cons, ← hl]
    exact ih.trans ⟨l ++ ['\r', '\n'], by simp⟩

/-- In the intended head `Connection: close` is a line. -/
lemma closeLine_suffix (statusLine : Str) (headers : Headers) :
    "\r\nConnection: close\r\n\r\n".toList <:+ intendedHead true statusLine headers := by
  have hl : joinLines ["Content-Encoding: gzip".toList, "Vary: Accept-Encoding".toList,
      "Connection: close".toList, [], []] <:+ intendedHead true statusLine headers := by
    rw [intendedHead, append_assoc]
    exact joinLines_suffix (cons_ne_nil _ _)
  exact List.IsSuffix.trans (by decide) hl

/-- The last lines that are written instead. -/
def runTogether : List Str :=
  ["Content-Encoding: gzip".toList, "Vary: Accept-EncodingConnection: close".toList, [], []]

/-- A head whose last headers run together is not the intended one. -/
lemma joinLines_ne_intendedHead (lines : List Str) (statusLine : Str) (headers : Headers) :
    joinLines (lines ++ runTogether) ≠ intendedHead true statusLine headers := by
  intro heq
  have hl : joinLines runTogether <:+ joinLines (lines ++ runTogether) :=
    joinLines_suffix (cons_ne_nil _ _)
  have hr : "ngConnection: close\r\n\r\n".toList <:+ intendedHead true statusLine headers :=
    heq ▸ List.IsSuffix.trans (by decide) hl
  have hs := suffix_of_suffix_length_le hr (closeLine_suffix statusLine headers)
    (by decide)
  exact absurd (hs.eq_of_length (by decide)) (by decide)

namespace Proxy

lemma headText_eq_intendedHead_iff (p : ResponseParams) (head : UpstreamHead) :
    headText p head = intendedHead (compresses p head) head.statusLine head.headers ↔
      compresses p head = false := by
  cases hc : compresses p head with
  | true =>
    refine iff_of_false ?_ (by decide)
    rw [headText, if_pos hc]
    exact joinLines_ne_intendedHead _ _ _
  | false =>
    refine iff_of_true ?_ rfl
    rw [headText, if_neg (by rw [hc]; decide), intendedHead_false]

end Proxy

namespace FastCgi

def statusLine (status : ℕ) : Str :=
  "HTTP/1.1 ".toList ++ decimal status ++ ' ' :: (reasonPhrase status).toList

lemma headText_eq_intendedHead_iff (p : ResponseParams) (head : Head) :
    headText p head = intendedHead (p.compress head) (statusLine head.status) head.headers ↔
      p.compress head = false := by
  cases hc : p.compress head with
  | true =>
    refine iff_of_false ?_ (by decide)
    unfold headText
    rw [if_pos hc]
    exact joinLines_ne_intendedHead [_, _] _ _
  | false =>
    refine iff_of_true ?_ rfl
    unfold headText
    rw [if_neg (by rw [hc]; decide), intendedHead_false]
    rfl

end FastCgi

/-! ## The heads a call writes -/

/-- The head at the front of the bytes of a response. -/
def HeadOf {ε α : Type} (parse : Bytes → Except ε α) (all : Bytes) (head : α) : Prop :=
  ∃ position, findSub blankLine all = some position ∧ parse (all.take (position + 4)) = .ok head

/-- More bytes leave the head as it is. -/
lemma HeadOf.append {ε α : Type} {parse : Bytes → Except ε α} {all : Bytes} {head : α}
    (h : HeadOf parse all head) (more : Bytes) : HeadOf parse (all ++ more) head := by
  obtain ⟨position, hf, hp⟩ := h
  have hin : position + 4 ≤ all.length := findSub_add_length_le (by decide) hf
  refine ⟨position, findSub_append (by decide) hf more, ?_⟩
  rwa [take_append_of_le_length hin]

/-- Every head that is written on the way is one of those. -/
def HeadsAmong (F : Str → Prop) (s t : Exchange) : Prop :=
  ∃ parts, t.sent = s.sent ++ parts ∧ ∀ text, Sent.head text ∈ parts → F text

instance (F : Str → Prop) : IsPreorder Exchange (HeadsAmong F) where
  refl _ := ⟨[], by simp, by simp⟩
  trans _ _ _ := by
    rintro ⟨parts, hsent, hparts⟩ ⟨more, hsent', hmore⟩
    refine ⟨parts ++ more, by rw [hsent', hsent, append_assoc], fun text htext => ?_⟩
    exact (mem_append.mp htext).elim (hparts text) (hmore text)

section Among

variable {F : Str → Prop}

lemma headsAmong_send {parts : List Sent} (h : ∀ text, Sent.head text ∈ parts → F text) :
    Moves (HeadsAmong F) (send parts) := fun _ => ⟨parts, rfl, h⟩

lemma headsAmong_onUpstream {α : Type} (x : ReadM α) : Moves (HeadsAmong F) (onUpstream x) := by
  intro s
  simp only [wp, onUpstream, EStateM.run]
  cases x s.upstream <;> exact ⟨[], by simp, by simp⟩

end Among

namespace Proxy

variable {F : Str → Prop}

lemma carrying_headsAmong : Carrying (HeadsAmong F) :=
  ⟨headsAmong_onUpstream, fun _ _ => headsAmong_send (by simp), fun _ => headsAmong_send (by simp)⟩

/-- The one head that is written is that of the response. -/
lemma headsAmong_streamUpstreamResponse (p : ResponseParams) (s : Exchange) :
    HeadsAmong
      (fun text => ∃ head, HeadOf parseUpstreamResponse s.upstream.bytes head ∧
        text = headText p head) s (stateOf ((streamUpstreamResponse p).run s)) := by
  generalize hF : (fun text => ∃ head, HeadOf parseUpstreamResponse s.upstream.bytes head ∧
    text = headText p head) = F
  refine wp_stateOf ?_
  rw [streamUpstreamResponse]
  simp only [wp_bind, wp_get]
  refine wp_mono (readUpstreamHead_spec p.maxHeaders s.upstream _ 0 s (.refl _) fun _ _ => by omega)
    (fun found t ht => ?_) (fun _ t ht => ⟨[], by simpa using ht.1, by simp⟩)
  cases ht with
  | refused t message hs _ => exact ⟨_, hs, by simp⟩
  | found k position upstream ha hpo hi _ =>
    refine (carrying_headsAmong.relayUpstream fun head hp => headsAmong_send ?_)
      { s with upstream }
    rw [take_take, Nat.min_eq_left hi] at hp
    simp only [mem_singleton]
    rintro text ⟨⟩
    exact hF ▸ ⟨head, ⟨position, hpo, hp⟩, rfl⟩

end Proxy

namespace FastCgi

/-- What a record adds to the standard output. -/
def Received.stdout : Received → Bytes
  | .malformed => []
  | .record kind data => if kind = Core.FastCgi.stdout then data else []

section Records

variable {p : ResponseParams} {relay next : FcgiRelay} {received : Received} {text : Str}

lemma no_head_relayBody (relay : FcgiRelay) (data : Bytes) :
    Sent.head text ∉ (relayBody p relay data).1 := by
  unfold relayBody
  split_ifs
  · simp
  · cases relay.gzip <;> simp

lemma no_head_onEnd (relay : FcgiRelay) : Sent.head text ∉ onEnd p relay := by
  unfold onEnd
  split_ifs <;> cases relay.gzip <;> simp

lemma head_of_onHead {stdout : Bytes} {stop : ℕ} (h : Sent.head text ∈ (onHead p stdout stop).1) :
    ∃ head, parseHead (stdout.take stop) = .ok head ∧ text = headText p head := by
  unfold onHead at h
  cases hp : parseHead (stdout.take stop) with
  | error e =>
    rw [hp] at h
    cases h
  | ok head =>
    refine ⟨head, rfl, ?_⟩
    rw [hp] at h
    dsimp only at h
    cases hl : exceeds (p.announced head) (stdout.drop stop).length with
    | true =>
      rw [hl] at h
      simpa using h
    | false =>
      rw [hl] at h
      rcases mem_cons.mp h with h | h
      · simpa using h
      · exact absurd h (no_head_relayBody _ _)

lemma headersSent_of_onHead {stdout : Bytes} {stop : ℕ} {sent : List Sent}
    (h : onHead p stdout stop = (sent, .more next)) : next.headersSent = true := by
  unfold onHead at h
  cases hp : parseHead (stdout.take stop) with
  | error e =>
    rw [hp] at h
    cases h
  | ok head =>
    rw [hp] at h
    dsimp only at h
    cases hl : exceeds (p.announced head) (stdout.drop stop).length with
    | true =>
      rw [hl] at h
      cases h
    | false =>
      rw [hl] at h
      cases h
      rw [headersSent_relayBody]

/-- A record leads to a head if there has been none, and the head is that of the output. -/
lemma head_of_onRecord (h : Sent.head text ∈ (onRecord p relay received).1) :
    relay.headersSent = false ∧ ∃ head,
      HeadOf parseHead (relay.stdout ++ received.stdout) head ∧ text = headText p head := by
  cases received with
  | malformed => cases h
  | record kind data =>
    rw [onRecord] at h
    split_ifs at h with ho hend
    · rw [onStdout] at h
      cases hs : relay.headersSent with
      | true =>
        split_ifs at h
        · cases h
        · exact absurd h (no_head_relayBody _ _)
      | false =>
        rw [hs, if_neg (by decide)] at h
        dsimp only at h
        split_ifs at h
        · cases h
        · rw [Received.stdout, if_pos ho]
          cases hf : findSub blankLine (relay.stdout ++ data) with
          | none =>
            rw [hf] at h
            cases h
          | some position =>
            rw [hf] at h
            obtain ⟨head, hp, ht⟩ := head_of_onHead h
            exact ⟨rfl, head, ⟨position, hf, hp⟩, ht⟩
    · cases h
    · cases h

/-- As long as there is no head the output is kept. -/
lemma stdout_of_onRecord {sent : List Sent} (h : onRecord p relay received = (sent, .more next))
    (hn : next.headersSent = false) :
    relay.headersSent = false ∧ next.stdout = relay.stdout ++ received.stdout := by
  cases received with
  | malformed => cases h
  | record kind data =>
    rw [onRecord] at h
    split_ifs at h with ho hend
    · rw [onStdout] at h
      rw [Received.stdout, if_pos ho]
      cases hs : relay.headersSent with
      | true =>
        dsimp only at h
        split_ifs at h
        · cases h
        · have hb := headersSent_relayBody p relay data
          cases h
          rw [hb, hs] at hn
          cases hn
      | false =>
        rw [hs, if_neg (by decide)] at h
        dsimp only at h
        split_ifs at h
        · cases h
        · cases hf : findSub blankLine (relay.stdout ++ data) with
          | none =>
            rw [hf] at h
            cases h
            exact ⟨rfl, rfl⟩
          | some position =>
            rw [hf] at h
            rw [headersSent_of_onHead h] at hn
            cases hn
    · unfold onEndRequest at h
      split_ifs at h <;> cases h
    · cases h
      rw [Received.stdout, if_neg ho, append_nil]
      exact ⟨hn, rfl⟩

/-- Along a run the only head is that of all the output. -/
lemma head_of_relayAll (rs : List Received) : ∀ relay : FcgiRelay,
    Sent.head text ∈ relayAll p rs relay → relay.headersSent = false ∧ ∃ head,
      HeadOf parseHead (relay.stdout ++ rs.flatMap Received.stdout) head ∧ text = headText p head := by
  induction rs with
  | nil =>
    intro relay h
    cases h
  | cons received rs ih =>
    intro relay h
    rw [flatMap_cons, ← append_assoc]
    have hh : Sent.head text ∈ (onRecord p relay received).1 →
        relay.headersSent = false ∧ ∃ head,
          HeadOf parseHead (relay.stdout ++ received.stdout ++ rs.flatMap Received.stdout) head ∧
            text = headText p head := by
      intro h
      obtain ⟨hs, head, hof, ht⟩ := head_of_onRecord h
      exact ⟨hs, head, hof.append _, ht⟩
    rw [relayAll] at h
    cases hr : onRecord p relay received with
    | mk sent next =>
      rw [hr] at h hh
      cases next with
      | more next =>
        rcases mem_append.mp h with h | h
        · exact hh h
        · obtain ⟨hs, head, hof, ht⟩ := ih next h
          obtain ⟨hu, hst⟩ := stdout_of_onRecord hr hs
          exact ⟨hu, head, hst ▸ hof, ht⟩
      | done next =>
        rcases mem_append.mp h with h | h
        · exact hh h
        · exact absurd h (no_head_onEnd next)
      | refused message =>
        rcases mem_append.mp h with h | h
        · exact hh h
        · simp at h
      | aborted e => exact hh h

end Records

end FastCgi

/-! ## The result -/

/-- The head that either function writes is the intended one if and only if the response is not
compressed. -/
theorem relayed_head_iff (p : ResponseParams) (s : Exchange) :
    (∀ text, Sent.head text ∈
        (stateOf ((Proxy.streamUpstreamResponse p).run { s with sent := [] })).sent →
      ∃ head, HeadOf Proxy.parseUpstreamResponse s.upstream.bytes head ∧
        (text = intendedHead (Proxy.compresses p head) head.statusLine head.headers ↔
          Proxy.compresses p head = false)) ∧
    ∀ text, Sent.head text ∈
        (stateOf ((FastCgi.streamResponse p).run { s with sent := [] })).sent →
      ∃ head, HeadOf FastCgi.parseHead
          ((FastCgi.deliveries (s.upstream.bytes.length + 1) s.upstream).flatMap
            FastCgi.Received.stdout) head ∧
        (text = intendedHead (p.compress head) (FastCgi.statusLine head.status) head.headers ↔
          p.compress head = false) := by
  constructor
  · intro text htext
    obtain ⟨parts, hsent, hparts⟩ :=
      Proxy.headsAmong_streamUpstreamResponse p { s with sent := [] }
    rw [hsent, nil_append] at htext
    obtain ⟨head, hof, rfl⟩ := hparts text htext
    exact ⟨head, hof, Proxy.headText_eq_intendedHead_iff p head⟩
  · intro text htext
    rw [FastCgi.sent_streamResponse, nil_append] at htext
    obtain ⟨-, head, hof, rfl⟩ := FastCgi.head_of_relayAll _ _ htext
    exact ⟨head, hof, FastCgi.headText_eq_intendedHead_iff p head⟩

/-- A client that accepts compressed responses. -/
def gzipParams : ResponseParams := { FastCgi.plainParams with acceptGzip := true }

def textHead : String := "Content-Type: text/plain\r\n\r\n"

/-- `Connection: close` has become a part of `Vary`. -/
def brokenHead : Sent :=
  .head ("HTTP/1.1 200 OK\r\nContent-Type: text/plain\r\nContent-Encoding: gzip\r\n".toList ++
    "Vary: Accept-EncodingConnection: close\r\n\r\n".toList)

theorem compressed_head_broken :
    brokenHead ∈ (stateOf ((Proxy.streamUpstreamResponse gzipParams).run (FastCgi.exchangeWith
        (utf8 ("HTTP/1.1 200 OK\r\n".toList ++ textHead.toList))))).sent ∧
      brokenHead ∈ (stateOf ((FastCgi.streamResponse gzipParams).run (FastCgi.exchangeWith
        (FastCgi.wireRecord Core.FastCgi.stdout textHead)))).sent ∧
      brokenHead ≠ .head (intendedHead true "HTTP/1.1 200 OK".toList
        [("Content-Type".toList, "text/plain".toList)]) :=
  ⟨by decide +kernel, by decide +kernel, by decide +kernel⟩

end Veysrs
