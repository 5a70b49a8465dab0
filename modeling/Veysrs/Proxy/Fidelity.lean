import Mathlib.Data.Bool.AllAny
import Veysrs.FastCgi.Request
import Veysrs.Proxy.Response

/-!
# The body a client sees

`CompleteResponse` is a response as an upstream may send it: fields whose values need not be text,
and a body framed by its length, in chunks or by the end of the connection, or no body at all.
`faithful` asks that `stream_upstream_response` either gives up before it has written a head, or
that the client reads the upstream's body under the head that was written; a response without a
body it must not give up.

The upstream's framing is what decides.  A chunked body is written as it came, chunk sizes and all,
under a head that no longer says so; and after a head that has no body the length it announces is
waited for.  `fidelity_iff` says exactly which responses are relayed faithfully however they are
cut into reads.
-/

namespace Veysrs.Proxy

open Core List
open FastCgi (ResponseParams GzEncoder shown withoutGzip hexDigit)

/-! ## Responses on the wire -/

/-- A field of a response: a token, a colon, and bytes that stay on the line. -/
structure WireField where
  name : Str
  raw : Bytes
  token : name ≠ [] ∧ (utf8 name).all isHeaderNameByte = true
  line : ∀ b ∈ raw, b ≠ 0x0d ∧ b ≠ 0x0a ∧ b ≠ 0

namespace WireField

def bytes (field : WireField) : Bytes := utf8 field.name ++ 0x3a :: field.raw

def isText (field : WireField) : Bool := (fromUtf8 field.raw).isSome

/-- The value, if it is text. -/
def text (field : WireField) : Str := (fromUtf8 field.raw).getD []

def named (field : WireField) (name : String) : Bool :=
  eqIgnoreAsciiCase field.name name.toList

/-- The number that the value is. -/
def number (field : WireField) : Option ℕ :=
  if trim field.text ≠ [] ∧ (trim field.text).all Char.isDigit then
    some (Nat.ofDigitChars 10 (trim field.text) 0)
  else none

end WireField

def carries (name : String) (fields : List WireField) : Bool := fields.any (·.named name)

def lengthIn (fields : List WireField) : Option ℕ :=
  (fields.find? (·.named "Content-Length")).bind WireField.number

/-- A chunk's size in hexadecimal digits. -/
def chunkSize (digits : Bytes) : Option ℕ :=
  if digits = [] then none else digits.foldlM (fun n b => (hexDigit b).map (16 * n + ·)) 0

/-- What may follow the size on its line. -/
def ChunkExtension (bytes : Bytes) : Prop :=
  bytes = [] ∨ bytes.head? = some 0x3b ∧ ∀ b ∈ bytes, b ≠ 0x0d ∧ b ≠ 0x0a

/-- The second list is the first in the chunked transfer coding. -/
inductive Chunked : Bytes → Bytes → Prop
  | last (size extension : Bytes) (trailer : List WireField) : chunkSize size = some 0 →
      ChunkExtension extension →
      Chunked [] (byteLines ((size ++ extension) :: trailer.map WireField.bytes ++ [[], []]))
  | chunk (size extension data : Bytes) {body wire : Bytes} : chunkSize size = some data.length →
      data ≠ [] → ChunkExtension extension → Chunked body wire →
      Chunked (data ++ body) (size ++ extension ++ 0x0d :: 0x0a :: data ++ 0x0d :: 0x0a :: wire)

lemma Chunked.length_lt {body wire : Bytes} (h : Chunked body wire) : body.length < wire.length := by
  induction h with
  | last size extension trailer hs _ =>
    rw [byteLines_blank (cons_ne_nil _ _), length_append]
    exact Nat.lt_add_left _ (by decide)
  | chunk size extension data _ _ _ _ ih =>
    simp only [length_append, length_cons]
    omega

/-- How the bytes after a head, the last two arguments being the body and these bytes, are framed. -/
inductive Framed (headRequest : Bool) (status : ℕ) (fields : List WireField) (closed : Bool) :
    Bytes → Bytes → Prop
  | noBody : bodiless headRequest status = true → Framed headRequest status fields closed [] []
  | length {body : Bytes} : bodiless headRequest status = false →
      carries "Transfer-Encoding" fields = false → lengthIn fields = some body.length →
      Framed headRequest status fields closed body body
  | chunked {body wire : Bytes} : bodiless headRequest status = false →
      carries "Transfer-Encoding" fields = true → carries "Content-Length" fields = false →
      Chunked body wire → Framed headRequest status fields closed body wire
  | close {body : Bytes} : bodiless headRequest status = false →
      carries "Transfer-Encoding" fields = false → carries "Content-Length" fields = false →
      closed = true → Framed headRequest status fields closed body body

section Framed

variable {headRequest closed : Bool} {status : ℕ} {fields : List WireField} {body wire : Bytes}

lemma Framed.nil_of_bodiless (h : Framed headRequest status fields closed body wire)
    (hb : bodiless headRequest status = true) : body = [] ∧ wire = [] := by
  cases h with
  | noBody _ => exact ⟨rfl, rfl⟩
  | length h => rw [h] at hb; cases hb
  | chunked h => rw [h] at hb; cases hb
  | close h => rw [h] at hb; cases hb

lemma Framed.of_not_coded (h : Framed headRequest status fields closed body wire)
    (hb : bodiless headRequest status = false)
    (hc : carries "Transfer-Encoding" fields = false) : wire = body ∧
      (lengthIn fields = some body.length ∨
        carries "Content-Length" fields = false ∧ closed = true) := by
  cases h with
  | noBody h => rw [h] at hb; cases hb
  | length _ _ hl => exact ⟨rfl, .inl hl⟩
  | chunked _ h => rw [h] at hc; cases hc
  | close _ _ hl hcl => exact ⟨rfl, .inr ⟨hl, hcl⟩⟩

lemma Framed.of_coded (h : Framed headRequest status fields closed body wire)
    (hb : bodiless headRequest status = false)
    (hc : carries "Transfer-Encoding" fields = true) :
    carries "Content-Length" fields = false ∧ Chunked body wire := by
  cases h with
  | noBody h => rw [h] at hb; cases hb
  | length _ h => rw [h] at hc; cases hc
  | chunked _ _ hl hch => exact ⟨hl, hch⟩
  | close _ h => rw [h] at hc; cases hc

end Framed

/-- A complete final response, to a `HEAD` request or another. -/
structure CompleteResponse (headRequest : Bool) where
  status : ℕ
  reason : Bytes
  fields : List WireField
  /-- The body after decoding. -/
  body : Bytes
  /-- What follows the head. -/
  wire : Bytes
  closed : Bool
  final : 200 ≤ status ∧ status ≤ 599
  reasonLine : ∀ b ∈ reason, b ≠ 0x0d ∧ b ≠ 0x0a
  lengths : ∀ field ∈ fields, field.named "Content-Length" = true →
    ∃ n, field.number = some n ∧ lengthIn fields = some n
  codings : ∀ field ∈ fields, field.named "Transfer-Encoding" = true →
    eqIgnoreAsciiCase (trim field.text) "chunked".toList = true
  framed : Framed headRequest status fields closed body wire

namespace CompleteResponse

variable {headRequest : Bool}

def statusBytes (r : CompleteResponse headRequest) : Bytes :=
  utf8 ("HTTP/1.1 ".toList ++ decimal r.status) ++ 0x20 :: r.reason

def lines (r : CompleteResponse headRequest) : List Bytes :=
  r.statusBytes :: r.fields.map WireField.bytes

def head (r : CompleteResponse headRequest) : Bytes := byteLines (r.lines ++ [[], []])

def bytes (r : CompleteResponse headRequest) : Bytes := r.head ++ r.wire

def isText (r : CompleteResponse headRequest) : Bool :=
  (fromUtf8 r.reason).isSome && r.fields.all WireField.isText

end CompleteResponse

/-! ## The property -/

/-- The client was sent a relayed head, and the body it reads under it is the upstream's. -/
def SeesBody (headRequest : Bool) (body : Bytes) (sent : List Sent) : Prop :=
  (∃ text parts, sent = .head text :: parts) ∧
    (readReply (sent.flatMap Sent.bytes)).bind (Reply.body headRequest) = some body

/-- The client was told about the failure instead. -/
def ToldFailure (sent : List Sent) : Prop := ∃ message, sent = [.error .badGateway message]

/-- However the response is cut into reads, it is given up before a head is written, or relayed
with its body; and a response without a body is not given up. -/
def faithful (p : ResponseParams) (r : CompleteResponse p.head) : Prop :=
  ∀ s : Exchange, s.sent = [] → s.upstream.bytes = r.bytes → s.upstream.closed = r.closed →
    s.upstream.Delivers →
    wp (streamUpstreamResponse p) s
      (fun _ t => SeesBody p.head r.body t.sent ∨
        bodiless p.head r.status = false ∧ ToldFailure t.sent)
      (fun _ t => bodiless p.head r.status = false ∧ t.sent = [])

/-- A response without a body has a head that is text, is not too long and announces no bytes; one
with a body is not chunked, or it is given up for its head. -/
def relayable (maxHeaders : ℕ) {headRequest : Bool} (r : CompleteResponse headRequest) : Prop :=
  if bodiless headRequest r.status then
    r.isText = true ∧ r.head.length ≤ maxHeaders + 1 ∧
      (lengthIn r.fields = some 0 ∨ lengthIn r.fields = none ∧ r.closed = true)
  else carries "Transfer-Encoding" r.fields = false ∨ r.isText = false ∨
    maxHeaders + 4096 < r.head.length

instance (maxHeaders : ℕ) {headRequest : Bool} (r : CompleteResponse headRequest) :
    Decidable (relayable maxHeaders r) := by
  unfold relayable
  infer_instance

/-! ## Fields that are text -/

lemma toNat_of_isHeaderNameByte {b : UInt8} (h : isHeaderNameByte b = true) :
    32 < b.toNat ∧ b.toNat < 128 := by
  have hm : ∀ b ∈ utf8 "!#$%&'*+-.^_`|~".toList, 32 < b.toNat ∧ b.toNat < 128 :=
    all_iff_forall_prop.mp rfl
  simp only [isHeaderNameByte, Bool.or_eq_true, Bool.and_eq_true, decide_eq_true_eq,
    contains_iff_mem] at h
  rcases h with ((h | h) | h) | h
  · exact ⟨lt_of_lt_of_le (by decide) h.1, lt_of_le_of_lt h.2 (by decide)⟩
  · exact ⟨lt_of_lt_of_le (by decide) h.1, lt_of_le_of_lt h.2 (by decide)⟩
  · exact ⟨lt_of_lt_of_le (by decide) h.1, lt_of_le_of_lt h.2 (by decide)⟩
  · exact hm b h

namespace WireField

variable (field : WireField)

lemma tokenText : TokenText field.name :=
  ⟨field.token.1, all_eq_true.mpr fun b hb =>
    isTchar_of_isHeaderNameByte (all_eq_true.mp field.token.2 b hb)⟩

lemma trim_name : trim field.name = field.name := by
  refine trim_of_forall fun c hc => ?_
  obtain ⟨ha, hby⟩ :=
    (all_utf8_iff fun b hb => (toNat_of_isHeaderNameByte hb).2).mp field.token.2 c hc
  have hl := (toNat_of_isHeaderNameByte hby).1
  rw [byteOf_toNat ha] at hl
  simp only [isWhitespace, Bool.or_eq_false_iff, Bool.and_eq_false_iff, decide_eq_false_iff_not,
    beq_eq_false_iff_ne]
  omega

variable {field}

lemma utf8_text (h : field.isText = true) : utf8 field.text = field.raw := by
  obtain ⟨text, ht⟩ := Option.isSome_iff_exists.mp h
  rw [WireField.text, ht]
  exact utf8_of_fromUtf8 ht

/-- The line of a field that is text. -/
def textLine (field : WireField) : Str := field.name ++ ':' :: field.text

lemma utf8_textLine (h : field.isText = true) : utf8 field.textLine = field.bytes := by
  rw [textLine, utf8_append, utf8_cons, utf8_text h]
  rfl

lemma not_mem_text (h : field.isText = true) {c : Char} (hc : c = '\r' ∨ c = '\n' ∨ c = '\x00') :
    c ∉ field.text := by
  intro hm
  have hr : byteOf c ∈ field.raw := by
    rw [← utf8_text h]
    refine (mem_utf8_iff ?_).mpr hm
    rcases hc with rfl | rfl | rfl <;> decide
  obtain ⟨hcr, hlf, hn⟩ := field.line _ hr
  rcases hc with rfl | rfl | rfl
  · exact hcr rfl
  · exact hlf rfl
  · exact hn rfl

lemma validHeader_text (h : field.isText = true) :
    validHeader field.name (trim field.text) = true := by
  have hv : ∀ b ∈ utf8 (trim field.text), ¬(b == 0x0d || b == 0x0a || b == 0) = true := by
    intro b hb hbad
    have hno : ∀ c : Char, c.toNat < 128 → c = '\r' ∨ c = '\n' ∨ c = '\x00' → b ≠ byteOf c := by
      rintro c ha hc rfl
      exact not_mem_text h hc (mem_of_mem_trim ((mem_utf8_iff ha).mp hb))
    simp only [Bool.or_eq_true, beq_iff_eq] at hbad
    rcases hbad with (hb | hb) | hb
    · exact hno '\r' (by decide) (.inl rfl) hb
    · exact hno '\n' (by decide) (.inr (.inl rfl)) hb
    · exact hno '\x00' (by decide) (.inr (.inr rfl)) hb
  simp only [validHeader, Bool.and_eq_true, Bool.not_eq_true', isEmpty_eq_false_iff,
    any_eq_false]
  exact ⟨⟨field.token.1, field.token.2⟩, hv⟩

lemma splitOnce_textLine : splitOnce ':' field.textLine = some (field.name, field.text) :=
  splitOnce_append (field.tokenText.not_mem (by decide) (by decide)) _

/-- A field whose value is a number below `bound` is parsed as that number. -/
lemma parseUnsigned_text {n bound : ℕ} (h : field.number = some n) :
    parseUnsigned bound (trim field.text) = if n < bound then some n else none := by
  rw [number] at h
  split_ifs at h with hd
  cases h
  have hp : stripPlus (trim field.text) = trim field.text := by
    unfold stripPlus
    split
    · rename_i rest heq
      rw [heq] at hd
      exact absurd hd.2 (by simp [all_cons, show ('+' : Char).isDigit = false from rfl])
    · rfl
  rw [parseUnsigned, hp]
  split_ifs with ha hlt hlt
  · rfl
  · exact absurd ha.2.2 hlt
  · exact absurd ⟨hd.1, hd.2, hlt⟩ ha
  · rfl

end WireField

/-! ## The head is scanned -/

/-- The headers that are written. -/
def keptHeaders (fields : List WireField) : Headers :=
  (fields.filter fun field => !hopByHop field.name).map fun field => (field.name, trim field.text)

lemma not_hopByHop_of_length {name : Str} (h : eqIgnoreAsciiCase name "Content-Length".toList = true) :
    hopByHop name = false := by
  rw [eqIgnoreAsciiCase, beq_iff_eq] at h
  rw [hopByHop, toAsciiLowercase, h]
  decide

section Scan

variable {field : WireField} {head : UpstreamHead}

lemma keptHeaders_singleton (field : WireField) :
    keptHeaders [field] = if hopByHop field.name then [] else [(field.name, trim field.text)] := by
  rw [keptHeaders, filter_cons]
  cases hopByHop field.name <;> rfl

lemma scanUpstreamLine_textLine (ht : field.isText = true) :
    scanUpstreamLine head field.textLine =
      let close := head.close || asksToClose field.name (trim field.text)
      let headers := head.headers ++ keptHeaders [field]
      if field.named "Content-Length" then
        match parseUnsigned (2 ^ 64) (trim field.text) with
        | some length => .ok { head with close, headers, contentLength := some length }
        | none => .error (.failed (FastCgi.invalidData "invalid upstream content length"))
      else .ok { head with close, headers } := by
  rw [scanUpstreamLine, WireField.splitOnce_textLine, keptHeaders_singleton]
  simp only [field.trim_name, WireField.validHeader_text ht, WireField.named, Bool.not_true,
    Bool.false_or]
  cases hh : hopByHop field.name with
  | false =>
    cases parseUnsigned (2 ^ 64) (trim field.text) <;> simp only [Bool.false_eq_true, if_false]
  | true =>
    have hl : eqIgnoreAsciiCase field.name "Content-Length".toList = false := by
      rw [Bool.eq_false_iff]
      intro h
      rw [not_hopByHop_of_length h] at hh
      cases hh
    simp only [hl, if_true, append_nil, Bool.false_eq_true, if_false]

end Scan

/-- The scan keeps the headers in order and the length they agree on. -/
lemma foldlM_textLines {fields : List WireField} {n : ℕ} (hs : n < 2 ^ 64)
    (ht : ∀ field ∈ fields, field.isText = true)
    (hl : ∀ field ∈ fields, field.named "Content-Length" = true → field.number = some n) :
    ∀ head : UpstreamHead, ∃ close,
      (fields.map WireField.textLine).foldlM scanUpstreamLine head = .ok { head with
        headers := head.headers ++ keptHeaders fields
        contentLength := if carries "Content-Length" fields then some n else head.contentLength
        close } := by
  induction fields with
  | nil => exact fun head => ⟨head.close, by simp [keptHeaders, carries]; rfl⟩
  | cons field fields ih =>
    intro head
    obtain ⟨hf, ht⟩ := forall_mem_cons.mp ht
    obtain ⟨hnu, hl⟩ := forall_mem_cons.mp hl
    have hk : keptHeaders (field :: fields) = keptHeaders [field] ++ keptHeaders fields := by
      rw [← singleton_append, keptHeaders, filter_append, map_append]
      rfl
    rw [map_cons, foldlM_cons, scanUpstreamLine_textLine hf]
    by_cases hn : field.named "Content-Length" = true
    · simp only [hn, WireField.parseUnsigned_text (hnu hn), if_pos hs]
      obtain ⟨close, hr⟩ := ih ht hl _
      refine ⟨close, hr.trans ?_⟩
      simp [carries, hn, hk]
    · simp only [Bool.not_eq_true] at hn
      simp only [hn]
      obtain ⟨close, hr⟩ := ih ht hl _
      refine ⟨close, hr.trans ?_⟩
      simp [carries, hn, hk]

/-- A length that does not fit is an error. -/
lemma foldlM_textLines_large {fields : List WireField} {n : ℕ} (hla : 2 ^ 64 ≤ n)
    (ht : ∀ field ∈ fields, field.isText = true)
    (hl : ∀ field ∈ fields, field.named "Content-Length" = true → field.number = some n)
    (hc : carries "Content-Length" fields = true) : ∀ head : UpstreamHead, ∃ e,
      (fields.map WireField.textLine).foldlM scanUpstreamLine head = .error (.failed e) := by
  induction fields with
  | nil => cases hc
  | cons field fields ih =>
    intro head
    obtain ⟨hf, ht⟩ := forall_mem_cons.mp ht
    obtain ⟨hnu, hl⟩ := forall_mem_cons.mp hl
    rw [map_cons, foldlM_cons, scanUpstreamLine_textLine hf]
    by_cases hn : field.named "Content-Length" = true
    · simp only [hn, WireField.parseUnsigned_text (hnu hn),
        if_neg (Nat.not_lt.mpr hla)]
      exact ⟨_, rfl⟩
    · simp only [Bool.not_eq_true] at hn
      simp only [hn]
      rw [carries, any_cons, hn] at hc
      exact ih ht hl hc _

namespace CompleteResponse

section Text

variable {headRequest : Bool} {r : CompleteResponse headRequest}

def statusLine (r : CompleteResponse headRequest) : Str :=
  statusText r.status ((fromUtf8 r.reason).getD [])

lemma isText_iff : r.isText = true ↔
    (∃ reason, fromUtf8 r.reason = some reason) ∧ ∀ field ∈ r.fields, field.isText = true := by
  rw [isText, Bool.and_eq_true, Option.isSome_iff_exists, all_eq_true]

lemma utf8_statusLine (ht : r.isText = true) : utf8 r.statusLine = r.statusBytes := by
  obtain ⟨⟨reason, hr⟩, -⟩ := isText_iff.mp ht
  rw [statusLine, utf8_statusText, hr, Option.getD_some, utf8_of_fromUtf8 hr, statusBytes]

/-- The lines of a head that is text. -/
def textLines (r : CompleteResponse headRequest) : List Str :=
  r.statusLine :: r.fields.map WireField.textLine

lemma map_utf8_textLines (ht : r.isText = true) : r.textLines.map utf8 = r.lines := by
  rw [textLines, map_cons, utf8_statusLine ht, map_map]
  congr 1
  exact map_congr_left fun field hf =>
    WireField.utf8_textLine ((isText_iff.mp ht).2 field hf)

lemma head_eq (ht : r.isText = true) : r.head = utf8 (joinLines (r.textLines ++ [[], []])) := by
  rw [utf8_joinLines, map_append, map_utf8_textLines ht]
  rfl

lemma replyStatus_statusLine (r : CompleteResponse headRequest) :
    replyStatus r.statusLine = some r.status :=
  replyStatus_statusText _ (lt_of_le_of_lt r.final.2 (by decide))

lemma statusOf_statusLine (r : CompleteResponse headRequest) :
    statusOf r.statusLine = some r.status := by
  have hra : 100 ≤ r.status ∧ r.status ≤ 599 := ⟨by have := r.final.1; omega, r.final.2⟩
  have hr := replyStatus_statusLine r
  rw [replyStatus] at hr
  rw [statusOf, hr, Option.filter_some, if_pos (by simpa using hra)]

lemma oneLine_statusLine (ht : r.isText = true) : OneLine r.statusLine := by
  obtain ⟨⟨reason, hr⟩, -⟩ := isText_iff.mp ht
  refine oneLine_statusText _ fun hm => ?_
  rw [hr] at hm
  refine (r.reasonLine (byteOf '\r') ?_).1 rfl
  rw [← utf8_of_fromUtf8 hr]
  exact (mem_utf8_iff (by decide)).mpr hm

lemma oneLine_textLines (ht : r.isText = true) : ∀ l ∈ r.textLines, l ≠ [] ∧ OneLine l := by
  intro l hl
  rcases mem_cons.mp hl with rfl | hl
  · exact ⟨statusText_ne_nil _ _, oneLine_statusLine ht⟩
  · obtain ⟨field, hf, rfl⟩ := mem_map.mp hl
    refine ⟨by simp [WireField.textLine], oneLine_of_not_mem fun hm => ?_⟩
    rw [WireField.textLine, mem_append, mem_cons] at hm
    rcases hm with hm | hm | hm
    · exact field.tokenText.not_mem (by decide) (by decide) hm
    · cases hm
    · exact WireField.not_mem_text ((isText_iff.mp ht).2 field hf) (.inl rfl) hm

/-- What the parsing of a head that is text comes to: the scan of its lines. -/
lemma parse_head (ht : r.isText = true) : parseUpstreamResponse r.head =
    (r.fields.map WireField.textLine).foldlM scanUpstreamLine
      { statusLine := r.statusLine, http11 := true, status := r.status } := by
  have hs := splitOn_statusText r.status ((fromUtf8 r.reason).getD [])
  rw [← statusLine] at hs
  have hli : splitCrlf (joinLines (r.textLines ++ [[], []])) = r.textLines ++ [[], []] := by
    refine (splitCrlf_joinLines (by simp)).mpr fun l hl => ?_
    rcases mem_append.mp hl with hl | hl
    · exact (oneLine_textLines ht l hl).2
    · obtain rfl : l = [] := by simpa using hl
      exact oneLine_nil
  have hf : (r.fields.map WireField.textLine ++ [[], []]).filter (fun l => !l.isEmpty) =
      r.fields.map WireField.textLine := by
    rw [filter_append, filter_eq_self.mpr]
    · simp
    · intro l hl
      have := (oneLine_textLines ht l (mem_cons_of_mem _ hl)).1
      simpa using this
  rw [parseUpstreamResponse, head_eq ht, fromUtf8_utf8]
  simp only [hli]
  rw [textLines, cons_append]
  simp only [hs, statusOf_statusLine, hf, headD_cons, ne_eq, not_true_eq_false,
    false_and, if_false, decide_true]

lemma lengthIn_eq_none_iff (r : CompleteResponse headRequest) :
    lengthIn r.fields = none ↔ carries "Content-Length" r.fields = false := by
  constructor
  · intro hno
    rw [carries, any_eq_false]
    intro field hf hn
    obtain ⟨n, -, hl⟩ := r.lengths field hf hn
    rw [hno] at hl
    cases hl
  · intro hc
    rw [carries, any_eq_false] at hc
    rw [lengthIn, List.find?_eq_none.mpr hc]
    rfl

/-- A head that is text, with a length that fits, is accepted. -/
lemma parse_head_ok (ht : r.isText = true)
    (hs : ∀ n, lengthIn r.fields = some n → n < 2 ^ 64) :
    ∃ close, parseUpstreamResponse r.head = .ok
      { statusLine := r.statusLine, http11 := true, status := r.status
        headers := keptHeaders r.fields, contentLength := lengthIn r.fields, close } := by
  have hfi := (isText_iff.mp ht).2
  rw [parse_head ht]
  cases hl : lengthIn r.fields with
  | none =>
    have hc := (lengthIn_eq_none_iff r).mp hl
    obtain ⟨close, hok⟩ := foldlM_textLines (n := 0) (by decide) hfi
      (fun field hf hna => by
        obtain ⟨n, -, hn⟩ := r.lengths field hf hna
        rw [hl] at hn
        cases hn) _
    exact ⟨close, hok.trans (by rw [hc]; rfl)⟩
  | some n =>
    have hc : carries "Content-Length" r.fields = true := by
      rw [← Bool.not_eq_false, ← lengthIn_eq_none_iff, hl]
      exact Option.some_ne_none n
    obtain ⟨close, hok⟩ := foldlM_textLines (hs n hl) hfi
      (fun field hf hna => by
        obtain ⟨m, hm, hn⟩ := r.lengths field hf hna
        rw [hm, ← hn, hl]) _
    exact ⟨close, hok.trans (by rw [hc]; rfl)⟩

lemma parse_head_large (ht : r.isText = true) {n : ℕ} (hl : lengthIn r.fields = some n)
    (hla : 2 ^ 64 ≤ n) : ∃ e, parseUpstreamResponse r.head = .error (.failed e) := by
  rw [parse_head ht]
  refine foldlM_textLines_large hla (isText_iff.mp ht).2 (fun field hf hna => ?_) ?_ _
  · obtain ⟨m, hm, hn⟩ := r.lengths field hf hna
    rw [hm, ← hn, hl]
  · rw [← Bool.not_eq_false, ← lengthIn_eq_none_iff, hl]
    exact Option.some_ne_none n

/-- A head that is not text is not accepted. -/
lemma parse_head_notText (hte : r.isText = false) :
    ∃ e, parseUpstreamResponse r.head = .error (.failed e) := by
  suffices hn : fromUtf8 r.head = none from ⟨_, by rw [parseUpstreamResponse, hn]⟩
  rw [Option.eq_none_iff_forall_ne_some]
  intro text hs
  obtain ⟨texts, htex⟩ := exists_text_of_byteLines (utf8_of_fromUtf8 hs)
  have hli : ∀ l ∈ r.lines, ∃ t : Str, utf8 t = l := by
    intro l hl
    have hm : l ∈ texts.map utf8 := htex ▸ mem_append_left _ hl
    obtain ⟨t, -, ht⟩ := mem_map.mp hm
    exact ⟨t, ht⟩
  rw [← Bool.not_eq_true, isText_iff] at hte
  refine hte ⟨?_, fun field hf => ?_⟩
  · obtain ⟨t, ht⟩ := hli r.statusBytes mem_cons_self
    obtain ⟨-, -, reason, -, -, -, hr⟩ := utf8_eq_append (by decide) (ht.trans rfl)
    exact ⟨reason, by rw [← hr, fromUtf8_utf8]⟩
  · obtain ⟨t, ht⟩ := hli field.bytes (mem_cons_of_mem _ (mem_map_of_mem hf))
    obtain ⟨-, -, value, -, -, -, hv⟩ := utf8_eq_append (by decide) (ht.trans rfl)
    rw [WireField.isText, ← hv, fromUtf8_utf8]
    rfl

/-- Where the head ends, whatever its bytes. -/
lemma findSub_bytes (r : CompleteResponse headRequest) :
    ∃ position, r.head.length = position + 4 ∧ findSub blankLine r.bytes = some position := by
  have hne : r.lines ≠ [] := cons_ne_nil _ _
  have hli : ∀ l ∈ r.lines, l ≠ [] ∧ 0x0d ∉ l := by
    intro l hl
    rcases mem_cons.mp hl with rfl | hl
    · refine ⟨by simp [statusBytes], fun hb => ?_⟩
      rw [statusBytes, mem_append, mem_cons] at hb
      rcases hb with hb | hb | hb
      · have := (mem_utf8_iff (c := '\r') (by decide)).mp hb
        rcases mem_append.mp this with h | h
        · exact absurd h (by decide)
        · exact absurd (isDigit_of_mem_decimal h) (by decide)
      · cases hb
      · exact (r.reasonLine _ hb).1 rfl
    · obtain ⟨field, -, rfl⟩ := mem_map.mp hl
      refine ⟨by simp [WireField.bytes], fun hb => ?_⟩
      rw [WireField.bytes, mem_append, mem_cons] at hb
      rcases hb with hb | hb | hb
      · exact field.tokenText.not_mem (c := '\r') (by decide) (by decide)
          ((mem_utf8_iff (by decide)).mp hb)
      · cases hb
      · exact (field.line _ hb).1 rfl
  have hh : r.head = byteLines r.lines ++ blankLine := byteLines_blank hne
  refine ⟨(byteLines r.lines).length, by rw [hh, length_append]; rfl, ?_⟩
  rw [bytes, hh, append_assoc]
  exact findSub_byteLines hne hli r.wire

/-- The client reads the head that is written. -/
lemma readReply_head (ht : r.isText = true) (rest : Bytes) :
    readReply (utf8 (joinLines (r.statusLine ::
        (keptHeaders r.fields ++ [closeHeader]).map headerLine ++ [[], []])) ++ rest) =
      some { status := r.status, headers := keptHeaders r.fields ++ [closeHeader], rest } := by
  refine readReply_written (replyStatus_statusLine r)
    ⟨statusText_ne_nil _ _, oneLine_statusLine ht⟩ (fun header hh => ?_) rest
  rcases mem_append.mp hh with hh | hh
  · obtain ⟨field, hf, rfl⟩ := mem_map.mp hh
    have hv := (isText_iff.mp ht).2 field (mem_of_mem_filter hf)
    exact plainHeader_of_validHeader (WireField.validHeader_text hv) (trim_trim _)
  · obtain rfl := mem_singleton.mp hh
    exact plainHeader_closeHeader

end Text

/-! ## The client's body -/

lemma not_transferEncoding_keptHeaders (fields : List WireField) :
    (keptHeaders fields ++ [closeHeader]).any
      (fun h => eqIgnoreAsciiCase h.1 "Transfer-Encoding".toList) = false := by
  rw [any_eq_false]
  intro header hh heq
  rcases mem_append.mp hh with hh | hh
  · obtain ⟨field, hf, rfl⟩ := mem_map.mp hh
    have hhop := (mem_filter.mp hf).2
    rw [eqIgnoreAsciiCase, beq_iff_eq] at heq
    rw [hopByHop, toAsciiLowercase, heq] at hhop
    exact absurd hhop (by decide)
  · obtain rfl := mem_singleton.mp hh
    exact absurd heq (by decide)

lemma find_length_keptHeaders (fields : List WireField) :
    (keptHeaders fields ++ [closeHeader]).find?
        (fun h => eqIgnoreAsciiCase h.1 "Content-Length".toList) =
      (fields.find? (·.named "Content-Length")).map fun field => (field.name, trim field.text) := by
  have hc : [closeHeader].find?
      (fun h => eqIgnoreAsciiCase h.1 "Content-Length".toList) = none := by decide
  rw [List.find?_append, hc, Option.or_none, keptHeaders, List.find?_map, List.find?_filter]
  congr 2
  funext field
  rw [Bool.eq_iff_iff, decide_eq_true_eq, Bool.not_eq_true']
  exact ⟨And.right, fun hl => ⟨not_hopByHop_of_length hl, hl⟩⟩

/-- Under the head that is written, the client finds the bytes that were relayed. -/
lemma body_reply {p : ResponseParams} (r : CompleteResponse p.head)
    (hs : ∀ n, lengthIn r.fields = some n → n < 2 ^ 64)
    (hen : BodyEnds (lengthIn r.fields) r.wire r.closed) :
    Reply.body p.head { status := r.status, headers := keptHeaders r.fields ++ [closeHeader]
                        rest := shown p (bodyIn (lengthIn r.fields) r.wire) } =
      some (if bodiless p.head r.status then [] else bodyIn (lengthIn r.fields) r.wire) := by
  rw [Reply.body]
  cases hb : bodiless p.head r.status with
  | true => rfl
  | false =>
    have hh : p.head = false := by
      simp only [bodiless, Bool.or_eq_false_iff] at hb
      exact hb.1.1.1
    simp only [Bool.false_eq_true, if_false, not_transferEncoding_keptHeaders,
      find_length_keptHeaders, shown, hh]
    cases hf : r.fields.find? (·.named "Content-Length") with
    | none => rfl
    | some field =>
      have hna := List.find?_some hf
      obtain ⟨n, hn, hl⟩ := r.lengths field (mem_of_find?_eq_some hf) hna
      rw [hl] at hen ⊢
      have hlen : n ≤ r.wire.length := hen
      simp only [Option.map_some, WireField.parseUnsigned_text hn,
        if_pos (hs n hl), Option.bind_some, bodyIn, length_take,
        Nat.min_eq_left hlen, le_refl, if_true, take_take, Nat.min_self]

/-! ## The response is relayed -/

section Relay

/-- The bytes of a head that has been found, and what comes after it. -/
lemma take_head (r : CompleteResponse headRequest) {k : ℕ} (hk : r.head.length ≤ k) :
    (r.bytes.take k).take r.head.length = r.head ∧
      (r.bytes.take k).drop r.head.length ++ r.bytes.drop k = r.wire := by
  constructor
  · rw [take_take, Nat.min_eq_left hk, bytes, take_left]
  · rw [← drop_append_of_le_length, take_append_drop, bytes, drop_left]
    rw [length_take, bytes, length_append]
    omega

/-- What happens once the head has been found: it is not accepted, or it is written, and then the
end of the body decides. -/
lemma relayUpstream_cases {p : ResponseParams} (hpl : p.acceptGzip = false)
    (r : CompleteResponse p.head) {s : Exchange} (hse : s.sent = []) {k : ℕ}
    (hk : r.head.length ≤ k) (hb : s.upstream.bytes = r.bytes.drop k)
    (hcl : s.upstream.closed = r.closed) (hd : s.upstream.Delivers) :
    let accepted := r.isText = true ∧ ∀ n, lengthIn r.fields = some n → n < 2 ^ 64
    wp (relayUpstream p (r.bytes.take k) r.head.length) s
      (fun _ t => accepted ∧ BodyEnds (lengthIn r.fields) r.wire r.closed ∧
        (∃ text parts, t.sent = .head text :: parts) ∧
        (readReply (t.sent.flatMap Sent.bytes)).bind (Reply.body p.head) =
          some (if bodiless p.head r.status then [] else bodyIn (lengthIn r.fields) r.wire))
      (fun _ t => ¬accepted ∧ t.sent = [] ∨
        accepted ∧ ¬BodyEnds (lengthIn r.fields) r.wire r.closed ∧ t.sent ≠ []) := by
  intro accepted
  obtain ⟨hta, hdr⟩ := take_head r hk
  by_cases ha : accepted
  · obtain ⟨hte, hs⟩ := ha
    obtain ⟨close, hp⟩ := parse_head_ok hte hs
    rw [← hta] at hp
    have hc : compresses p { statusLine := r.statusLine, http11 := true, status := r.status
                             headers := keptHeaders r.fields
                             contentLength := lengthIn r.fields, close } = false := by
      rw [compresses, hpl, Bool.false_and, Bool.false_and]
    refine wp_mono (relayUpstream_spec hp hc s) (fun _ t ht => ?_) (fun _ t ht => ?_)
    · rw [hb, hcl, hdr] at ht
      obtain ⟨hen, parts, ht, hpa⟩ := ht
      rw [hse, nil_append] at ht
      refine ⟨⟨hte, hs⟩, hen, ⟨_, parts, ht⟩, ?_⟩
      rw [ht, flatMap_cons, hpa, Sent.bytes, headText_eq hc, readReply_head hte,
        Option.bind_some, body_reply r hs hen]
    · rw [hb, hcl, hdr] at ht
      obtain ⟨hen, parts, ht⟩ := ht
      refine .inr ⟨⟨hte, hs⟩, fun h => hen ⟨hd, h⟩, ?_⟩
      rw [ht]
      simp
  · have hf : ∃ e, parseUpstreamResponse r.head = .error (.failed e) := by
      by_cases hte : r.isText = true
      · obtain ⟨n, hn⟩ := not_forall.mp fun h => ha ⟨hte, h⟩
        rw [Classical.not_imp, Nat.not_lt] at hn
        exact parse_head_large hte hn.1 hn.2
      · exact parse_head_notText (Bool.not_eq_true _ ▸ hte)
    obtain ⟨e, hp⟩ := hf
    rw [relayUpstream, hta, hp]
    exact .inl ⟨ha, hse⟩

variable {p : ResponseParams} {r : CompleteResponse p.head}

/-- A response with a body that is not chunked has its end, and its body is what is relayed. -/
lemma bodyEnds_of_framed (hb : bodiless p.head r.status = false)
    (hco : carries "Transfer-Encoding" r.fields = false) :
    BodyEnds (lengthIn r.fields) r.wire r.closed ∧ bodyIn (lengthIn r.fields) r.wire = r.body := by
  obtain ⟨hw, hl | ⟨hl, hc⟩⟩ := r.framed.of_not_coded hb hco
  · rw [hw, hl]
    exact ⟨le_rfl, take_length⟩
  · rw [hw, (lengthIn_eq_none_iff r).mpr hl]
    exact ⟨hc, rfl⟩

/-- A response without a body has an end if it announces no bytes. -/
lemma bodyEnds_bodiless_iff (hb : bodiless p.head r.status = true) :
    r.body = [] ∧ (BodyEnds (lengthIn r.fields) r.wire r.closed ↔
      lengthIn r.fields = some 0 ∨ lengthIn r.fields = none ∧ r.closed = true) := by
  obtain ⟨hn, hw⟩ := r.framed.nil_of_bodiless hb
  refine ⟨hn, ?_⟩
  rw [hw]
  cases lengthIn r.fields with
  | none => simp [BodyEnds]
  | some n => simp [BodyEnds]

lemma faithful_of_relayable (hpl : p.acceptGzip = false) (h : relayable p.maxHeaders r) :
    faithful p r := by
  intro s hs hby hc hd
  obtain ⟨position, hlen, hf⟩ := findSub_bytes r
  rw [streamUpstreamResponse]
  simp only [wp_bind, wp_get]
  refine wp_mono (readUpstreamHead_spec p.maxHeaders s.upstream _ 0 s (.refl _) fun _ _ => by omega)
    (fun found t ht => ?_) (fun e t ht => ?_)
  swap
  · rw [← hby, ht.2 hd (Nat.lt_succ_self _)] at hf
    cases hf
  cases ht with
  | refused t message ht hlo =>
    -- too long a head is refused only where a body follows
    refine .inr ⟨?_, _, by rw [ht, hs, nil_append]⟩
    rw [← Bool.not_eq_true]
    intro hb
    rw [relayable, if_pos hb] at h
    have := hlo position (hby ▸ hf)
    omega
  | found k position' upstream haf hp hk hfi =>
    rw [hby] at hp ⊢
    cases hf.symm.trans hp
    rw [← hlen] at hk ⊢
    refine wp_mono (relayUpstream_cases (s := { s with upstream }) hpl r hs hk
        (hby ▸ haf.bytes) (haf.closed.trans hc) (haf.delivers hd))
      (fun _ t ht => .inl ?_) (fun _ t ht => ?_)
    · obtain ⟨ha, hen, hh, hr⟩ := ht
      refine ⟨hh, hr.trans ?_⟩
      cases hb : bodiless p.head r.status with
      | true => rw [(bodyEnds_bodiless_iff hb).1]; rfl
      | false =>
        rw [relayable, hb] at h
        rcases h with h | h | h
        · exact congrArg some (bodyEnds_of_framed hb h).2
        · rw [ha.1] at h
          cases h
        · omega
    · cases hb : bodiless p.head r.status with
      | true =>
        rw [relayable, if_pos hb] at h
        obtain ⟨hte, -, hl⟩ := h
        have hen := (bodyEnds_bodiless_iff hb).2.mpr hl
        rcases ht with ht | ht
        · refine absurd ⟨hte, fun n hn => ?_⟩ ht.1
          rcases hl with hl | hl
          · rw [hn, Option.some.injEq] at hl
            rw [hl]
            decide
          · rw [hn] at hl
            cases hl.1
        · exact absurd hen ht.2.1
      | false =>
        rw [relayable, hb] at h
        rcases ht with ht | ⟨ha, hen, -⟩
        · exact ⟨rfl, ht.2⟩
        · rcases h with h | h | h
          · exact absurd (bodyEnds_of_framed hb h).1 hen
          · rw [ha.1] at h
            cases h
          · omega

/-- An exchange with an upstream that sends the response in reads of the sizes chosen. -/
def exchangeOf (r : CompleteResponse headRequest) (choices : List ReadChoice) : Exchange where
  client := ⟨[], [], true⟩
  buffered := []
  sent := []
  upstream := ⟨r.bytes, choices, r.closed⟩
  written := []

lemma delivers_replicate (r : CompleteResponse headRequest) (m : ℕ) :
    (exchangeOf r (List.replicate m (.upTo 1))).upstream.Delivers := by
  intro choice hc
  exact ⟨1, eq_of_mem_replicate hc⟩

/-- Nobody is told about a failure of a response without a body. -/
lemma head_le_of_faithful (hb : bodiless p.head r.status = true) (h : faithful p r) :
    r.head.length ≤ p.maxHeaders + 1 := by
  by_contra hn
  obtain ⟨position, hlen, hfo⟩ := findSub_bytes r
  have hl : p.maxHeaders + 1 < position + 4 := by omega
  have hrun := h (exchangeOf r (List.replicate (p.maxHeaders + 1) (.upTo 1))) rfl rfl rfl
    (delivers_replicate r _)
  rw [streamUpstreamResponse] at hrun
  simp only [wp_bind] at hrun
  have hr := (readUpstreamHead_refused (s := exchangeOf r []) hfo r.closed hl).mp hrun
  rcases hr with ⟨⟨text, parts, hs⟩, -⟩ | ⟨hf, -⟩
  · cases hs
  · rw [hb] at hf
    cases hf

/-- Some way of cutting a response into reads, if its head is not much too long, gets it as far as
its head. -/
lemma relayUpstream_of_faithful (hfi : r.head.length ≤ p.maxHeaders + 4096) (h : faithful p r) :
    ∃ k s, r.head.length ≤ k ∧ s.sent = [] ∧ s.upstream.bytes = r.bytes.drop k ∧
      s.upstream.closed = r.closed ∧ s.upstream.Delivers ∧
      wp (relayUpstream p (r.bytes.take k) r.head.length) s
        (fun _ t => SeesBody p.head r.body t.sent ∨
          bodiless p.head r.status = false ∧ ToldFailure t.sent)
        (fun _ t => bodiless p.head r.status = false ∧ t.sent = []) := by
  obtain ⟨position, hl, hf⟩ := findSub_bytes r
  obtain ⟨m, k, hm, hb, hk, hin⟩ : ∃ m k, m ≤ p.maxHeaders ∧ m < position + 4 ∧
      k = m + 4096 ∧ position + 4 ≤ k :=
    ⟨position + 4 - 4096, _, by omega, by omega, rfl, by omega⟩
  have hrun := h (exchangeOf r (List.replicate m (.upTo 1))) rfl rfl rfl (delivers_replicate r _)
  rw [streamUpstreamResponse] at hrun
  simp only [wp_bind] at hrun
  have hr := (readUpstreamHead_found (s := exchangeOf r []) hf r.closed hm hb hk
    hin).mp hrun
  rw [← hl] at hr hin
  exact ⟨k, _, hin, rfl, rfl, rfl, fun _ hmem => absurd hmem not_mem_nil, hr⟩

lemma relayable_of_faithful (hp : p.acceptGzip = false) (h : faithful p r) :
    relayable p.maxHeaders r := by
  rw [relayable]
  cases hb : bodiless p.head r.status with
  | true =>
    have hlo := head_le_of_faithful hb h
    obtain ⟨k, s, hk, hse, hd, hc, hdel, hrun⟩ :=
      relayUpstream_of_faithful (by omega) h
    have hca := relayUpstream_cases hp r hse hk hd hc hdel
    by_contra hnot
    refine not_wp_false _ s (wp_mono (wp_and hrun hca) (fun _ t ht => ?_) (fun _ t ht => ?_))
    · obtain ⟨-, ha, hen, -⟩ := ht
      exact hnot ⟨ha.1, hlo, (bodyEnds_bodiless_iff hb).2.mp hen⟩
    · rw [hb] at ht
      cases ht.1.1
  | false =>
    by_contra hnot
    rw [if_neg Bool.false_ne_true, not_or, not_or, Bool.not_eq_false, Bool.not_eq_false,
      Nat.not_lt] at hnot
    obtain ⟨hco, hte, hf⟩ := hnot
    obtain ⟨k, s, hk, hse, hd, hc, hdel, hrun⟩ := relayUpstream_of_faithful hf h
    have hca := relayUpstream_cases hp r hse hk hd hc hdel
    obtain ⟨hl, hch⟩ := r.framed.of_coded hb hco
    have hno := (lengthIn_eq_none_iff r).mpr hl
    have hne : r.wire ≠ r.body := fun heq => lt_irrefl _ (heq ▸ hch.length_lt)
    refine not_wp_false _ s (wp_mono (wp_and hrun hca) (fun _ t ht => ?_) (fun _ t ht => ?_))
    · obtain ⟨hs, -, -, ⟨text, parts, hh⟩, hr⟩ := ht
      rcases hs with hs | ⟨-, message, hto⟩
      · rw [hs.2, hb, hno] at hr
        exact hne (Option.some.inj hr).symm
      · rw [hh] at hto
        cases hto
    · rcases ht.2 with ⟨hre, -⟩ | ⟨-, -, hso⟩
      · exact hre ⟨hte, fun n hn => by rw [hno] at hn; cases hn⟩
      · exact hso ht.1.2

end Relay

end CompleteResponse

/-- **A response is relayed with the body the upstream sent, however it is cut into reads, exactly
if it is not chunked and, where it has no body, announces none.**  The remaining parts of the
condition are the limits on the head. -/
theorem fidelity_iff (maxHeaders : ℕ) (method : Method) (level : ℕ) (encoder : GzEncoder)
    (r : CompleteResponse (withoutGzip maxHeaders method level encoder).head) :
    faithful (withoutGzip maxHeaders method level encoder) r ↔ relayable maxHeaders r :=
  ⟨CompleteResponse.relayable_of_faithful rfl, CompleteResponse.faithful_of_relayable rfl⟩

/-! ## Responses that are not -/

def codingField : WireField where
  name := "Transfer-Encoding".toList
  raw := utf8 " chunked".toList
  token := by decide
  line := all_iff_forall_prop.mp rfl

/-- `hi` in one chunk. -/
def chunkedResponse : CompleteResponse false where
  status := 200
  reason := utf8 "OK".toList
  fields := [codingField]
  body := utf8 "hi".toList
  wire := utf8 "2\r\nhi\r\n0\r\n\r\n".toList
  closed := true
  final := by decide
  reasonLine := all_iff_forall_prop.mp rfl
  lengths := by
    intro field hfield hnamed
    obtain rfl := mem_singleton.mp hfield
    exact absurd hnamed (by decide)
  codings := by
    intro field hfield _
    obtain rfl := mem_singleton.mp hfield
    decide
  framed := by
    have hlast : Chunked [] (utf8 "0\r\n\r\n".toList) := .last [0x30] [] [] (by decide) (.inl rfl)
    exact .chunked rfl (by decide) (by decide)
      (.chunk [0x32] [] (utf8 "hi".toList) (by decide) (by decide) (.inl rfl) hlast)

def lengthField : WireField where
  name := "Content-Length".toList
  raw := utf8 " 2".toList
  token := by decide
  line := all_iff_forall_prop.mp rfl

/-- The answer to `HEAD` for a page of two bytes. -/
def headResponse : CompleteResponse true where
  status := 200
  reason := utf8 "OK".toList
  fields := [lengthField]
  body := []
  wire := []
  closed := true
  final := by decide
  reasonLine := all_iff_forall_prop.mp rfl
  lengths := by
    intro field hfield _
    obtain rfl := mem_singleton.mp hfield
    exact ⟨2, by decide, by decide⟩
  codings := by
    intro field hfield hnamed
    obtain rfl := mem_singleton.mp hfield
    exact absurd hnamed (by decide)
  framed := .noBody rfl

/-- The chunk sizes reach the client as its body, and after a head the bytes it announces are waited
for. -/
theorem chunks_unmarked :
    ¬faithful (withoutGzip 8192 .get 6 FastCgi.plainParams.encoder) chunkedResponse ∧
      ¬faithful (withoutGzip 8192 .head 6 FastCgi.plainParams.encoder) headResponse := by
  constructor
  · intro h
    have hrelayable : relayable 8192 chunkedResponse := CompleteResponse.relayable_of_faithful rfl h
    exact absurd hrelayable (by decide)
  · intro h
    have hrelayable : relayable 8192 headResponse := CompleteResponse.relayable_of_faithful rfl h
    exact absurd hrelayable (by decide)

end Veysrs.Proxy
