import Mathlib.Data.List.Forall2
import Veysrs.Http.Wire

/-!
# Heads that are accepted

What is true of every buffer off which the HTTP/1.1 parser reads a head.

**Lines.**  The header loop takes one field from each line that is not blank, in order
(`scanned_of_foldlM`): a token, a colon, and what stands behind it without the white space around
it.

**Soundness.**  A request that is returned has one Host, no Transfer-Encoding, one length of its
body, no line break in any of its parts, and respects every limit; what is left of the buffer is
what follows it (`accepted_request_sound`).

**Strictness.**  Two things are let through that the grammar does not have: a line of white space
is passed over, and a Content-Length may begin with a plus sign.  Without them every line gives one
header, and a Content-Length is digits only (`strict_head_iff`).
-/

namespace Veysrs

open Core List

/-! ## Lines -/

/-- The values of the headers of that name, whatever its case. -/
def fieldValues (name : String) (headers : Headers) : List Str :=
  (headers.filter fun h => eqIgnoreAsciiCase h.1 name.toList).map Prod.snd

/-- The line is the field: a token, a colon and a value, around which white space is dropped. -/
structure FieldLine (line : Str) (field : Str × Str) : Prop where
  token : TokenText field.1
  cut : ∃ raw, line = field.1 ++ ':' :: raw ∧ field.2 = trim raw

/-- The lines that are not blank. -/
def solidLines (lines : List Str) : List Str := lines.filter fun line => trim line ≠ []

/-- What the header loop made of the lines. -/
structure Scanned (config : ServerConfig) (lines : List Str) (scan next : HeaderScan)
    (fields : Headers) : Prop where
  headers : next.headers = scan.headers ++ fields
  lengths : next.lengths = scan.lengths ++ fieldValues "Content-Length" fields
  fieldLines : List.Forall₂ FieldLine (solidLines lines) fields
  short : ∀ line ∈ solidLines lines, (utf8 line).length ≤ config.maxHeaderLine
  few : next.headers.length ≤ max scan.headers.length config.maxHeaders

lemma fieldValues_append (name : String) (headers more : Headers) :
    fieldValues name (headers ++ more) = fieldValues name headers ++ fieldValues name more := by
  rw [fieldValues, filter_append, map_append]
  rfl

lemma fieldValues_singleton (name : String) (field : Str × Str) :
    fieldValues name [field] =
      if eqIgnoreAsciiCase field.1 name.toList = true then [field.2] else [] := by
  rw [fieldValues, filter_cons]
  split_ifs
  · rfl
  · rfl

variable {headers : Headers} {field : Str × Str} {line : Str}

lemma mem_fieldValues {name : String} {value : Str} :
    value ∈ fieldValues name headers ↔
      ∃ field ∈ headers, eqIgnoreAsciiCase field.1 name.toList = true ∧ field.2 = value := by
  simp only [fieldValues, mem_map, mem_filter, and_assoc]

lemma FieldLine.solid (h : FieldLine line field) : trim line ≠ [] := by
  obtain ⟨raw, rfl, -⟩ := h.cut
  rw [ne_eq, trim_eq_nil_iff]
  intro ha
  have hc := ha ':' (mem_append_right _ mem_cons_self)
  exact absurd hc (by decide)

lemma FieldLine.splitOnce (h : FieldLine line field) :
    ∃ raw, splitOnce ':' line = some (field.1, raw) ∧ field.2 = trim raw := by
  obtain ⟨raw, rfl, hv⟩ := h.cut
  exact ⟨raw, splitOnce_append (h.token.not_mem (by decide) (by decide)) raw, hv⟩

section Loop

variable {config : ServerConfig} {scan next : HeaderScan}

lemma push_fields {name value : Str} (h : scan.push name value = .ok next) :
    next.headers = scan.headers ++ [(name, value)] ∧
      next.lengths = scan.lengths ++ fieldValues "Content-Length" [(name, value)] := by
  rw [HeaderScan.push] at h
  rw [fieldValues_singleton]
  split_ifs at h with hb hh hl hf
  · obtain rfl := Except.ok.inj h
    rw [not_lengthName_of_hostName hh, if_neg Bool.false_ne_true, append_nil]
    exact ⟨rfl, rfl⟩
  · obtain rfl := Except.ok.inj h
    rw [if_pos hl]
    exact ⟨rfl, rfl⟩
  · obtain rfl := Except.ok.inj h
    rw [if_neg hl, append_nil]
    exact ⟨rfl, rfl⟩

/-- A line that is not blank gives one field. -/
lemma scanned_line (h : scanHeaderLine config scan line = .ok next) :
    ∃ fields, Scanned config [line] scan next fields := by
  rw [scanHeaderLine] at h
  split_ifs at h with hb hlo hm
  · obtain rfl := Except.ok.inj h
    have hs : solidLines [line] = [] := by simp [solidLines, hb]
    refine ⟨[], (append_nil _).symm, (append_nil _).symm, ?_, ?_, le_max_left _ _⟩
    · rw [hs]
      exact .nil
    · rw [hs]
      exact fun _ hmem => absurd hmem not_mem_nil
  · have hs : solidLines [line] = [line] := by simp [solidLines, hb]
    split at h
    · cases h
    · rename_i name raw hsp
      split_ifs at h with hn
      simp only [Bool.or_eq_true, Bool.not_eq_true', not_or, Bool.not_eq_false] at hn
      obtain ⟨hh, hl⟩ := push_fields h
      refine ⟨[(name, trim raw)], hh, hl, ?_, ?_, ?_⟩
      · rw [hs]
        refine .cons ⟨⟨by simpa using hn.1, hn.2⟩, raw, ?_, rfl⟩ .nil
        exact (splitOnce_eq_some hsp).1
      · rw [hs]
        exact forall_mem_singleton.mpr (Nat.le_of_not_lt hlo)
      · rw [hh, length_append, length_singleton]
        omega

/-- **The header loop takes one field from each line that is not blank.** -/
lemma scanned_of_foldlM (lines : List Str) : ∀ {scan next : HeaderScan},
    lines.foldlM (scanHeaderLine config) scan = .ok next →
    ∃ fields, Scanned config lines scan next fields := by
  induction lines with
  | nil =>
    intro scan next h
    obtain rfl := Except.ok.inj h
    exact ⟨[], (append_nil _).symm, (append_nil _).symm, .nil,
      fun _ hm => absurd hm not_mem_nil, le_max_left _ _⟩
  | cons line lines ih =>
    intro scan next h
    rw [foldlM_cons, except_bind_eq_ok] at h
    obtain ⟨mid, hli, hl⟩ := h
    obtain ⟨first, hf⟩ := scanned_line hli
    obtain ⟨rest, hr⟩ := ih hl
    have hs : solidLines (line :: lines) = solidLines [line] ++ solidLines lines :=
      filter_append [line] lines
    refine ⟨first ++ rest, ?_, ?_, ?_, ?_, ?_⟩
    · rw [hr.headers, hf.headers, append_assoc]
    · rw [hr.lengths, hf.lengths, fieldValues_append, append_assoc]
    · rw [hs]
      exact rel_append hf.fieldLines hr.fieldLines
    · rw [hs]
      exact forall_mem_append.mpr ⟨hf.short, hr.short⟩
    · refine hr.few.trans (max_le ?_ (le_max_right _ _))
      exact hf.few

end Loop

/-! ## Heads -/

/-- The text up to the empty line. -/
def headText (buffer : Bytes) : Option Str :=
  (findSub headTerminator buffer).bind fun headerEnd => fromUtf8 (buffer.take headerEnd)

/-- The text of the head, its lines, and what they give. -/
structure AcceptedText (config : ServerConfig) (buffer : Bytes) (head : HttpRequestHead)
    (text method line : Str) (lines : List Str) : Prop where
  read : headText buffer = some text
  cut : splitCrlf text = line :: lines
  ended : findSub headTerminator buffer = some (utf8 text).length
  headerLen : head.headerLen = (utf8 text).length + 4
  headSize : head.headerLen ≤ config.maxHeaderSize
  known : head.method = Method.ofStr method
  written : line = requestLine method head.uri
  version : head.version = "HTTP/1.1".toList
  uriSize : (utf8 head.uri).length ≤ config.maxUriLength
  lineSize : (utf8 line).length ≤ config.maxHeaderLine
  fieldLines : List.Forall₂ FieldLine (solidLines lines) head.headers
  short : ∀ l ∈ solidLines lines, (utf8 l).length ≤ config.maxHeaderLine
  few : head.headers.length ≤ config.maxHeaders
  contentLength : contentLengthOf config (fieldValues "Content-Length" head.headers) =
    .ok head.contentLength

section Head

variable {config : ServerConfig} {buffer : Bytes} {head : HttpRequestHead}

lemma acceptedText_of_parse
    (h : parseHttpRequestHeadFromBufWithLimits buffer config = .ok (some head)) :
    ∃ text method line lines, AcceptedText config buffer head text method line lines := by
  obtain ⟨headerEnd, hfi, hsi, hb⟩ := parseHttpRequestHead_eq_some.mp h
  have hlen := parseHeaderBytes_headerLen hb
  rw [parseHeaderBytes] at hb
  split_ifs at hb
  split at hb
  · cases hb
  · rename_i text ht
    obtain ⟨line, lines, method, uri, version, scan, length, hc, hli, hsc, -, hleng,
      rfl⟩ := parseHeaderText_eq_ok.mp hb
    have hend : (utf8 text).length = headerEnd := by
      have hle := findSub_add_length_le headTerminator_ne_nil hfi
      rw [utf8_of_fromUtf8 ht, length_take]
      omega
    obtain ⟨fields, hs⟩ := scanned_of_foldlM lines hsc
    have hf : scan.headers = fields := hs.headers
    obtain ⟨hw, hv, hu, hsh⟩ := written_of_parseRequestLine hli
    have hl : scan.lengths = fieldValues "Content-Length" scan.headers := by
      rw [hs.lengths, hf]
      rfl
    refine ⟨text, method, line, lines, ?_, hc, hend ▸ hfi, ?_, ?_, rfl, hw, hv, hu,
      hsh, ?_, hs.short, ?_, ?_⟩
    · rw [headText, hfi]
      exact ht
    · rw [utf8_of_fromUtf8 ht]
    · rw [← utf8_of_fromUtf8 ht, hend]
      exact hsi
    · exact hf ▸ hs.fieldLines
    · exact hs.few.trans (max_le (Nat.zero_le _) le_rfl)
    · exact hl ▸ hleng

/-- The buffer begins with the head. -/
lemma AcceptedText.front {text method : Str} {lines : List Str}
    (h : AcceptedText config buffer head text method line lines) :
    buffer.take head.headerLen = utf8 text ++ headTerminator := by
  obtain ⟨tail, ht⟩ := ((findSub_eq_some_iff headTerminator_ne_nil).mp h.ended).1
  have hte : buffer.take (utf8 text).length = utf8 text := by
    have hr := h.read
    rw [headText, h.ended] at hr
    exact (utf8_of_fromUtf8 hr).symm
  have hb : buffer = utf8 text ++ headTerminator ++ tail := by
    rw [append_assoc, ht]
    conv_lhs => rw [← take_append_drop (utf8 text).length buffer, hte]
  conv_lhs => rw [hb]
  refine take_left' ?_
  rw [length_append, h.headerLen]
  rfl

end Head

/-! ## Soundness -/

/-- What holds of a request that was read off a buffer. -/
structure SoundRequest (config : ServerConfig) (buffer rest : Bytes) (r : HttpRequest) : Prop where
  host : ∃ host, host ≠ [] ∧ fieldValues "Host" r.headers = [host]
  unchunked : fieldValues "Transfer-Encoding" r.headers = []
  -- one length for the body, however often it is given
  contentLength : (fieldValues "Content-Length" r.headers = [] ∧ r.body = []) ∨
    fieldValues "Content-Length" r.headers ≠ [] ∧ ∃ value,
      (∀ v ∈ fieldValues "Content-Length" r.headers, v = value) ∧
      parseUnsigned (2 ^ 64) value = some r.body.length
  bodySize : r.body.length ≤ config.maxRequestSize
  names : ∀ field ∈ r.headers, TokenText field.1
  unbroken : ValueText r.method.text ∧ ValueText r.uri ∧
    ∀ field ∈ r.headers, ValueText field.1 ∧ ValueText field.2
  uri : ∀ b ∈ utf8 r.uri, ¬b ≤ 31 ∧ b ≠ 127 ∧ b ≠ 32
  uriSize : (utf8 r.uri).length ≤ config.maxUriLength
  headerCount : r.headers.length ≤ config.maxHeaders
  /-- The head ends at the first empty line; behind it stand the body and what is kept. -/
  wire : ∃ head method line lines,
    buffer = utf8 head ++ headTerminator ++ r.body ++ rest ∧
    findSub headTerminator buffer = some (utf8 head).length ∧
    (utf8 head ++ headTerminator).length ≤ config.maxHeaderSize ∧
    splitCrlf head = line :: lines ∧
    line = requestLine method r.uri ∧ r.method = Method.ofStr method ∧
    (utf8 line).length ≤ config.maxHeaderLine ∧
    ∃ fieldLines, fieldLines.Sublist lines ∧ List.Forall₂ FieldLine fieldLines r.headers ∧
      ∀ l ∈ fieldLines, (utf8 l).length ≤ config.maxHeaderLine

section Sound

variable {config : ServerConfig} {buffer rest : Bytes} {r : HttpRequest}

lemma contentLengthOf_eq_ok {lengths : List Str} {n : ℕ}
    (h : contentLengthOf config lengths = .ok n) :
    n ≤ config.maxRequestSize ∧ (lengths = [] ∧ n = 0 ∨
      lengths ≠ [] ∧ ∃ value, (∀ v ∈ lengths, v = value) ∧
        parseUnsigned (2 ^ 64) value = some n) := by
  cases lengths with
  | nil =>
    obtain rfl := Except.ok.inj h
    exact ⟨Nat.zero_le _, .inl ⟨rfl, rfl⟩⟩
  | cons first lengths =>
    rw [contentLengthOf] at h
    split_ifs at h with hs
    cases hp : parseUnsigned (2 ^ 64) first with
    | none =>
      rw [hp] at h
      cases h
    | some length =>
      simp only [hp] at h
      split_ifs at h with hl
      obtain rfl := Except.ok.inj h
      refine ⟨Nat.le_of_not_lt hl, .inr ⟨cons_ne_nil _ _, first, ?_, hp⟩⟩
      intro v hv
      by_contra hne
      exact hs (any_eq_true.mpr ⟨v, hv, decide_eq_true hne⟩)

lemma namedValues_eq_fieldValues (name : String) (h : ∀ field ∈ headers, trim field.2 = field.2) :
    namedValues name headers = fieldValues name headers := by
  refine map_congr_left fun field hf => ?_
  exact h field (mem_of_mem_filter hf)

lemma TokenText.valueText {name : Str} (h : TokenText name) : ValueText name :=
  valueText_of_not_mem (h.not_mem (by decide) (by decide)) (h.not_mem (by decide) (by decide))

lemma MethodText.valueText {method : Str} (h : MethodText method) : ValueText method :=
  valueText_of_not_mem (h.not_mem (by decide) (by decide)) (h.not_mem (by decide) (by decide))

lemma TargetText.valueText {target : Str} (h : TargetText target) : ValueText target :=
  valueText_of_not_mem (fun hm => absurd (h.2 _ hm).1 (by decide))
    (fun hm => absurd (h.2 _ hm).1 (by decide))

lemma TargetText.bytes {target : Str} (h : TargetText target) :
    ∀ b ∈ utf8 target, ¬b ≤ 31 ∧ b ≠ 127 ∧ b ≠ 32 := by
  have hby : ∀ b ∈ utf8 target, 32 < b.toNat ∧ b.toNat ≠ 127 := by
    intro b hb
    by_cases ha : b.toNat < 128
    · obtain ⟨c, hc, heq⟩ := (mem_utf8_ascii ha).mp hb
      rw [← heq]
      exact h.2 c hc
    · omega
  intro b hb
  obtain ⟨hl, hd⟩ := hby b hb
  refine ⟨fun hle => ?_, ?_, ?_⟩
  · have hn : b.toNat ≤ 31 := UInt8.le_iff_toNat_le.mp hle
    omega
  · rintro rfl
    exact hd rfl
  · rintro rfl
    exact absurd hl (by decide)

/-- **Requests that are accepted are sound.**  The buffer is a `Vec<u8>`, which holds less than
`2 ^ 63` bytes. -/
theorem accepted_request_sound (hvec : buffer.length < 2 ^ 63)
    (h : (parseHttpRequestFromBufWithLimits config).run buffer = .ok (some r) rest) :
    SoundRequest config buffer rest r := by
  obtain ⟨head, hhead, hfits, rfl, rfl⟩ := parseHttpRequest_eq_some.mp h
  obtain ⟨text, method, line, lines, hread⟩ := acceptedText_of_parse hhead
  have haccepted := acceptedHead_of_parse hhead
  have htrimmed : ∀ field ∈ head.headers, trim field.2 = field.2 := fun field hfield =>
    (haccepted.fields field hfield).2.2
  -- the sum does not overflow: so many bytes are there
  have htotal : head.totalRequired = head.headerLen + head.contentLength := by
    rw [HttpRequestHead.totalRequired, saturatingAdd] at hfits ⊢
    omega
  have hbody : ((buffer.take head.totalRequired).drop head.headerLen).length =
      head.contentLength := by
    rw [length_drop, length_take]
    omega
  obtain ⟨hsize, hlength⟩ := contentLengthOf_eq_ok hread.contentLength
  obtain ⟨hat, -⟩ := (findSub_eq_some_iff headTerminator_ne_nil).mp hread.ended
  refine ⟨?_, ?_, ?_, ?_, ?_, ⟨?_, haccepted.target.valueText, ?_⟩, haccepted.target.bytes,
    hread.uriSize, ?_, text, method, line, lines, ?_, hread.ended, ?_, hread.cut,
    hread.written, hread.known, hread.lineSize, solidLines lines, filter_sublist,
    hread.fieldLines, hread.short⟩
  · obtain ⟨host, hhost, hne⟩ := haccepted.host
    rw [namedValues_eq_fieldValues "Host" htrimmed] at hhost
    obtain ⟨field, hfield, -, hvalue⟩ := mem_fieldValues.mp
      (hhost ▸ mem_singleton_self host : host ∈ fieldValues "Host" head.headers)
    refine ⟨host, ?_, hhost⟩
    rintro rfl
    exact hne rfl
  · refine eq_nil_iff_forall_not_mem.mpr fun value hvalue => ?_
    obtain ⟨field, hfield, hname, -⟩ := mem_fieldValues.mp hvalue
    rw [(haccepted.fields field hfield).1.framing] at hname
    cases hname
  · refine hlength.imp (fun hnone => ⟨hnone.1, ?_⟩) fun hsome => ⟨hsome.1, ?_⟩
    · exact eq_nil_of_length_eq_zero (hbody.trans hnone.2)
    · obtain ⟨value, hsame, hparse⟩ := hsome.2
      exact ⟨value, hsame, hparse.trans (congrArg some hbody.symm)⟩
  · exact hbody.trans_le hsize
  · exact fun field hfield => (haccepted.fields field hfield).1.token
  · exact haccepted.method.valueText
  · intro field hfield
    obtain ⟨hname, hvalue, -⟩ := haccepted.fields field hfield
    exact ⟨hname.token.valueText, hvalue⟩
  · exact hread.few
  · have hhead : buffer.take head.headerLen = utf8 text ++ headTerminator := hread.front
    have htake : (buffer.take head.totalRequired).take head.headerLen =
        utf8 text ++ headTerminator := by
      rw [take_take, Nat.min_eq_left (by omega)]
      exact hhead
    calc buffer = buffer.take head.totalRequired ++ buffer.drop head.totalRequired :=
          (take_append_drop _ _).symm
      _ = (buffer.take head.totalRequired).take head.headerLen ++
            (buffer.take head.totalRequired).drop head.headerLen ++
            buffer.drop head.totalRequired := by rw [take_append_drop head.headerLen]
      _ = utf8 text ++ headTerminator ++ (buffer.take head.totalRequired).drop head.headerLen ++
            buffer.drop head.totalRequired := by rw [htake]
  · rw [length_append]
    exact hread.headerLen.symm.trans_le hread.headSize

/-- A request with a body, and the beginning of the next one. -/
theorem accepted_request_sound_post :
    SoundRequest {} (utf8 "POST /a HTTP/1.1\r\nHost: b\r\nContent-Length: 2\r\n\r\nokGET".toList)
      (utf8 "GET".toList)
      { method := .post, uri := "/a".toList, version := "HTTP/1.1".toList
        headers := [("Host".toList, "b".toList), ("Content-Length".toList, "2".toList)]
        body := utf8 "ok".toList } :=
  accepted_request_sound (by decide) (by rfl)

end Sound

/-! ## Strictness -/

/-- The lines between the request line and the empty line. -/
def fieldLines (buffer : Bytes) : List Str :=
  match headText buffer with
  | none => []
  | some text => (splitCrlf text).tail

/-- One or more digits. -/
def DigitsOnly (value : Str) : Prop := value ≠ [] ∧ value.all Char.isDigit = true

/-- Every line gives one header, in order, and lengths are digits only. -/
structure Strict (lines : List Str) (headers : Headers) : Prop where
  fields : List.Forall₂ FieldLine lines headers
  lengths : ∀ value ∈ fieldValues "Content-Length" headers, DigitsOnly value

/-- A Content-Length line whose value begins with a plus sign. -/
def PlusLength (line : Str) : Prop :=
  ∃ name raw, splitOnce ':' line = some (name, raw) ∧
    eqIgnoreAsciiCase name "Content-Length".toList = true ∧ (trim raw).head? = some '+'

/-- No line is blank and no length begins with a plus sign. -/
def PlainLines (lines : List Str) : Prop :=
  ∀ line ∈ lines, trim line ≠ [] ∧ ¬PlusLength line

/-- What reads as a number is digits, but for a plus sign in front. -/
lemma digitsOnly_iff {bound n : ℕ} {value : Str} (h : parseUnsigned bound value = some n) :
    DigitsOnly value ↔ value.head? ≠ some '+' := by
  rw [parseUnsigned] at h
  split_ifs at h with hd
  obtain ⟨hne, ha, -⟩ := hd
  cases value with
  | nil => exact absurd rfl hne
  | cons c rest =>
    by_cases hp : c = '+'
    · subst hp
      refine iff_of_false (fun hdi => ?_) (fun hh => hh rfl)
      exact absurd (all_eq_true.mp hdi.2 '+' mem_cons_self) (by decide)
    · have hs : stripPlus (c :: rest) = c :: rest := by
        unfold stripPlus
        split
        · rename_i heq
          exact absurd (List.cons.inj heq).1 hp
        · rfl
      rw [hs] at ha
      refine iff_of_true ⟨cons_ne_nil c rest, ha⟩ fun hh => ?_
      exact hp (Option.some.inj hh)

section Strict

variable {config : ServerConfig} {buffer : Bytes} {head : HttpRequestHead}

/-- A header stands on a line of its own. -/
lemma exists_line_of_mem {lines : List Str} (h : List.Forall₂ FieldLine lines headers)
    (hf : field ∈ headers) : ∃ line ∈ lines, FieldLine line field := by
  induction h with
  | nil => exact absurd hf not_mem_nil
  | cons hl _ ih =>
    rcases mem_cons.mp hf with rfl | hf
    · exact ⟨_, mem_cons_self, hl⟩
    · obtain ⟨line, hm, hl⟩ := ih hf
      exact ⟨line, mem_cons_of_mem _ hm, hl⟩

/-- A line gives a header. -/
lemma exists_field_of_mem {lines : List Str} (h : List.Forall₂ FieldLine lines headers)
    (hl : line ∈ lines) : ∃ field ∈ headers, FieldLine line field := by
  induction h with
  | nil => exact absurd hl not_mem_nil
  | cons hf _ ih =>
    rcases mem_cons.mp hl with rfl | hl
    · exact ⟨_, mem_cons_self, hf⟩
    · obtain ⟨field, hm, hf⟩ := ih hl
      exact ⟨field, mem_cons_of_mem _ hm, hf⟩

/-- The plus signs of the lines are those of the lengths. -/
lemma plusLength_iff {lines : List Str} (h : List.Forall₂ FieldLine lines headers) :
    (∃ line ∈ lines, PlusLength line) ↔
      ∃ value ∈ fieldValues "Content-Length" headers, value.head? = some '+' := by
  constructor
  · rintro ⟨line, hl, name, raw, hs, hn, hp⟩
    obtain ⟨field, hfi, hf⟩ := exists_field_of_mem h hl
    obtain ⟨raw', hs', hv⟩ := hf.splitOnce
    obtain ⟨rfl, rfl⟩ := Prod.mk.inj (Option.some.inj (hs.symm.trans hs'))
    exact ⟨field.2, mem_fieldValues.mpr ⟨field, hfi, hn, rfl⟩, hv ▸ hp⟩
  · rintro ⟨value, hv, hp⟩
    obtain ⟨field, hfi, hn, rfl⟩ := mem_fieldValues.mp hv
    obtain ⟨line, hl, hf⟩ := exists_line_of_mem h hfi
    obtain ⟨raw, hs, ht⟩ := hf.splitOnce
    exact ⟨line, hl, field.1, raw, hs, hn, ht ▸ hp⟩

/-- **A head that is accepted is strict exactly if its lines are plain.** -/
theorem strict_head_iff
    (h : parseHttpRequestHeadFromBufWithLimits buffer config = .ok (some head)) :
    Strict (fieldLines buffer) head.headers ↔ PlainLines (fieldLines buffer) := by
  obtain ⟨text, method, line, lines, hread⟩ := acceptedText_of_parse h
  have hlines : fieldLines buffer = lines := by
    simp only [fieldLines, hread.read, hread.cut, tail_cons]
  have hlengths : ∀ value ∈ fieldValues "Content-Length" head.headers,
      DigitsOnly value ↔ value.head? ≠ some '+' := by
    intro value hvalue
    obtain ⟨hnone, -⟩ | ⟨-, first, hsame, hparse⟩ := (contentLengthOf_eq_ok hread.contentLength).2
    · rw [hnone] at hvalue
      exact absurd hvalue not_mem_nil
    · rw [hsame value hvalue]
      exact digitsOnly_iff hparse
  rw [hlines]
  constructor
  · rintro ⟨hfields, hdigits⟩ line hline
    refine ⟨?_, fun hplus => ?_⟩
    · obtain ⟨field, -, hfield⟩ := exists_field_of_mem hfields hline
      exact hfield.solid
    · obtain ⟨value, hvalue, hhead⟩ := (plusLength_iff hfields).mp ⟨line, hline, hplus⟩
      exact (hlengths value hvalue).mp (hdigits value hvalue) hhead
  · intro hplain
    have hsolid : solidLines lines = lines :=
      filter_eq_self.mpr fun line hline => decide_eq_true (hplain line hline).1
    have hfields : List.Forall₂ FieldLine lines head.headers := hsolid ▸ hread.fieldLines
    refine ⟨hfields, fun value hvalue => (hlengths value hvalue).mpr fun hhead => ?_⟩
    obtain ⟨line, hline, hplus⟩ := (plusLength_iff hfields).mpr ⟨value, hvalue, hhead⟩
    exact (hplain line hline).2 hplus

/-- A plain head. -/
theorem strict_head_post :
    let buffer := utf8 "POST / HTTP/1.1\r\nHost: a\r\nContent-Length: 5\r\n\r\n".toList
    Strict (fieldLines buffer)
        [("Host".toList, "a".toList), ("Content-Length".toList, "5".toList)] ↔
      PlainLines (fieldLines buffer) := by
  intro buffer
  have hparse : parseHttpRequestHeadFromBufWithLimits buffer {} =
      .ok (some { method := .post, uri := "/".toList, version := "HTTP/1.1".toList
                  headers := [("Host".toList, "a".toList), ("Content-Length".toList, "5".toList)]
                  contentLength := 5, headerLen := 47 }) := by rfl
  exact strict_head_iff hparse

/-- A blank line is passed over, and a plus sign is taken as part of the length. -/
theorem lenient_head_accepted :
    let buffer :=
      utf8 "POST / HTTP/1.1\r\nHost: a\r\n \r\nContent-Length: +5\r\n\r\n".toList
    ∃ head, parseHttpRequestHeadFromBufWithLimits buffer {} = .ok (some head) ∧
      fieldLines buffer = ["Host: a".toList, " ".toList, "Content-Length: +5".toList] ∧
      head.headers = [("Host".toList, "a".toList), ("Content-Length".toList, "+5".toList)] ∧
      ¬List.Forall₂ FieldLine (fieldLines buffer) head.headers ∧
      ¬∀ value ∈ fieldValues "Content-Length" head.headers, DigitsOnly value := by
  intro buffer
  refine ⟨_, by rfl, by rfl, by rfl, fun hfields => ?_, fun hdigits => ?_⟩
  · exact absurd hfields.length_eq (by decide)
  · exact absurd (hdigits "+5".toList mem_cons_self).2 (by decide)

end Strict

end Veysrs
