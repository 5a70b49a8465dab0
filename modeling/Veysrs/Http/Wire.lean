import Veysrs.Core.Lines
import Veysrs.Http.Parser

/-!
# What the parser makes of a written request

A request is written as a request line, one line for each field, an empty line and the body.  The
parser reads it back as that request exactly if no part of it says something else: the method is
made of letters, the target has no blank and no control character, no value has a carriage return
or a line feed, and the host is not blank (`oneRequest_iff`).

`parseHttpRequestHead_joinLines` evaluates the parser on written lines, `parseRequestLine_eq_ok` and
`foldlM_headerLines` on the lines themselves.
-/

namespace Veysrs

open Core List

/-! ## Line breaks in a head -/

def isLineBreak (c : Char) : Bool := c = '\r' || c = '\n'

/-- Only a carriage return matters as the byte before. -/
lemma bareLineBreak_prev {prev : Option UInt8} (h : prev ≠ some 0x0d) (bs : Bytes) :
    bareLineBreak prev bs = bareLineBreak none bs := by
  cases bs with
  | nil => rfl
  | cons b bs =>
    have hp : (prev != some 0x0d) = true := bne_iff_ne.mpr h
    rw [bareLineBreak, hp]
    rfl

lemma bareLineBreak_crlf (t : Bytes) :
    bareLineBreak none (0x0d :: 0x0a :: t) = bareLineBreak none t := by
  simp [bareLineBreak, bareLineBreak_prev]

lemma bareLineBreak_skip {a : Bytes} (hcr : 0x0d ∉ a) (hlf : 0x0a ∉ a) (t : Bytes) :
    bareLineBreak none (a ++ t) = bareLineBreak none t := by
  induction a with
  | nil => rfl
  | cons b a ih =>
    rw [mem_cons, not_or] at hcr hlf
    have hp : some b ≠ some 0x0d := fun h => hcr.1 (Option.some.inj h).symm
    rw [cons_append, bareLineBreak, bareLineBreak_prev hp, ih hcr.2 hlf.2,
      beq_false_of_ne (Ne.symm hlf.1), beq_false_of_ne (Ne.symm hcr.1)]
    rfl

/-- In a line, every carriage return and every line feed is a bare one. -/
lemma bareLineBreak_line {l : Str} (h : OneLine l) {t : Bytes} (ht : t.head? ≠ some 0x0a) :
    bareLineBreak none (utf8 l ++ t) = (l.any isLineBreak || bareLineBreak none t) := by
  induction l with
  | nil => rfl
  | cons c l ih =>
    have hl := (oneLine_cons.mp h).2
    by_cases hcr : c = '\r'
    · subst hcr
      have hh : ((utf8 l ++ t).head? != some 0x0a) = true :=
        bne_iff_ne.mpr (head?_ne_lf h ht)
      rw [utf8_cons, show String.utf8EncodeChar '\r' = [0x0d] from rfl, singleton_append,
        cons_append, bareLineBreak, hh]
      simp [isLineBreak]
    · by_cases hlf : c = '\n'
      · subst hlf
        rfl
      · have hcr' : (0x0d : UInt8) ∉ String.utf8EncodeChar c := not_mem_encode (by decide) hcr
        have hlf' : (0x0a : UInt8) ∉ String.utf8EncodeChar c := not_mem_encode (by decide) hlf
        rw [utf8_cons, append_assoc, bareLineBreak_skip hcr' hlf', ih hl]
        simp [isLineBreak, hcr, hlf]

lemma bareLineBreak_joinLines {lines : List Str} (h : ∀ l ∈ lines, OneLine l) :
    bareLineBreak none (utf8 (joinLines lines)) = lines.any (·.any isLineBreak) := by
  induction lines with
  | nil => rfl
  | cons l lines ih =>
    have hl := h l mem_cons_self
    cases lines with
    | nil =>
      have hend := bareLineBreak_line hl (t := []) (by simp)
      rw [append_nil] at hend
      rw [joinLines_singleton, hend]
      simp [bareLineBreak]
    | cons m lines =>
      rw [joinLines_cons_cons, utf8_append, utf8_crlf, bareLineBreak_line hl (by simp),
        bareLineBreak_crlf, ih fun k hk => h k (mem_cons_of_mem l hk)]
      rfl

variable {config : ServerConfig}

/-- The head of a request written line by line. -/
lemma parseHttpRequestHead_joinLines {lines : List Str} (hne : lines ≠ [])
    (h : ∀ l ∈ lines, l ≠ [] ∧ OneLine l)
    (hs : (utf8 (joinLines lines)).length + 4 ≤ config.maxHeaderSize) (rest : Bytes) :
    parseHttpRequestHeadFromBufWithLimits
        (utf8 (joinLines lines) ++ (headTerminator ++ rest)) config =
      if lines.any (·.any isLineBreak) then .error .malformedRequest
      else (parseHeaderText config (joinLines lines) ((utf8 (joinLines lines)).length + 4)).map
        some := by
  have hf : findSub headTerminator (utf8 (joinLines lines) ++ (headTerminator ++ rest)) =
      some (utf8 (joinLines lines)).length := findSub_joinLines hne h rest
  rw [parseHttpRequestHeadFromBufWithLimits, hf]
  simp only [if_neg (Nat.not_lt.mpr hs), take_left, parseHeaderBytes, fromUtf8_utf8,
    bareLineBreak_joinLines fun l hl => (h l hl).2]
  split_ifs <;> rfl

/-! ## The request line -/

def requestLine (method target : Str) : Str :=
  method ++ ' ' :: (target ++ ' ' :: "HTTP/1.1".toList)

/-- A method the parser takes. -/
def MethodText (method : Str) : Prop := method ≠ [] ∧ (utf8 method).all isAsciiAlphabetic = true

/-- A target the parser takes: no blank, no control character. -/
def TargetText (target : Str) : Prop := target ≠ [] ∧ ∀ c ∈ target, 32 < c.toNat ∧ c.toNat ≠ 127

-- over the characters of the text, not over all characters
instance (target : Str) : Decidable (TargetText target) :=
  @instDecidableAnd _ _ inferInstance (List.decidableBAll _ target)

lemma MethodText.not_mem {method : Str} (h : MethodText method) {c : Char} (hc : c.toNat < 128)
    (hl : isAsciiAlphabetic (byteOf c) = false) : c ∉ method := by
  intro hm
  have := all_eq_true.mp h.2 _ ((mem_utf8_iff hc).mpr hm)
  rw [hl] at this
  cases this

/-- A text cut at blanks into one piece has none. -/
lemma splitOn_eq_singleton {s p : Str} (h : s.splitOn ' ' = [p]) : ' ' ∉ s := by
  intro hm
  obtain ⟨a, b, rfl⟩ := append_of_mem hm
  rw [splitOn_append_cons_self] at h
  have hl := congrArg List.length h
  have ha := length_pos_of_ne_nil (splitOn_ne_nil ' ' a)
  have hb := length_pos_of_ne_nil (splitOn_ne_nil ' ' b)
  rw [length_append, length_singleton] at hl
  omega

lemma splitOn_requestLine (method target : Str) :
    (requestLine method target).splitOn ' ' =
      method.splitOn ' ' ++ (target.splitOn ' ' ++ ["HTTP/1.1".toList]) := by
  rw [requestLine, splitOn_append_cons_self, splitOn_append_cons_self]
  rfl

/-- A request line has three parts only if neither the method nor the target has a blank. -/
lemma not_mem_of_splitOn_requestLine {method target a b c : Str}
    (h : (requestLine method target).splitOn ' ' = [a, b, c]) : ' ' ∉ method ∧ ' ' ∉ target := by
  rw [splitOn_requestLine] at h
  have hm := length_pos_of_ne_nil (splitOn_ne_nil ' ' method)
  have ht := length_pos_of_ne_nil (splitOn_ne_nil ' ' target)
  have hl := congrArg List.length h
  simp only [length_append, length_cons] at hl
  obtain ⟨p, hp⟩ := length_eq_one_iff.mp (show (method.splitOn ' ').length = 1 by omega)
  obtain ⟨q, hq⟩ := length_eq_one_iff.mp (show (target.splitOn ' ').length = 1 by omega)
  exact ⟨splitOn_eq_singleton hp, splitOn_eq_singleton hq⟩

/-- The parser's test of a target, on its characters. -/
lemma any_control_iff {target : Str} :
    (utf8 target).any (fun b => b ≤ 31 || b == 127) = true ↔
      ∃ c ∈ target, c.toNat ≤ 31 ∨ c.toNat = 127 := by
  simp only [any_eq_true, Bool.or_eq_true, decide_eq_true_eq, beq_iff_eq,
    UInt8.le_iff_toNat_le]
  constructor
  · rintro ⟨b, hb, hco⟩
    have hs : b.toNat ≤ 31 ∨ b.toNat = 127 := hco.imp id fun h => by rw [h]; rfl
    obtain ⟨c, hc, heq⟩ := (mem_utf8_ascii (by omega)).mp hb
    exact ⟨c, hc, by rwa [heq]⟩
  · rintro ⟨c, hc, hco⟩
    have ha : c.toNat < 128 := by omega
    refine ⟨byteOf c, (mem_utf8_iff ha).mpr hc, ?_⟩
    refine hco.imp (fun h => ?_) fun h => ?_
    · rw [byteOf_toNat ha]
      exact h
    · exact UInt8.toNat_inj.mp ((byteOf_toNat ha).trans h)

/-- **What the parser makes of a request line.** -/
lemma parseRequestLine_eq_ok {method target : Str} {parts : Str × Str × Str}
    (hu : (utf8 target).length ≤ config.maxUriLength)
    (hli : (utf8 (requestLine method target)).length ≤ config.maxHeaderLine) :
    parseRequestLine config (requestLine method target) = .ok parts ↔
      parts = (method, target, "HTTP/1.1".toList) ∧ MethodText method ∧ TargetText target := by
  by_cases hb : ' ' ∈ method ∨ ' ' ∈ target
  · have hlhs : parseRequestLine config (requestLine method target) ≠ .ok parts := by
      rw [parseRequestLine]
      split
      · rename_i a b c hp
        have := not_mem_of_splitOn_requestLine hp
        exact absurd hb (by simp [this])
      · simp
    refine iff_of_false hlhs ?_
    rintro ⟨-, hm, ht⟩
    rcases hb with hb | hb
    · exact hm.not_mem (by decide) (by decide) hb
    · exact absurd (ht.2 ' ' hb).1 (by decide)
  · rw [not_or] at hb
    have hp : (requestLine method target).splitOn ' ' =
        [method, target, "HTTP/1.1".toList] := by
      rw [splitOn_requestLine, List.splitOn_eq_singleton hb.1,
        List.splitOn_eq_singleton hb.2]
      rfl
    rw [parseRequestLine, hp]
    constructor
    · intro h
      simp only at h
      split_ifs at h with hem hl _ _ hco _
      simp only [any_cons, Bool.or_eq_true, not_or] at hem
      rw [Except.ok.injEq] at h
      refine ⟨h.symm, ⟨by simpa using hem.1.1, by simpa using hl⟩,
        by simpa using hem.2.1.1, fun c hc => ?_⟩
      have hc32 : c.toNat ≠ 32 := fun h32 =>
        hb.2 (by rwa [show ' ' = c from Char.toNat_inj.mp h32.symm])
      have hc31 : ¬ (c.toNat ≤ 31 ∨ c.toNat = 127) := fun hlow =>
        hco (any_control_iff.mpr ⟨c, hc, hlow⟩)
      omega
    · rintro ⟨rfl, hm, ht⟩
      have htab : '\t' ∉ method := hm.not_mem (by decide) (by decide)
      have htab' : '\t' ∉ target := fun hmem => absurd (ht.2 _ hmem).1 (by decide)
      have hco : ¬ (utf8 target).any (fun b => b ≤ 31 || b == 127) = true := by
        rw [any_control_iff]
        rintro ⟨c, hc, hlow⟩
        have := ht.2 c hc
        omega
      simp only
      rw [if_neg, if_neg, if_neg, if_neg hco, if_neg]
      · simp
      · omega
      · omega
      · simp [hm.2]
      · simp [hm.1, ht.1, htab, htab']

/-! ## Fields -/

def headerLine (field : Str × Str) : Str := field.1 ++ ": ".toList ++ field.2

/-- A field as the parser keeps it. -/
def trimmed (field : Str × Str) : Str × Str := (field.1, trim field.2)

/-- The values of the fields of that name, whatever its case. -/
def namedValues (name : String) (fields : Headers) : List Str :=
  (fields.filter fun field => eqIgnoreAsciiCase field.1 name.toList).map fun field => trim field.2

/-- A name the parser takes. -/
def TokenText (name : Str) : Prop := name ≠ [] ∧ (utf8 name).all isTchar = true

/-- A field name the parser takes, and that does not announce another framing. -/
structure FieldName (name : Str) : Prop where
  token : TokenText name
  framing : eqIgnoreAsciiCase name "Transfer-Encoding".toList = false

/-- A value that stays on its line. -/
def ValueText (value : Str) : Prop := ∀ c ∈ value, isLineBreak c = false

instance (value : Str) : Decidable (ValueText value) := List.decidableBAll _ value

lemma TokenText.not_mem {name : Str} (h : TokenText name) {c : Char} (hc : c.toNat < 128)
    (ht : isTchar (byteOf c) = false) : c ∉ name := by
  intro hm
  have := all_eq_true.mp h.2 _ ((mem_utf8_iff hc).mpr hm)
  rw [ht] at this
  cases this

lemma headerLine_ne_nil (field : Str × Str) : headerLine field ≠ [] := by
  simp [headerLine]

/-- A field line is cut where it was joined. -/
lemma scanHeaderLine_headerLine {scan : HeaderScan} {field : Str × Str} (hn : TokenText field.1)
    (hl : (utf8 (headerLine field)).length ≤ config.maxHeaderLine)
    (hco : scan.headers.length < config.maxHeaders) :
    scanHeaderLine config scan (headerLine field) = scan.push field.1 (trim field.2) := by
  have hsp : splitOnce ':' (headerLine field) = some (field.1, ' ' :: field.2) := by
    have hc : ':' ∉ field.1 := hn.not_mem (by decide) (by decide)
    rw [headerLine, append_assoc]
    exact splitOnce_append hc _
  have hs : trim (headerLine field) ≠ [] := by
    rw [ne_eq, trim_eq_nil_iff]
    intro ha
    have := ha ':' (by simp [headerLine])
    exact absurd this (by decide)
  rw [scanHeaderLine, if_neg hs, if_neg (by omega), if_neg (by omega), hsp]
  simp [hn.1, hn.2, trim_space_cons]

lemma not_lengthName_of_hostName {name : Str} (h : eqIgnoreAsciiCase name "Host".toList = true) :
    eqIgnoreAsciiCase name "Content-Length".toList = false := by
  simp only [eqIgnoreAsciiCase, beq_iff_eq] at h ⊢
  rw [h]
  decide

lemma namedValues_singleton (name : String) (field : Str × Str) :
    namedValues name [field] =
      if eqIgnoreAsciiCase field.1 name.toList = true then [trim field.2] else [] := by
  rw [namedValues, filter_cons]
  split_ifs <;> rfl

lemma ValueText.trim_no_break {value : Str} (h : ValueText value) :
    ((trim value).contains '\r' || (trim value).contains '\n') = false := by
  have hno : ∀ c, isLineBreak c = true → c ∉ trim value := by
    intro c hc hm
    rw [h c (mem_of_mem_trim hm)] at hc
    cases hc
  simp only [Bool.or_eq_false_iff, contains_eq_mem, decide_eq_false_iff_not]
  exact ⟨hno _ rfl, hno _ rfl⟩

/-- What a field adds to the vectors of the header loop. -/
lemma push_eq_ok {scan : HeaderScan} {field : Str × Str}
    (hf : eqIgnoreAsciiCase field.1 "Transfer-Encoding".toList = false)
    (hv : ValueText field.2) :
    scan.push field.1 (trim field.2) =
      .ok { headers := scan.headers ++ [trimmed field]
            hosts := scan.hosts ++ namedValues "Host" [field]
            lengths := scan.lengths ++ namedValues "Content-Length" [field] } := by
  simp only [HeaderScan.push, hv.trim_no_break, hf, namedValues_singleton]
  by_cases hh : eqIgnoreAsciiCase field.1 "Host".toList = true
  · simp only [hh, not_lengthName_of_hostName hh, Bool.false_eq_true, if_false, append_nil]
    rfl
  · by_cases hl : eqIgnoreAsciiCase field.1 "Content-Length".toList = true
    · simp only [hh, hl, Bool.false_eq_true, if_false, append_nil]
      rfl
    · simp only [hh, hl, Bool.false_eq_true, if_false, append_nil]
      rfl

/-- **The header loop reads written fields back, with their values trimmed.** -/
lemma foldlM_headerLines {fields : Headers}
    (hfie : ∀ field ∈ fields, FieldName field.1 ∧ ValueText field.2)
    (hl : ∀ field ∈ fields, (utf8 (headerLine field)).length ≤ config.maxHeaderLine)
    (scan : HeaderScan) (hc : scan.headers.length + fields.length ≤ config.maxHeaders) :
    (fields.map headerLine).foldlM (scanHeaderLine config) scan =
      .ok { headers := scan.headers ++ fields.map trimmed
            hosts := scan.hosts ++ namedValues "Host" fields
            lengths := scan.lengths ++ namedValues "Content-Length" fields } := by
  induction fields generalizing scan with
  | nil => simp [namedValues]; rfl
  | cons field fields ih =>
    have hfi := hfie field mem_cons_self
    rw [length_cons] at hc
    rw [map_cons, foldlM_cons,
      scanHeaderLine_headerLine hfi.1.token (hl field mem_cons_self) (by omega),
      push_eq_ok hfi.1.framing hfi.2]
    refine (ih (fun f hf => hfie f (mem_cons_of_mem _ hf))
      (fun f hf => hl f (mem_cons_of_mem _ hf)) _ ?_).trans ?_
    · simp only [length_append, length_singleton]
      omega
    · simp only [namedValues, append_assoc, map_cons, singleton_append,
        ← map_append, ← filter_append]

/-! ## Requests -/

/-- The lines of a written head. -/
def headLines (method : Method) (target : Str) (fields : Headers) : List Str :=
  requestLine method.text target :: fields.map headerLine

/-- A request as it is written: the lines, an empty line, the body. -/
def writtenRequest (method : Method) (target : Str) (fields : Headers) (body : Bytes) : Bytes :=
  utf8 (joinLines (headLines method target fields)) ++ (headTerminator ++ body)

/-- Limits that nothing in `n` bytes can reach. -/
structure LargeEnough (limits : ServerConfig) (n : ℕ) : Prop where
  requestSize : n ≤ limits.maxRequestSize
  headerSize : n ≤ limits.maxHeaderSize
  headers : n ≤ limits.maxHeaders
  headerLine : n ≤ limits.maxHeaderLine
  uriLength : n ≤ limits.maxUriLength

/-- **The bytes are one request and nothing else.**  The parser reads all of them as that request,
and in their head no part ends its line early or adds a line. -/
structure OneRequest (method : Method) (target : Str) (fields : Headers) (body wire : Bytes) :
    Prop where
  parses : ∀ limits, LargeEnough limits wire.length → ∃ r,
    (parseHttpRequestFromBufWithLimits limits).run wire = .ok (some r) [] ∧
      r.method = method ∧ r.uri = target ∧ r.headers = fields.map trimmed ∧ r.body = body
  lines : ∃ head, wire = utf8 head ++ (headTerminator ++ body) ∧
    splitCrlf head = headLines method target fields

/-- What must hold of the parts of a request for it to be read back. -/
structure Plain (method : Method) (target : Str) (fields : Headers) (host : Str) : Prop where
  method : MethodText method.text
  target : TargetText target
  values : ∀ field ∈ fields, ValueText field.2
  host : trim host ≠ []

lemma isAsciiAlphabetic_ascii {b : UInt8} (h : isAsciiAlphabetic b = true) : b.toNat < 128 := by
  simp only [isAsciiAlphabetic, Bool.or_eq_true, Bool.and_eq_true, decide_eq_true_eq,
    UInt8.le_iff_toNat_le, UInt8.reduceToNat] at h
  omega

/-- A method that came out of `Method::from` is read back by it. -/
lemma ofStr_text {method : Method} (hm : ∃ s, method = Method.ofStr s)
    (h : MethodText method.text) : Method.ofStr method.text = method := by
  obtain ⟨s, rfl⟩ := hm
  have ha : ∀ c ∈ toUppercase s, c.toNat < 128 := by
    rw [Method.text_ofStr] at h
    exact fun c hc => ((all_utf8_iff fun _ => isAsciiAlphabetic_ascii).mp h.2 c hc).1
  rw [Method.text_ofStr, Method.ofStr, Method.ofStr, toUppercase_toUppercase ha]

section OneRequest

variable {method : Method} {target host : Str} {fields : Headers} {body : Bytes}

lemma headLines_ne_nil (hli : ∀ l ∈ headLines method target fields, OneLine l) :
    ∀ l ∈ headLines method target fields, l ≠ [] ∧ OneLine l := by
  intro l hl
  refine ⟨?_, hli l hl⟩
  rcases mem_cons.mp hl with rfl | hf
  · simp [requestLine]
  · obtain ⟨field, _, rfl⟩ := mem_map.mp hf
    exact headerLine_ne_nil field

lemma splitCrlf_headLines :
    splitCrlf (joinLines (headLines method target fields)) = headLines method target fields ↔
      ∀ l ∈ headLines method target fields, OneLine l :=
  splitCrlf_joinLines (cons_ne_nil _ _)

/-- Room for the parts of a written request. -/
structure Roomy (limits : ServerConfig) (method : Method) (target : Str) (fields : Headers)
    (body : Bytes) : Prop where
  head : (utf8 (joinLines (headLines method target fields))).length + 4 ≤ limits.maxHeaderSize
  requestLine : (utf8 (requestLine method.text target)).length ≤ limits.maxHeaderLine
  uri : (utf8 target).length ≤ limits.maxUriLength
  line : ∀ field ∈ fields, (utf8 (headerLine field)).length ≤ limits.maxHeaderLine
  count : fields.length ≤ limits.maxHeaders
  body : body.length ≤ limits.maxRequestSize

variable {limits : ServerConfig}

lemma roomy_of_largeEnough
    (h : LargeEnough limits (writtenRequest method target fields body).length) :
    Roomy limits method target fields body := by
  have hlen : (writtenRequest method target fields body).length =
      (utf8 (joinLines (headLines method target fields))).length + (4 + body.length) := by
    simp [writtenRequest, headTerminator]
    omega
  obtain ⟨hr, hhe, hh, hl, hu⟩ := h
  have hf : (utf8 (requestLine method.text target)).length ≤
      (utf8 (joinLines (headLines method target fields))).length :=
    length_utf8_le_joinLines mem_cons_self
  have hc := length_le_joinLines (headLines method target fields)
  rw [headLines, length_cons, length_map, ← headLines] at hc
  refine ⟨by omega, by omega, ?_, fun field hfi => ?_, by omega, by omega⟩
  · rw [requestLine, utf8_append, utf8_cons, utf8_append] at hf
    simp only [length_append] at hf
    omega
  · have hm : headerLine field ∈ headLines method target fields :=
      mem_cons_of_mem _ (mem_map_of_mem hfi)
    have := length_utf8_le_joinLines hm
    omega

/-- The head of a written request whose lines are not broken inside, evaluated. -/
lemma parseHead_written (hl : ∀ l ∈ headLines method target fields, OneLine l)
    (hr : Roomy limits method target fields body) :
    parseHttpRequestHeadFromBufWithLimits (writtenRequest method target fields body) limits =
      if (headLines method target fields).any (·.any isLineBreak) then .error .malformedRequest
      else (parseHeaderText limits (joinLines (headLines method target fields))
        ((utf8 (joinLines (headLines method target fields))).length + 4)).map some :=
  parseHttpRequestHead_joinLines (cons_ne_nil _ _) (headLines_ne_nil hl) hr.head body

/-- Acceptance of the text of a written head, line by line. -/
lemma parseHeaderText_written {head : HttpRequestHead} {n : ℕ}
    (hli : ∀ l ∈ headLines method target fields, OneLine l)
    (hr : Roomy limits method target fields body) (hn : ∀ field ∈ fields, FieldName field.1)
    (hv : ∀ field ∈ fields, ValueText field.2) :
    parseHeaderText limits (joinLines (headLines method target fields)) n = .ok head ↔
      ∃ contentLength, MethodText method.text ∧ TargetText target ∧
        checkHosts (namedValues "Host" fields) = .ok () ∧
        contentLengthOf limits (namedValues "Content-Length" fields) = .ok contentLength ∧
        head = { method := Method.ofStr method.text, uri := target, version := "HTTP/1.1".toList
                 headers := fields.map trimmed, contentLength, headerLen := n } := by
  have hc := splitCrlf_headLines.mpr hli
  have hs := foldlM_headerLines (fun f hf => ⟨hn f hf, hv f hf⟩) hr.line {}
    (by simpa using hr.count)
  rw [parseHeaderText_eq_ok, hc]
  constructor
  · rintro ⟨_, _, m, u, v, scan, length, hsp, hline, hfo, hh, hl, rfl⟩
    obtain ⟨rfl, rfl⟩ := List.cons.inj hsp
    obtain ⟨hp, hm, ht⟩ := (parseRequestLine_eq_ok hr.uri hr.requestLine).mp hline
    obtain ⟨rfl, rfl, rfl⟩ : m = method.text ∧ u = target ∧ v = "HTTP/1.1".toList := by
      simpa using hp
    rw [hs, Except.ok.injEq] at hfo
    subst hfo
    exact ⟨length, hm, ht, hh, hl, rfl⟩
  · rintro ⟨length, hm, ht, hh, hl, rfl⟩
    exact ⟨_, _, _, _, _, _, length, rfl,
      (parseRequestLine_eq_ok hr.uri hr.requestLine).mpr ⟨rfl, hm, ht⟩, hs, hh,
      hl, rfl⟩

lemma checkHosts_trim : checkHosts [trim host] = .ok () ↔ trim host ≠ [] := by
  by_cases h : trim host = []
  · rw [checkHosts, if_pos (trim_trim_eq_nil_iff.mpr h)]
    simp [h]
  · simp [checkHosts, trim_trim_eq_nil_iff.not.mpr h, h]

lemma contentLengthOf_decimal {n : ℕ} (hn : n < 2 ^ 64) (hsi : n ≤ limits.maxRequestSize) :
    contentLengthOf limits [decimal n] = .ok n := by
  have hs : ([decimal n].any fun value => value ≠ decimal n) = false := by simp
  simp only [contentLengthOf, hs, parseUnsigned_decimal hn, Bool.false_eq_true, if_false,
    if_neg (Nat.not_lt.mpr hsi)]

lemma valueText_of_not_mem {s : Str} (hcr : '\r' ∉ s) (hlf : '\n' ∉ s) : ValueText s := by
  intro c hc
  have hne : c ≠ '\r' ∧ c ≠ '\n' := ⟨fun h => hcr (h ▸ hc), fun h => hlf (h ▸ hc)⟩
  simp [isLineBreak, hne]

/-- A plain request breaks no line. -/
lemma Plain.lines (h : Plain method target fields host)
    (hn : ∀ field ∈ fields, FieldName field.1) :
    ∀ l ∈ headLines method target fields, ValueText l := by
  refine forall_mem_cons.mpr ⟨?_, forall_mem_map.mpr fun field hf => ?_⟩
  · have hm : ValueText method.text :=
      valueText_of_not_mem (h.method.not_mem (by decide) (by decide))
        (h.method.not_mem (by decide) (by decide))
    have hta : ValueText target :=
      valueText_of_not_mem (fun hc => absurd (h.target.2 _ hc).1 (by decide))
        (fun hc => absurd (h.target.2 _ hc).1 (by decide))
    have hv : ValueText (' ' :: "HTTP/1.1".toList) := by decide
    exact forall_mem_append.mpr ⟨hm,
      forall_mem_cons.mpr ⟨rfl, forall_mem_append.mpr ⟨hta, hv⟩⟩⟩
  · have ht := (hn field hf).token
    have hna : ValueText field.1 :=
      valueText_of_not_mem (ht.not_mem (by decide) (by decide))
        (ht.not_mem (by decide) (by decide))
    have hco : ValueText ": ".toList := by decide
    exact forall_mem_append.mpr
      ⟨forall_mem_append.mpr ⟨hna, hco⟩, h.values field hf⟩

lemma oneLine_of_valueText {l : Str} (h : ValueText l) : OneLine l :=
  oneLine_of_not_mem fun hc => absurd (h _ hc) (by decide)

lemma any_isLineBreak_eq_false {lines : List Str} :
    lines.any (·.any isLineBreak) = false ↔ ∀ l ∈ lines, ValueText l := by
  simp [ValueText]

/-- A request read off the whole of its bytes. -/
lemma parseHttpRequest_written (hr : Roomy limits method target fields body)
    (hf : (writtenRequest method target fields body).length < 2 ^ 64)
    (hm : ∃ s, method = Method.ofStr s) (hn : ∀ field ∈ fields, FieldName field.1)
    (hh : namedValues "Host" fields = [trim host])
    (hle : namedValues "Content-Length" fields = [decimal body.length])
    (h : Plain method target fields host) :
    (parseHttpRequestFromBufWithLimits limits).run (writtenRequest method target fields body) =
      .ok (some { method, uri := target, version := "HTTP/1.1".toList
                  headers := fields.map trimmed, body }) [] := by
  have hb := h.lines hn
  have hli := fun l hl => oneLine_of_valueText (hb l hl)
  have hte := (parseHeaderText_written hli hr hn h.values
    (n := (utf8 (joinLines (headLines method target fields))).length + 4)).mpr
    ⟨body.length, h.method, h.target, hh ▸ checkHosts_trim.mpr h.host,
      hle ▸ contentLengthOf_decimal (by simp [writtenRequest] at hf; omega) hr.body, rfl⟩
  rw [ofStr_text hm h.method] at hte
  have hp := parseHead_written hli hr
  rw [any_isLineBreak_eq_false.mpr hb, hte] at hp
  have ht : saturatingAdd ((utf8 (joinLines (headLines method target fields))).length + 4)
      body.length = (writtenRequest method target fields body).length := by
    rw [saturatingAdd]
    simp only [writtenRequest, length_append, headTerminator, length_cons,
      length_nil] at hf ⊢
    omega
  have hbo : (writtenRequest method target fields body).drop
      ((utf8 (joinLines (headLines method target fields))).length + 4) = body := by
    rw [writtenRequest, ← append_assoc]
    exact drop_left' (by simp [headTerminator])
  refine parseHttpRequest_eq_some.mpr ⟨_, hp, ht.le, ?_, ?_⟩
  · rw [HttpRequestHead.totalRequired, ht, take_length, HttpRequestHead.intoRequest, hbo]
  · rw [HttpRequestHead.totalRequired, ht, drop_length]

/-- **A written request is one request exactly if its parts are plain.** -/
lemma oneRequest_iff (hfits : (writtenRequest method target fields body).length < 2 ^ 64)
    (hme : ∃ s, method = Method.ofStr s)
    (hn : ∀ field ∈ fields, FieldName field.1)
    (hh : namedValues "Host" fields = [trim host])
    (hle : namedValues "Content-Length" fields = [decimal body.length]) :
    OneRequest method target fields body (writtenRequest method target fields body) ↔
      Plain method target fields host := by
  constructor
  · rintro ⟨hp, head, hw, hcut⟩
    have hhe : joinLines (headLines method target fields) = head :=
      utf8_injective (append_cancel_right hw)
    rw [← hhe, splitCrlf_headLines] at hcut
    let n := (writtenRequest method target fields body).length
    have hla : LargeEnough { maxRequestSize := n, maxHeaderSize := n, maxHeaders := n
                             maxHeaderLine := n, maxUriLength := n } n :=
      ⟨le_rfl, le_rfl, le_rfl, le_rfl, le_rfl⟩
    have hr := roomy_of_largeEnough hla
    obtain ⟨r, hrun, -⟩ := hp _ hla
    obtain ⟨found, hf, -⟩ := parseHttpRequest_eq_some.mp hrun
    rw [parseHead_written hcut hr] at hf
    -- a bare carriage return or line feed would have been refused
    have hb : ∀ l ∈ headLines method target fields, ValueText l := by
      rw [← any_isLineBreak_eq_false, Bool.eq_false_iff]
      intro hbad
      rw [if_pos hbad] at hf
      cases hf
    have hv : ∀ field ∈ fields, ValueText field.2 := fun field hfi c hc =>
      hb (headerLine field) (mem_cons_of_mem _ (mem_map_of_mem hfi)) c
        (mem_append_right _ hc)
    rw [any_isLineBreak_eq_false.mpr hb] at hf
    cases hte : parseHeaderText _ (joinLines (headLines method target fields)) _ with
    | error e =>
      rw [hte] at hf
      cases hf
    | ok text =>
      obtain ⟨length, hm, ht, hho, -, -⟩ :=
        (parseHeaderText_written hcut hr hn hv).mp hte
      exact ⟨hm, ht, hv, checkHosts_trim.mp (hh ▸ hho)⟩
  · intro h
    refine ⟨fun limits hla => ?_, _, rfl, ?_⟩
    · exact ⟨_, parseHttpRequest_written (roomy_of_largeEnough hla) hfits hme hn hh
        hle h, rfl, rfl, rfl, rfl⟩
    · rw [splitCrlf_headLines]
      exact fun l hl => oneLine_of_valueText (h.lines hn l hl)

end OneRequest

/-! ## What is known of a head that was accepted -/

/-- A request line that was accepted is a written one, within its limits. -/
lemma written_of_parseRequestLine {line method target version : Str}
    (h : parseRequestLine config line = .ok (method, target, version)) :
    line = requestLine method target ∧ version = "HTTP/1.1".toList ∧
      (utf8 target).length ≤ config.maxUriLength ∧
      (utf8 line).length ≤ config.maxHeaderLine := by
  rw [parseRequestLine] at h
  split at h
  · rename_i a b c hp
    split_ifs at h with _ _ hu hl _ hv
    obtain ⟨rfl, rfl, rfl⟩ := h
    have hj : [' '].intercalate (line.splitOn ' ') = line := intercalate_splitOn ' '
    rw [hp, not_not.mp hv] at hj
    exact ⟨hj.symm, not_not.mp hv, Nat.le_of_not_lt hu, Nat.le_of_not_lt hl⟩
  · cases h

lemma parts_of_parseRequestLine {line method target version : Str}
    (h : parseRequestLine config line = .ok (method, target, version)) :
    MethodText method ∧ TargetText target := by
  obtain ⟨rfl, -, hu, hl⟩ := written_of_parseRequestLine h
  exact ((parseRequestLine_eq_ok hu hl).mp h).2

/-- What the header loop keeps true of its vectors. -/
structure HeaderScan.Accepted (scan : HeaderScan) : Prop where
  fields : ∀ header ∈ scan.headers,
    FieldName header.1 ∧ ValueText header.2 ∧ trim header.2 = header.2
  hosts : scan.hosts = namedValues "Host" scan.headers

lemma HeaderScan.Accepted.push {scan next : HeaderScan} {name value : Str}
    (hs : scan.Accepted) (hna : TokenText name) (hva : trim value = value)
    (h : scan.push name value = .ok next) : next.Accepted := by
  rw [HeaderScan.push] at h
  have hn : namedValues "Host" (scan.headers ++ [(name, value)]) =
      scan.hosts ++ if eqIgnoreAsciiCase name "Host".toList = true then [value] else [] := by
    rw [hs.hosts, ← hva, namedValues, filter_append, map_append]
    congr 1
    exact namedValues_singleton "Host" (name, trim value) |>.trans (by rw [trim_trim])
  split_ifs at h with hb hh hl hf
  all_goals
    obtain rfl := Except.ok.inj h
    have hv : ValueText value := by
      simp only [Bool.or_eq_true, contains_eq_mem, decide_eq_true_eq, not_or] at hb
      exact valueText_of_not_mem hb.1 hb.2
  · refine ⟨forall_mem_append.mpr ⟨hs.fields, ?_⟩, ?_⟩
    · refine forall_mem_singleton.mpr ⟨⟨hna, ?_⟩, hv, hva⟩
      simp only [eqIgnoreAsciiCase, beq_iff_eq] at hh ⊢
      rw [hh]
      decide
    · rw [hn, if_pos hh]
  · refine ⟨forall_mem_append.mpr ⟨hs.fields, ?_⟩, ?_⟩
    · refine forall_mem_singleton.mpr ⟨⟨hna, ?_⟩, hv, hva⟩
      simp only [eqIgnoreAsciiCase, beq_iff_eq] at hl ⊢
      rw [hl]
      decide
    · rw [hn, if_neg hh, append_nil]
  · refine ⟨forall_mem_append.mpr ⟨hs.fields, ?_⟩, ?_⟩
    · exact forall_mem_singleton.mpr ⟨⟨hna, by simpa using hf⟩, hv, hva⟩
    · rw [hn, if_neg hh, append_nil]

lemma HeaderScan.Accepted.scanHeaderLine {scan next : HeaderScan} {line : Str}
    (hs : scan.Accepted) (h : scanHeaderLine config scan line = .ok next) : next.Accepted := by
  rw [Veysrs.scanHeaderLine] at h
  split_ifs at h with hb hl hm
  · obtain rfl := Except.ok.inj h
    exact hs
  · split at h
    · cases h
    · rename_i name value hsp
      split_ifs at h with hn
      simp only [Bool.or_eq_true, Bool.not_eq_true', not_or, Bool.not_eq_false] at hn
      exact hs.push ⟨by simpa using hn.1, hn.2⟩ (trim_trim value) h

/-- A head as the parser returns it. -/
structure AcceptedHead (head : HttpRequestHead) : Prop where
  known : ∃ s, head.method = Method.ofStr s
  method : MethodText head.method.text
  target : TargetText head.uri
  fields : ∀ header ∈ head.headers,
    FieldName header.1 ∧ ValueText header.2 ∧ trim header.2 = header.2
  host : ∃ host, namedValues "Host" head.headers = [host] ∧ trim host ≠ []
  contentLength : head.contentLength < 2 ^ 64

lemma contentLengthOf_lt {lengths : List Str} {n : ℕ} (h : contentLengthOf config lengths = .ok n) :
    n < 2 ^ 64 := by
  cases lengths with
  | nil =>
    obtain rfl := Except.ok.inj h
    decide
  | cons first rest =>
    rw [contentLengthOf] at h
    split_ifs at h
    cases hp : parseUnsigned (2 ^ 64) first with
    | none =>
      rw [hp] at h
      cases h
    | some length =>
      simp only [hp] at h
      split_ifs at h
      obtain rfl := Except.ok.inj h
      rw [parseUnsigned] at hp
      split_ifs at hp with hs
      obtain rfl := Option.some.inj hp
      exact hs.2.2

lemma isAsciiAlphabetic_toUpper {c : Char} (ha : c.toNat < 128)
    (h : isAsciiAlphabetic (byteOf c) = true) :
    c.toUpper.toNat < 128 ∧ isAsciiAlphabetic (byteOf c.toUpper) = true := by
  have hall : ∀ n : Fin 128, isAsciiAlphabetic (byteOf (Char.ofNat n)) = true →
      (Char.ofNat n).toUpper.toNat < 128 ∧
        isAsciiAlphabetic (byteOf (Char.ofNat n).toUpper) = true := by
    decide
  have hc := hall ⟨c.toNat, ha⟩
  rw [Char.ofNat_toNat] at hc
  exact hc h

lemma methodText_ofStr {s : Str} (h : MethodText s) : MethodText (Method.ofStr s).text := by
  have hl := (all_utf8_iff fun _ => isAsciiAlphabetic_ascii).mp h.2
  have hu : toUppercase s = s.map Char.toUpper :=
    toUppercase_ascii fun c hc => (hl c hc).1
  rw [Method.text_ofStr, hu]
  refine ⟨by simpa using h.1, (all_utf8_iff fun _ => isAsciiAlphabetic_ascii).mpr ?_⟩
  intro c hc
  obtain ⟨d, hd, rfl⟩ := mem_map.mp hc
  exact isAsciiAlphabetic_toUpper (hl d hd).1 (hl d hd).2

lemma acceptedHead_of_parse {buffer : Bytes} {head : HttpRequestHead}
    (h : parseHttpRequestHeadFromBufWithLimits buffer config = .ok (some head)) :
    AcceptedHead head := by
  obtain ⟨headerEnd, -, -, hb⟩ := parseHttpRequestHead_eq_some.mp h
  rw [parseHeaderBytes] at hb
  split_ifs at hb
  split at hb
  · cases hb
  · obtain ⟨line, lines, method, uri, version, scan, length, -, hli, hsc, hh, hl,
      rfl⟩ := parseHeaderText_eq_ok.mp hb
    obtain ⟨hm, ht⟩ := parts_of_parseRequestLine hli
    have ha : scan.Accepted := except_foldlM_keeps (fun hs hst => hs.scanHeaderLine hst)
      ⟨by simp, rfl⟩ hsc
    refine ⟨⟨method, rfl⟩, methodText_ofStr hm, ht, ha.fields, ?_,
      contentLengthOf_lt hl⟩
    have ho := ha.hosts
    rw [checkHosts.eq_def] at hh
    split at hh
    · cases hh
    · rename_i host hho
      split_ifs at hh with hbl
      exact ⟨host, ho.symm.trans hho, hbl⟩
    · cases hh

end Veysrs
