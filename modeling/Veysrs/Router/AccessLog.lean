import Veysrs.Core.Json
import Veysrs.Http.Accepted
import Veysrs.Router.Static

/-!
# The access log

`log_access` and `json_escape` of `router/handler.rs`, and `write_line` of `server/logging.rs`, which
writes the line that `log_access` has built.

In the format `json` every part of the request is escaped: the line has no line feed but its last
character, and a reader of JSON gets the parts back.  In the format `text` the method and the URI
stand there as they are.  The HTTP/1.1 parser has let no line feed through, but
`validate_request_headers` does not look at the values; there the line is kept in one piece by
`write_line` only (`access_log_integrity`).
-/

namespace Veysrs

open Core List

namespace Handler

/-! ## The line -/

/-- `char::is_control`. -/
def isControl (c : Char) : Bool := c.toNat < 32 || (127 ≤ c.toNat && c.toNat < 160)

/-- A number in four hexadecimal digits, or more. -/
def hexPadded (n : ℕ) : Str :=
  List.replicate (4 - (Nat.toDigits 16 n).length) '0' ++ Nat.toDigits 16 n

def jsonEscapeChar (ch : Char) : Str :=
  if ch = '"' then "\\\"".toList
  else if ch = '\\' then "\\\\".toList
  else if ch = '\n' then "\\n".toList
  else if ch = '\r' then "\\r".toList
  else if ch = '\t' then "\\t".toList
  else if isControl ch then '\\' :: 'u' :: hexPadded ch.toNat
  else [ch]

def jsonEscape (value : Str) : Str := value.flatMap jsonEscapeChar

def jsonQuoted (value : Str) : Str := '"' :: (jsonEscape value ++ ['"'])

def jsonField (name : String) (value : Str) : Str := '"' :: (name.toList ++ '"' :: ':' :: value)

/-- `peer_ip_str`. -/
def peerText (peer : Option IpAddr) : Str := peer.elim "unknown".toList IpAddr.text

/-- Milliseconds with two decimals, from their hundredths. -/
def durationText (hundredths : ℕ) : Str :=
  decimal (hundredths / 100) ++ '.' :: padded 2 (hundredths % 100)

section Line

variable (config : ServerConfig) (peer : Option IpAddr) (req : HttpRequest) (resp : HttpResponse)
  (hundredths : ℕ)

def bodyBytes : ℕ := if req.method = .head then 0 else resp.bodyLen

/-- The line is one format text in the source. -/
def jsonLine : Str :=
  '\x7b' :: (jsonField "remote_addr" (jsonQuoted (peerText peer)) ++ ',' ::
    (jsonField "method" (jsonQuoted req.method.text) ++ ',' ::
    (jsonField "path" (jsonQuoted req.uri) ++ ',' ::
    (jsonField "protocol" (jsonQuoted req.version) ++ ',' ::
    (jsonField "status" (decimal resp.status.code) ++ ',' ::
    (jsonField "response_bytes" (decimal (bodyBytes req resp)) ++ ',' ::
    (jsonField "duration_ms" (durationText hundredths) ++ ['\x7d']))))))) ++ ['\n']

def textLine : Str :=
  "[INFO] ".toList ++ (peerText peer ++ (" \"".toList ++ (req.method.text ++ ' ' ::
  (req.uri ++ ' ' :: (req.version ++ ("\" ".toList ++ (decimal resp.status.code ++ ' ' ::
  (decimal (bodyBytes req resp) ++ ' ' :: (durationText hundredths ++ "ms".toList))))))))) ++ ['\n']

def inJson : Prop := eqIgnoreAsciiCase config.logFormat "json".toList = true

instance : Decidable (inJson config) := inferInstanceAs (Decidable (_ = true))

/-- The line `log_access` builds. -/
def accessLine : Str :=
  if inJson config then jsonLine peer req resp hundredths else textLine peer req resp hundredths

/-- What a reader of JSON is to find in a line. -/
def logObject : Json := .obj [
  ("remote_addr".toList, .str (peerText peer)), ("method".toList, .str req.method.text),
  ("path".toList, .str req.uri), ("protocol".toList, .str req.version),
  ("status".toList, .num (decimal resp.status.code)),
  ("response_bytes".toList, .num (decimal (bodyBytes req resp))),
  ("duration_ms".toList, .num (durationText hundredths))]

end Line

/-- The text `write_line` sends to the destination of the log. -/
def sanitizedLine (line : Str) : Str :=
  let sanitized := (line.take (16 * 1024)).map fun ch => if ch = '\r' ∨ ch = '\n' then ' ' else ch
  (if line.getLast? = some '\n' then sanitized.dropLast else sanitized) ++ ['\n']

/-! ## Line feeds -/

/-- The only line feed is the last character. -/
def OneLineFeed (line : Str) : Prop := line.count '\n' = 1 ∧ line.getLast? = some '\n'

instance (line : Str) : Decidable (OneLineFeed line) := inferInstanceAs (Decidable (_ ∧ _))

lemma oneLineFeed_append {body : Str} : OneLineFeed (body ++ ['\n']) ↔ '\n' ∉ body := by
  rw [OneLineFeed, count_append, List.getLast?_concat, count_singleton_self,
    Nat.add_eq_right, count_eq_zero]
  exact and_iff_left rfl

/-- Whatever the line is, one line is written. -/
lemma oneLineFeed_sanitizedLine (line : Str) : OneLineFeed (sanitizedLine line) := by
  have hmap : '\n' ∉ (line.take (16 * 1024)).map fun ch =>
      if ch = '\r' ∨ ch = '\n' then ' ' else ch := by
    intro hm
    obtain ⟨ch, -, hch⟩ := mem_map.mp hm
    split_ifs at hch with hb
    · exact absurd hch (by decide)
    · exact hb (.inr hch)
  refine oneLineFeed_append.mpr ?_
  split_ifs
  · exact fun hm => hmap (mem_of_mem_dropLast hm)
  · exact hmap

lemma not_mem_decimal (n : ℕ) : '\n' ∉ decimal n :=
  fun hm => absurd (isDigit_of_mem_decimal hm) (by decide)

lemma isDigit_of_mem_padded {width n : ℕ} {c : Char} (h : c ∈ padded width n) :
    c.isDigit = true := by
  rcases mem_append.mp h with h | h
  · rw [eq_of_mem_replicate h]
    decide
  · exact isDigit_of_mem_decimal h

lemma not_mem_durationText (hundredths : ℕ) : '\n' ∉ durationText hundredths := by
  rw [durationText, mem_append, mem_cons, not_or, not_or]
  exact ⟨not_mem_decimal _, by decide,
    fun hm => absurd (isDigit_of_mem_padded hm) (by decide)⟩

lemma not_mem_peerText (peer : Option IpAddr) : '\n' ∉ peerText peer := by
  cases peer with
  | none => decide
  | some ip => exact fun hm => absurd (IpAddr.isAddressChar_of_mem_text ip _ hm) (by decide)

/-- The numbers of the control characters in four digits. -/
lemma hexPadded_control : ∀ n < 160, (hexPadded n).length = 4 ∧ '\n' ∉ hexPadded n ∧
    Json.readUnit (hexPadded n) = some (n, []) := by decide +kernel

lemma isControl_lt {c : Char} (h : isControl c = true) : c.toNat < 160 := by
  simp only [isControl, Bool.or_eq_true, Bool.and_eq_true, decide_eq_true_eq] at h
  omega

lemma not_mem_jsonEscape (value : Str) : '\n' ∉ jsonEscape value := by
  intro hm
  obtain ⟨c, -, hc⟩ := mem_flatMap.mp hm
  rw [jsonEscapeChar] at hc
  split_ifs at hc with _ _ hf _ _ hco
  · exact absurd hc (by decide)
  · exact absurd hc (by decide)
  · exact absurd hc (by decide)
  · exact absurd hc (by decide)
  · exact absurd hc (by decide)
  · rw [mem_cons, mem_cons] at hc
    rcases hc with hc | hc | hc
    · exact absurd hc (by decide)
    · exact absurd hc (by decide)
    · exact (hexPadded_control c.toNat (isControl_lt hco)).2.1 hc
  · exact hf (mem_singleton.mp hc).symm

/-! ## JSON -/

lemma readUnit_append {s rest : Str} {n : ℕ} (hl : s.length = 4)
    (h : Json.readUnit s = some (n, [])) : Json.readUnit (s ++ rest) = some (n, rest) := by
  rcases s with _ | ⟨a, _ | ⟨b, _ | ⟨c, _ | ⟨d, _ | ⟨e, s⟩⟩⟩⟩⟩
  case cons.cons.cons.cons.nil =>
    simp only [Json.readUnit, cons_append, nil_append, Option.bind_eq_bind,
      Option.bind_eq_some_iff, Option.pure_def, Option.some.injEq, Prod.mk.injEq] at h ⊢
    obtain ⟨va, ha, vb, hb, vc, hc, vd, hd, hn, -⟩ := h
    exact ⟨va, ha, vb, hb, vc, hc, vd, hd, hn, trivial⟩
  all_goals cases hl

/-- **`json_escape` writes a character as JSON has it.** -/
lemma escapes_jsonEscapeChar (c : Char) : Json.Escapes (jsonEscapeChar c) c := by
  rw [jsonEscapeChar]
  split_ifs with hq hb hf hr ht hc
  · exact Json.escapes_simple (by decide) (by rw [hq]; rfl)
  · exact Json.escapes_simple (by decide) (by rw [hb]; rfl)
  · exact Json.escapes_simple (by decide) (by rw [hf]; rfl)
  · exact Json.escapes_simple (by decide) (by rw [hr]; rfl)
  · exact Json.escapes_simple (by decide) (by rw [ht]; rfl)
  · have hlow := isControl_lt hc
    obtain ⟨hl, -, hre⟩ := hexPadded_control c.toNat hlow
    exact Json.escapes_unicode (by omega) fun rest => readUnit_append hl hre
  · simp only [isControl, Bool.or_eq_true, decide_eq_true_eq, not_or, Nat.not_lt] at hc
    exact Json.escapes_self hq hb hc.1

lemma scalar_jsonQuoted (value : Str) : Json.Scalar (jsonQuoted value) (.str value) :=
  Json.scalar_string fun c _ => escapes_jsonEscapeChar c

lemma scalar_decimal (n : ℕ) : Json.Scalar (decimal n) (.num (decimal n)) := by
  have hs := Json.scalar_number n (show Json.Fraction [] from .inl rfl)
  rwa [append_nil] at hs

lemma scalar_durationText (hundredths : ℕ) :
    Json.Scalar (durationText hundredths) (.num (durationText hundredths)) := by
  refine Json.scalar_number _ (.inr ⟨_, ?_, fun c hc => isDigit_of_mem_padded hc, rfl⟩)
  exact append_ne_nil_of_right_ne_nil _ (decimal_ne_nil _)

section Written

variable (peer : Option IpAddr) (req : HttpRequest) (resp : HttpResponse) (hundredths : ℕ)

/-- The members of a line, with their texts and values. -/
def logMembers : List (Str × Str × Json) := [
  ("remote_addr".toList, jsonQuoted (peerText peer), .str (peerText peer)),
  ("method".toList, jsonQuoted req.method.text, .str req.method.text),
  ("path".toList, jsonQuoted req.uri, .str req.uri),
  ("protocol".toList, jsonQuoted req.version, .str req.version),
  ("status".toList, decimal resp.status.code, .num (decimal resp.status.code)),
  ("response_bytes".toList, decimal (bodyBytes req resp), .num (decimal (bodyBytes req resp))),
  ("duration_ms".toList, durationText hundredths, .num (durationText hundredths))]

lemma jsonLine_eq_object : jsonLine peer req resp hundredths =
    '\x7b' :: (Json.membersText (logMembers peer req resp hundredths) ++ ['\x7d', '\n']) := by
  have ho : ∀ name text : Str, ∀ value, Json.membersText [(name, text, value)] =
      Json.memberText name text := fun _ _ _ => append_nil _
  rw [logMembers, Json.membersText_cons, Json.membersText_cons, Json.membersText_cons,
    Json.membersText_cons, Json.membersText_cons, Json.membersText_cons, ho]
  simp only [jsonLine, append_assoc, cons_append]
  rfl

/-- **A line in JSON is read as the object of its parts.** -/
lemma parse_jsonLine :
    Json.parse (jsonLine peer req resp hundredths) = some (logObject peer req resp hundredths) := by
  rw [jsonLine_eq_object]
  refine Json.parse_object (cons_ne_nil _ _) ?_ rfl
  have hn : ∀ name ∈ ["remote_addr", "method", "path", "protocol", "status", "response_bytes",
      "duration_ms"], ∀ c ∈ name.toList, Json.Escapes [c] c := by
    have hp : ∀ name ∈ ["remote_addr", "method", "path", "protocol", "status",
        "response_bytes", "duration_ms"], (name.toList.all fun c =>
          c ≠ '"' && c ≠ '\\' && decide (32 ≤ c.toNat)) = true := by decide
    intro name hm c hc
    have ha := all_eq_true.mp (hp name hm) c hc
    simp only [Bool.and_eq_true, decide_eq_true_eq] at ha
    exact Json.escapes_self ha.1.1 ha.1.2 ha.2
  simp only [forall_mem_cons]
  exact ⟨⟨hn "remote_addr" (by decide), scalar_jsonQuoted _⟩,
    ⟨hn "method" (by decide), scalar_jsonQuoted _⟩,
    ⟨hn "path" (by decide), scalar_jsonQuoted _⟩,
    ⟨hn "protocol" (by decide), scalar_jsonQuoted _⟩,
    ⟨hn "status" (by decide), scalar_decimal _⟩,
    ⟨hn "response_bytes" (by decide), scalar_decimal _⟩,
    ⟨hn "duration_ms" (by decide), scalar_durationText _⟩,
    fun _ h => absurd h not_mem_nil⟩

lemma not_mem_jsonField (name : String) {value : Str} (hn : '\n' ∉ name.toList)
    (hv : '\n' ∉ value) : '\n' ∉ jsonField name value := by
  simp [jsonField, hn, hv]

lemma not_mem_jsonQuoted (value : Str) : '\n' ∉ jsonQuoted value := by
  simp [jsonQuoted, not_mem_jsonEscape]

/-- **A line in JSON has one line feed**, whatever the request is. -/
lemma oneLineFeed_jsonLine : OneLineFeed (jsonLine peer req resp hundredths) := by
  rw [jsonLine, oneLineFeed_append]
  have ha := not_mem_jsonField "remote_addr" (by decide)
    (not_mem_jsonQuoted (peerText peer))
  have hm := not_mem_jsonField "method" (by decide)
    (not_mem_jsonQuoted req.method.text)
  have hpa := not_mem_jsonField "path" (by decide) (not_mem_jsonQuoted req.uri)
  have hp := not_mem_jsonField "protocol" (by decide)
    (not_mem_jsonQuoted req.version)
  have hs := not_mem_jsonField "status" (by decide)
    (not_mem_decimal resp.status.code)
  have hb := not_mem_jsonField "response_bytes" (by decide)
    (not_mem_decimal (bodyBytes req resp))
  have hd := not_mem_jsonField "duration_ms" (by decide)
    (not_mem_durationText hundredths)
  simp only [mem_cons, mem_append, ha, hm, hpa, hp, hs, hb,
    hd, Char.reduceEq, not_mem_nil, or_self, not_false_eq_true]

/-- A line of text has one line feed exactly if the method and the URI have none. -/
lemma oneLineFeed_textLine_iff (hv : '\n' ∉ req.version) :
    OneLineFeed (textLine peer req resp hundredths) ↔
      '\n' ∉ req.method.text ∧ '\n' ∉ req.uri := by
  have hi : '\n' ∉ "[INFO] ".toList := by decide
  have ho : '\n' ∉ " \"".toList := by decide
  have hc : '\n' ∉ "\" ".toList := by decide
  have hu : '\n' ∉ "ms".toList := by decide
  refine oneLineFeed_append.trans ?_
  -- the fixed texts are not looked into again
  simp only [mem_append, mem_cons, hi, ho, hc, hu, hv,
    not_mem_peerText, not_mem_decimal, not_mem_durationText, Char.reduceEq, or_false, false_or,
    not_or]

end Written

/-! ## Requests -/

/-- The HTTP/1.1 parser has returned the request. -/
def AcceptedH1 (req : HttpRequest) : Prop := ∃ config buffer rest,
  (parseHttpRequestFromBufWithLimits config).run buffer = .ok (some req) rest

/-- The request is that of a stream whose headers `validate_request_headers` has passed. -/
def AcceptedH2 (req : HttpRequest) : Prop := ∃ st : Stream,
  validateRequestHeaders st.requestHeaders = .ok () ∧ requestOf st = req

lemma AcceptedH1.unbroken {req : HttpRequest} (h : AcceptedH1 req) :
    '\n' ∉ req.method.text ∧ '\n' ∉ req.uri ∧ req.version = "HTTP/1.1".toList := by
  obtain ⟨config, buffer, rest, hp⟩ := h
  obtain ⟨head, hh, -, rfl, -⟩ := parseHttpRequest_eq_some.mp hp
  obtain ⟨text, method, line, lines, hr⟩ := acceptedText_of_parse hh
  have ha := acceptedHead_of_parse hh
  exact ⟨fun hm => absurd (ha.method.valueText _ hm) (by decide),
    fun hm => absurd (ha.target.valueText _ hm) (by decide), hr.version⟩

lemma not_mem_version {req : HttpRequest} (h : AcceptedH1 req ∨ AcceptedH2 req) :
    '\n' ∉ req.version := by
  rcases h with h | ⟨st, -, rfl⟩
  · rw [h.unbroken.2.2]
    decide
  · show '\n' ∉ "HTTP/2.0".toList
    decide

/-- **Access log integrity.**  The line as it is built is one line exactly if it is in JSON or the
method and the URI have no line feed, which is so for every HTTP/1.1 request.  What is written is
one line in any case, and a line in JSON is an object with the parts of the request. -/
theorem access_log_integrity (config : ServerConfig) (peer : Option IpAddr) (req : HttpRequest)
    (resp : HttpResponse) (hundredths : ℕ) (h : AcceptedH1 req ∨ AcceptedH2 req) :
    (OneLineFeed (accessLine config peer req resp hundredths) ↔
      inJson config ∨ '\n' ∉ req.method.text ∧ '\n' ∉ req.uri) ∧
    (AcceptedH1 req → OneLineFeed (accessLine config peer req resp hundredths)) ∧
    OneLineFeed (sanitizedLine (accessLine config peer req resp hundredths)) ∧
    (inJson config → Json.parse (accessLine config peer req resp hundredths) =
      some (logObject peer req resp hundredths)) := by
  have hbuilt : OneLineFeed (accessLine config peer req resp hundredths) ↔
      inJson config ∨ '\n' ∉ req.method.text ∧ '\n' ∉ req.uri := by
    rw [accessLine]
    by_cases hjson : inJson config
    · rw [if_pos hjson]
      exact iff_of_true (oneLineFeed_jsonLine peer req resp hundredths) (.inl hjson)
    · rw [if_neg hjson, oneLineFeed_textLine_iff peer req resp hundredths (not_mem_version h)]
      exact ⟨.inr, fun hparts => hparts.resolve_left hjson⟩
  refine ⟨hbuilt, fun hfirst => ?_, oneLineFeed_sanitizedLine _, fun hjson => ?_⟩
  · exact hbuilt.mpr (.inr ⟨hfirst.unbroken.1, hfirst.unbroken.2.1⟩)
  · rw [accessLine, if_pos hjson]
    exact parse_jsonLine peer req resp hundredths

/-- A stream that asks for this path. -/
def pathStream (path : String) : Stream where
  id := 1
  state := .halfClosedRemote
  window := Window.new 65535
  sendWindow := Window.new 65535
  requestHeaders := [(":method".toList, "GET".toList), (":scheme".toList, "http".toList),
    (":path".toList, path.toList)]
  requestBody := []
  receivedEndStream := true
  receivedEndHeaders := true

theorem access_log_integrity_json :
    let req := requestOf (pathStream "/a\nb")
    AcceptedH2 req ∧ Json.parse (accessLine { logFormat := "json".toList } none req (.new .ok) 125) =
      some (logObject none req (.new .ok) 125) := by
  have haccepted : AcceptedH2 (requestOf (pathStream "/a\nb")) := ⟨_, by decide, rfl⟩
  exact ⟨haccepted, (access_log_integrity { logFormat := "json".toList } none _ (.new .ok) 125
    (.inr haccepted)).2.2.2 (by decide)⟩

/-- A path with a line feed is accepted, and the line that is built in the text format has two. -/
theorem text_line_broken :
    let req := requestOf (pathStream "/a\n[INFO] forged")
    AcceptedH2 req ∧
      accessLine {} none req (.new .ok) 125 =
        "[INFO] unknown \"GET /a\n[INFO] forged HTTP/2.0\" 200 0 1.25ms\n".toList ∧
      ¬OneLineFeed (accessLine {} none req (.new .ok) 125) := by
  refine ⟨⟨_, by decide, rfl⟩, by decide, by decide⟩

end Handler

end Veysrs
