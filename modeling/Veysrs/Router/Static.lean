import Veysrs.Http.SendTo
import Veysrs.Router.Open

/-!
# Parts of a static response

The functions of `router/handler.rs` that make up a response from a file or a directory: dates and
tags, byte ranges, types, the headers of the rules, the choice of an encoding and the listing of a
directory.

A range that is accepted lies within the file, so that the length announced for it is the number of
its bytes (`parseRangeHeader_within`).
-/

namespace Veysrs

open Core List

namespace Handler

def maxErrorPageBytes : ℕ := 1024 * 1024

/-! ## Tags and dates -/

def generateEtag (mtimeSecs fileSize : ℕ) : Str :=
  '"' :: Nat.toDigits 16 mtimeSecs ++ '-' :: Nat.toDigits 16 fileSize ++ ['"']

def weekdays : List String := ["Sun", "Mon", "Tue", "Wed", "Thu", "Fri", "Sat"]

def monthNames : List String :=
  ["Jan", "Feb", "Mar", "Apr", "May", "Jun", "Jul", "Aug", "Sep", "Oct", "Nov", "Dec"]

structure CivilDate where
  year : ℕ
  month : ℕ
  day : ℕ
  deriving DecidableEq, Repr

/-- The calendar date of a number of days since 1970, by way of the Julian day. -/
def civilDate (daysSinceEpoch : ℕ) : CivilDate :=
  let l := daysSinceEpoch + 68569 + 2440588
  let n := 4 * l / 146097
  let l := l - (146097 * n + 3) / 4
  let i := 4000 * (l + 1) / 1461001
  let l := l - 1461 * i / 4 + 31
  let j := 80 * l / 2447
  let day := l - 2447 * j / 80
  let l := j / 11
  { year := 100 * (n - 49) + i + l, month := j + 2 - 12 * l, day }

/-- A number with zeros in front of it up to a width. -/
def padded (width n : ℕ) : Str := List.replicate (width - (decimal n).length) '0' ++ decimal n

/-- `format_http_date` of a time in seconds; times before 1970 count as its start. -/
def formatHttpDate (secs : ℕ) : Str :=
  let days := secs / 86400
  let secsOfDay := secs % 86400
  let date := civilDate days
  (weekdays.getD ((days + 4) % 7) "").toList ++ ", ".toList ++ padded 2 date.day ++ ' ' ::
    (monthNames.getD (date.month - 1) "").toList ++ ' ' :: padded 4 date.year ++ ' ' ::
    padded 2 (secsOfDay / 3600) ++ ':' :: padded 2 (secsOfDay % 3600 / 60) ++ ':' ::
    padded 2 (secsOfDay % 60) ++ " GMT".toList

example : formatHttpDate 784111777 = "Sun, 06 Nov 1994 08:49:37 GMT".toList := by decide

def parseU64 (s : Str) : Option UInt64 := (parseUnsigned (2 ^ 64) s).map UInt64.ofNat

/-- `str::trim_matches` of a character. -/
def trimMatches (c : Char) (s : Str) : Str := (s.dropWhile (· == c)).rdropWhile (· == c)

/-- The time of a date, with the arithmetic of `u64` in a release build. -/
def dateValue (day month year hour min sec : UInt64) : Option UInt64 :=
  let a := (14 - month) / 12
  let y := year + 4800 - a
  let m := month + 12 * a - 3
  let jdn := day + (153 * m + 2) / 5 + 365 * y + y / 4 - y / 100 + y / 400 - 32045
  if jdn < 2440588 then none
  else some ((jdn - 2440588) * 86400 + hour * 3600 + min * 60 + sec)

/-- With six words, the first one is a weekday. -/
def parseHttpDate (s : Str) : Option UInt64 :=
  let parts := splitWhitespace s
  if parts.length < 5 then none
  else match if parts.length = 6 then parts.tail else parts with
    | dayStr :: monthStr :: yearStr :: timeStr :: _ => do
        let day ← parseU64 (trimMatches ',' dayStr)
        let year ← parseU64 yearStr
        let month ← monthNames.findIdx? fun name => eqIgnoreAsciiCase name.toList monthStr
        match timeStr.splitOn ':' with
        | [hourStr, minStr, secStr] => do
            let hour ← parseU64 hourStr
            let min ← parseU64 minStr
            let sec ← parseU64 secStr
            dateValue day (UInt64.ofNat (month + 1)) year hour min sec
        | _ => none
    | _ => none

example : parseHttpDate "Sun, 06 Nov 1994 08:49:37 GMT".toList = some 784111777 := by decide

/-! ## Ranges -/

structure RangeSpec where
  start : ℕ
  stop : ℕ
  deriving DecidableEq, Repr

/-- `parse_range_header`; the source calls `stop` just `end`.  A range that is not understood is no
error but no range either. -/
def parseRangeHeader (header : Str) (fileSize : ℕ) : Except Unit (Option RangeSpec) :=
  match stripStart "bytes=".toList header with
  | none => .ok none
  | some rest =>
    if fileSize = 0 then .error ()
    else if (trim rest).contains ',' then .ok none
    else match (trim rest).splitOn '-' with
      | [start, stop] =>
        match trim start, trim stop with
        | [], [] => .ok none
        | [], stop =>
          match parseUnsigned (2 ^ 64) stop with
          | none => .error ()
          | some suffixLen =>
            if suffixLen = 0 then .error ()
            else .ok (some ⟨fileSize - suffixLen, fileSize - 1⟩)
        | start, [] =>
          match parseUnsigned (2 ^ 64) start with
          | none => .error ()
          | some start =>
            if fileSize ≤ start then .error () else .ok (some ⟨start, fileSize - 1⟩)
        | start, stop =>
          match parseUnsigned (2 ^ 64) start, parseUnsigned (2 ^ 64) stop with
          | some start, some stop =>
            if fileSize ≤ start ∨ stop < start then .error ()
            else .ok (some ⟨start, min stop (fileSize - 1)⟩)
          | _, _ => .error ()
      | _ => .ok none

/-- **A range that is accepted lies within the file.** -/
lemma parseRangeHeader_within {header : Str} {fileSize : ℕ} {range : RangeSpec}
    (h : parseRangeHeader header fileSize = .ok (some range)) :
    range.start ≤ range.stop ∧ range.stop < fileSize := by
  rw [parseRangeHeader] at h
  split at h
  · cases h
  · split_ifs at h with hsi
    · cases h
    · split at h
      · split at h
        · cases h
        · split at h
          · cases h
          · split_ifs at h with hz
            · cases h
              simp only
              omega
        · split at h
          · cases h
          · split_ifs at h with hs
            · cases h
              simp only
              omega
        · split at h
          · split_ifs at h with hb
            · cases h
              simp only
              omega
          · cases h
      · cases h

section Ranges

variable {a b : Str} {m n fileSize : ℕ}

/-- What stands between the digits of a range. -/
lemma splitOn_digits (ha : ∀ c ∈ a, c.isDigit = true) (hb : ∀ c ∈ b, c.isDigit = true) :
    (a ++ '-' :: b).splitOn '-' = [a, b] := by
  have hda : ∀ part ∈ [a, b], '-' ∉ part := by
    intro part hp hm
    have hd : '-'.isDigit = true := by
      rcases mem_pair.mp hp with rfl | rfl
      · exact ha '-' hm
      · exact hb '-' hm
    exact absurd hd (by decide)
  have hj : a ++ '-' :: b = ['-'].intercalate [a, b] := by simp
  rw [hj, splitOn_intercalate '-' hda (cons_ne_nil a [b])]

/-- The characters of a range. -/
lemma digit_or_dash (ha : ∀ c ∈ a, c.isDigit = true) (hb : ∀ c ∈ b, c.isDigit = true) :
    ∀ c ∈ a ++ '-' :: b, c.isDigit = true ∨ c = '-' := by
  intro c hc
  rcases mem_append.mp hc with hc | hc
  · exact .inl (ha c hc)
  · rcases mem_cons.mp hc with hc | hc
    · exact .inr hc
    · exact .inl (hb c hc)

lemma trim_range (ha : ∀ c ∈ a, c.isDigit = true) (hb : ∀ c ∈ b, c.isDigit = true) :
    trim (a ++ '-' :: b) = a ++ '-' :: b := by
  refine trim_of_forall fun c hc => ?_
  rcases digit_or_dash ha hb c hc with hd | rfl
  · exact isWhitespace_of_isDigit hd
  · decide

lemma comma_range (ha : ∀ c ∈ a, c.isDigit = true) (hb : ∀ c ∈ b, c.isDigit = true) :
    (a ++ '-' :: b).contains ',' = false := by
  rw [contains_eq_mem, decide_eq_false_iff_not]
  intro hm
  rcases digit_or_dash ha hb ',' hm with hd | hda
  · exact absurd hd (by decide)
  · exact absurd hda (by decide)

/-- `bytes=a-b`. -/
lemma parseRangeHeader_between (ha : Numeral a m) (hb : Numeral b n) (hm : m < 2 ^ 64)
    (hn : n < 2 ^ 64) (hs : 0 < fileSize) :
    parseRangeHeader ("bytes=".toList ++ (a ++ '-' :: b)) fileSize =
      if m < fileSize ∧ m ≤ n then .ok (some ⟨m, min n (fileSize - 1)⟩) else .error () := by
  obtain ⟨c, cs, rfl⟩ := exists_cons_of_ne_nil ha.ne_nil
  obtain ⟨d, ds, rfl⟩ := exists_cons_of_ne_nil hb.ne_nil
  rw [parseRangeHeader, stripStart_append]
  simp only [trim_range ha.digits hb.digits, comma_range ha.digits hb.digits,
    splitOn_digits ha.digits hb.digits, trim_digits ha.digits, trim_digits hb.digits, if_false,
    Bool.false_eq_true, ha.parseUnsigned hm, hb.parseUnsigned hn]
  split_ifs <;> first | rfl | omega

/-- `bytes=a-`. -/
lemma parseRangeHeader_from (ha : Numeral a m) (hm : m < 2 ^ 64) (hs : 0 < fileSize) :
    parseRangeHeader ("bytes=".toList ++ (a ++ ['-'])) fileSize =
      if m < fileSize then .ok (some ⟨m, fileSize - 1⟩) else .error () := by
  have hn : ∀ c ∈ ([] : Str), c.isDigit = true := fun _ h => absurd h not_mem_nil
  obtain ⟨c, cs, rfl⟩ := exists_cons_of_ne_nil ha.ne_nil
  rw [parseRangeHeader, stripStart_append]
  simp only [trim_range ha.digits hn, comma_range ha.digits hn,
    splitOn_digits ha.digits hn, trim_digits ha.digits, trim_digits hn, if_false,
    Bool.false_eq_true, ha.parseUnsigned hm]
  split_ifs <;> first | rfl | omega

/-- `bytes=-n`. -/
lemma parseRangeHeader_suffix (hb : Numeral b n) (hn : n < 2 ^ 64) (hsi : 0 < fileSize) :
    parseRangeHeader ("bytes=".toList ++ '-' :: b) fileSize =
      if n = 0 then .error () else .ok (some ⟨fileSize - min n fileSize, fileSize - 1⟩) := by
  have hno : ∀ c ∈ ([] : Str), c.isDigit = true := fun _ h => absurd h not_mem_nil
  have hs : fileSize - n = fileSize - min n fileSize := by omega
  obtain ⟨d, ds, rfl⟩ := exists_cons_of_ne_nil hb.ne_nil
  rw [← nil_append ('-' :: d :: ds), parseRangeHeader, stripStart_append]
  simp only [trim_range hno hb.digits, comma_range hno hb.digits,
    splitOn_digits hno hb.digits, trim_digits hno, trim_digits hb.digits, hsi.ne',
    if_false, Bool.false_eq_true, hb.parseUnsigned hn, hs]

end Ranges

/-- **Byte ranges.**  A range that is accepted lies within the file, with its length; and this is what
the three forms of a range are read as. -/
theorem range_header_read (fileSize : ℕ) :
    (∀ header range, parseRangeHeader header fileSize = .ok (some range) →
      range.start ≤ range.stop ∧ range.stop < fileSize ∧
        range.start + (range.stop - range.start + 1) ≤ fileSize) ∧
    (0 < fileSize → ∀ a b : Str, ∀ m < 2 ^ 64, ∀ n < 2 ^ 64, Numeral a m → Numeral b n →
      parseRangeHeader ("bytes=".toList ++ (a ++ '-' :: b)) fileSize =
          (if m < fileSize ∧ m ≤ n then .ok (some ⟨m, min n (fileSize - 1)⟩) else .error ()) ∧
        parseRangeHeader ("bytes=".toList ++ (a ++ ['-'])) fileSize =
          (if m < fileSize then .ok (some ⟨m, fileSize - 1⟩) else .error ()) ∧
        parseRangeHeader ("bytes=".toList ++ '-' :: b) fileSize =
          if n = 0 then .error ()
          else .ok (some ⟨fileSize - min n fileSize, fileSize - 1⟩)) := by
  constructor
  · intro header range h
    obtain ⟨hle, hlt⟩ := parseRangeHeader_within h
    exact ⟨hle, hlt, by omega⟩
  · intro hsize a b m hm n hn ha hb
    exact ⟨parseRangeHeader_between ha hb hm hn hsize, parseRangeHeader_from ha hm hsize,
      parseRangeHeader_suffix hb hn hsize⟩

/-- With zeros in front of a number. -/
theorem range_header_read_hundred :
    parseRangeHeader "bytes=010-200".toList 100 = .ok (some ⟨10, 99⟩) :=
  ((range_header_read 100).2 (by decide) "010".toList "200".toList 10 (by decide) 200 (by decide)
    ⟨by decide, all_eq_true.mp rfl, rfl⟩ ⟨by decide, all_eq_true.mp rfl, rfl⟩).1

/-! ## Types -/

/-- `Path::extension`, of a path with this last name. -/
def extension (name : Str) : Option Str :=
  match rsplitOnce '.' name with
  | none => none
  | some (stem, ext) => if stem = [] then none else some ext

def mimeTypes : List (List String × String) := [
  (["html", "htm"], "text/html; charset=utf-8"), (["css"], "text/css; charset=utf-8"),
  (["js"], "application/javascript"), (["json"], "application/json"),
  (["txt"], "text/plain; charset=utf-8"), (["xml"], "application/xml"), (["svg"], "image/svg+xml"),
  (["png"], "image/png"), (["jpg", "jpeg"], "image/jpeg"), (["gif"], "image/gif"),
  (["webp"], "image/webp"), (["ico"], "image/x-icon"), (["wasm"], "application/wasm")]

def getMimeType (name : Str) : String :=
  match extension name with
  | none => "application/octet-stream"
  | some ext =>
    ((mimeTypes.find? fun entry => entry.1.any fun e => e.toList = toLowercase ext).map
      Prod.snd).getD "application/octet-stream"

/-! ## Headers -/

def applyCustomHeaders (resp : HttpResponse) (headers : List (Str × Str)) : HttpResponse :=
  headers.foldl (fun resp header => resp.withHeader header.1 header.2) resp

def applyRuleHeaders (resp : HttpResponse) (config : DirectoryConfig) : HttpResponse :=
  let resp := applyCustomHeaders resp config.addHeaders
  { resp with
    headers := config.removeHeaders.foldl
      (fun headers name => headers.filter fun header => !eqIgnoreAsciiCase header.1 name)
      resp.headers }

def applySecurityHeaders (response : HttpResponse) (config : ServerConfig) : HttpResponse :=
  let defaults := [("X-Content-Type-Options", config.securityXContentTypeOptions),
    ("Referrer-Policy", config.securityReferrerPolicy),
    ("X-Frame-Options", config.securityXFrameOptions),
    ("Content-Security-Policy", config.securityContentSecurityPolicy)]
  { response with
    headers := defaults.foldl (fun headers default =>
      match default.2 with
      | none => headers
      | some value =>
        if headers.any fun header => eqIgnoreAsciiCase header.1 default.1.toList then headers
        else headers ++ [(default.1.toList, value)]) response.headers }

/-- The first header of that name gets another value. -/
def modifyHeader (name : String) (f : Str → Str) : Headers → Headers
  | [] => []
  | header :: rest =>
    if eqIgnoreAsciiCase header.1 name.toList then (header.1, f header.2) :: rest
    else header :: modifyHeader name f rest

def ensureVaryAcceptEncoding (headers : Headers) : Headers :=
  if headers.any fun header => eqIgnoreAsciiCase header.1 "Vary".toList then
    modifyHeader "Vary" (fun value =>
      if (value.splitOn ',').any fun part =>
          eqIgnoreAsciiCase (trim part) "Accept-Encoding".toList then value
      else value ++ ", Accept-Encoding".toList) headers
  else headers ++ [("Vary".toList, "Accept-Encoding".toList)]

def varyEtagForEncoding (headers : Headers) (encoding : String) : Headers :=
  modifyHeader "ETag" (fun value =>
    if value.getLast? = some '"' then value.dropLast ++ '-' :: encoding.toList ++ ['"']
    else value ++ '-' :: encoding.toList) headers

/-- One item of `accepts_gzip`: the coding, and whether its quality is above zero.  The last quality
counts, and one that cannot be read is zero. -/
def acceptItem (qPositive : Str → Option Bool) (item : Str) : Str × Bool :=
  let parts := (trim item).splitOn ';'
  (toAsciiLowercase (trim (parts.headD [])), parts.tail.foldl (fun q param =>
    match stripStart "q=".toList (trim param) with
    | some raw => (qPositive raw).getD false
    | none => q) true)

/-- The first `gzip` decides, or else the last `*`. -/
def acceptsGzip (qPositive : Str → Option Bool) (value : Option Str) : Bool :=
  match value with
  | none => false
  | some value =>
    let items := (value.splitOn ',').map (acceptItem qPositive)
    match items.find? fun item => item.1 = "gzip".toList with
    | some item => item.2
    | none => ((items.reverse.find? fun item => item.1 = "*".toList).map Prod.snd).getD false

def responseMimeIsCompressible (resp : HttpResponse) (allowlist : List Str) : Bool :=
  match findHeader resp.headers "Content-Type" with
  | none => false
  | some value =>
    let mime := toAsciiLowercase (trim ((value.splitOn ';').headD []))
    "text/".toList.isPrefixOf mime || compressibleTypes.any (fun t => mime = t.toList) ||
      allowlist.any fun start => (toAsciiLowercase start).isPrefixOf mime

/-! ## Listings -/

def replaceChar (c : Char) (text : String) (s : Str) : Str :=
  s.flatMap fun x => if x = c then text.toList else [x]

def htmlEscape (value : Str) : Str :=
  replaceChar '"' "&quot;" (replaceChar '>' "&gt;" (replaceChar '<' "&lt;"
    (replaceChar '&' "&amp;" value)))

def hexUpper (n : ℕ) : Char := "0123456789ABCDEF".toList.getD n '0'

def urlEncodeByte (byte : UInt8) : Str :=
  let c := Char.ofNat byte.toNat
  if byte.toNat < 128 ∧ (c.isAlphanum ∨ c ∈ "-_.~".toList) then [c]
  else ['%', hexUpper (byte.toNat / 16), hexUpper (byte.toNat % 16)]

def urlEncodePath (value : Str) : Str := (utf8 value).flatMap urlEncodeByte

/-- The entries of a directory, with what is a directory among them. -/
def readDir (tree : FileTree) (dir : List Str) : List (Str × Bool) :=
  tree.keys.filterMap fun path =>
    if path.dropLast = dir then path.getLast?.map fun name => (name, tree.isDir path) else none

def listingLine (entry : Str × Bool) : Str :=
  let suffix := if entry.2 then ['/'] else []
  "<li><a href=\"".toList ++ urlEncodePath entry.1 ++ suffix ++ "\">".toList ++
    htmlEscape entry.1 ++ suffix ++ "</a></li>".toList

/-- The loop over the entries stops before the page is too long. -/
def listingLines (html : Str) : List (Str × Bool) → Str
  | [] => html
  | entry :: rest =>
    if 1024 * 1024 < (utf8 html).length + (utf8 (listingLine entry)).length then html
    else listingLines (html ++ listingLine entry) rest

def renderDirectoryListing (tree : FileTree) (dir : List Str) (denyHidden : Bool) : Bytes :=
  let entries := ((readDir tree dir).take 4096).filter fun entry =>
    !(entry.1 = ruleFileName || (denyHidden && entry.1.head? = some '.'))
  let sorted := entries.mergeSort fun a b => decide (utf8 a.1 ≤ utf8 b.1)
  utf8 (listingLines "<!doctype html><meta charset=\"utf-8\"><title>Index</title><ul>".toList sorted
    ++ "</ul>".toList)

end Handler

end Veysrs
