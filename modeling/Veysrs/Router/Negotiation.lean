import Veysrs.Router.Links

/-!
# Which encoding is sent, and under which tag

**Two readings of `Accept-Encoding`.**  Both `accepts_gzip` take a value apart in the same way, into
codings with their qualities (`codings`).  The static handler goes by one coding, the first `gzip` or
else the last `*`, and by the last of its qualities (`acceptsGzip_eq`); for dynamic responses any of
these codings will do, by the first quality that can be read (`dynamic_acceptsGzip_iff`).  So they
agree, and keep to a `gzip` that is refused, in the cases of `Agreed` (`one_negotiation_iff`).

**The tag of a file.**  A tag that is sent back is compared with that of the file before the encoding
is negotiated, but a compressed file is sent under a tag of its own.  The headers are followed from
the file to the response (`tag_of_handleRequest`), and as the one tag does not stand in the other
(`findSub_gzipEtag`), it is good for a later request only if the file was not compressed
(`etag_revalidated_iff`).
-/

namespace Veysrs

open Core List

namespace Handler

/-! ## One value, two readings -/

/-- An item of `Accept-Encoding`: the coding in lower case, and for each of its qualities whether it
is above zero, or `none` if it cannot be read. -/
structure Coding where
  name : Str
  qualities : List (Option Bool)

namespace Coding

def ofItem (qPositive : Str → Option Bool) (item : Str) : Coding :=
  let parts := (trim item).splitOn ';'
  { name := toAsciiLowercase (trim (parts.headD []))
    qualities := parts.tail.filterMap fun part =>
      (stripStart "q=".toList (trim part)).map qPositive }

def isGzip (coding : Coding) : Bool := coding.name = "gzip".toList

def isAny (coding : Coding) : Bool := coding.name = "*".toList

/-- One of the codings that allow `gzip`. -/
def Serves (coding : Coding) : Prop := coding.isGzip = true ∨ coding.isAny = true

/-- The last quality counts, and one that cannot be read is zero. -/
def lastPositive (coding : Coding) : Bool :=
  (coding.qualities.getLast?.map fun quality => quality.getD false).getD true

/-- The first quality that can be read counts. -/
def firstPositive (coding : Coding) : Bool := (coding.qualities.findSome? id).getD true

end Coding

def codings (qPositive : Str → Option Bool) : Option Str → List Coding
  | none => []
  | some value => (value.splitOn ',').map (Coding.ofItem qPositive)

/-- The coding the static handler goes by. -/
def deciding (items : List Coding) : Option Coding :=
  (items.find? Coding.isGzip).or (items.reverse.find? Coding.isAny)

section Readings

variable {qPositive : Str → Option Bool} {value : Option Str}

/-- The loop over the parameters keeps the last quality. -/
lemma foldl_quality {read : Str → Option Str} (params : List Str) (q : Bool) :
    params.foldl (fun q param => (read param).elim q fun raw => (qPositive raw).getD false) q =
      ((params.filterMap fun param => (read param).map qPositive).getLast?.map
        fun quality => quality.getD false).getD q := by
  induction params generalizing q with
  | nil => rfl
  | cons param params ih =>
    rw [foldl_cons, ih]
    cases hr : read param with
    | none => rw [filterMap_cons_none (by rw [hr]; rfl), Option.elim_none]
    | some raw =>
      rw [filterMap_cons_some (by rw [hr]; rfl), List.getLast?_cons]
      cases (params.filterMap fun param => (read param).map qPositive).getLast? with
      | none => rfl
      | some quality => rfl

lemma acceptItem_eq (item : Str) :
    acceptItem qPositive item =
      ((Coding.ofItem qPositive item).name, (Coding.ofItem qPositive item).lastPositive) := by
  refine Prod.ext rfl (Eq.trans ?_ (@foldl_quality qPositive
    (fun param => stripStart "q=".toList (trim param)) ((trim item).splitOn ';').tail true))
  refine foldl_ext _ _ true fun q param _ => ?_
  cases stripStart "q=".toList (trim param) with
  | none => rfl
  | some raw => rfl

/-- **The static handler** goes by the last quality of one coding. -/
lemma acceptsGzip_eq :
    acceptsGzip qPositive value =
      ((deciding (codings qPositive value)).map Coding.lastPositive).getD false := by
  cases value with
  | none => rfl
  | some value =>
    have hi : (value.splitOn ',').map (acceptItem qPositive) =
        (codings qPositive (some value)).map fun coding => (coding.name, coding.lastPositive) := by
      simp only [codings, map_map]
      exact map_congr_left fun item _ => acceptItem_eq item
    have hf : ∀ (items : List Coding) (name : Str),
        (items.map fun coding => (coding.name, coding.lastPositive)).find?
            (fun item => item.1 = name) =
          (items.find? fun coding => coding.name = name).map
            fun coding => (coding.name, coding.lastPositive) :=
      fun items name => List.find?_map
    simp only [acceptsGzip, hi, ← map_reverse, hf, deciding]
    rw [show Coding.isGzip = fun coding => decide (coding.name = "gzip".toList) from rfl,
      show Coding.isAny = fun coding => decide (coding.name = "*".toList) from rfl]
    cases (codings qPositive (some value)).find? fun coding => coding.name = "gzip".toList with
    | some coding => rfl
    | none =>
      cases (codings qPositive (some value)).reverse.find?
          fun coding => coding.name = "*".toList with
      | none => rfl
      | some coding => rfl

/-- The search through the parameters stops at the first quality that can be read. -/
lemma findSome_quality {read : Str → Option Str} (params : List Str) :
    (params.findSome? fun param => (read param).bind qPositive) =
      (params.filterMap fun param => (read param).map qPositive).findSome? id := by
  induction params with
  | nil => rfl
  | cons param params ih =>
    rw [List.findSome?_cons, ih]
    cases hr : read param with
    | none => rw [filterMap_cons_none (by rw [hr]; rfl), Option.bind_none]
    | some raw =>
      rw [filterMap_cons_some (by rw [hr]; rfl)]
      rfl

lemma lower_eq_star {name : Str} : toAsciiLowercase name = "*".toList ↔ name = "*".toList := by
  show name.map Char.toLower = ['*'] ↔ name = ['*']
  rw [map_eq_singleton_iff]
  constructor
  · rintro ⟨c, rfl, hc⟩
    rw [(toLower_eq_iff (by decide)).mp hc]
  · rintro rfl
    exact ⟨'*', rfl, rfl⟩

lemma dynamicItem_iff (item : Str) :
    ((eqIgnoreAsciiCase (trim (((trim item).splitOn ';').headD [])) "gzip".toList ||
        decide (trim (((trim item).splitOn ';').headD []) = "*".toList)) &&
      (((trim item).splitOn ';').tail.findSome? fun part =>
        (stripStart "q=".toList (trim part)).bind qPositive).getD true) = true ↔
      (Coding.ofItem qPositive item).Serves ∧
        (Coding.ofItem qPositive item).firstPositive = true := by
  rw [@findSome_quality qPositive fun part => stripStart "q=".toList (trim part), Bool.and_eq_true,
    Bool.or_eq_true, decide_eq_true_eq, ← lower_eq_star, eqIgnoreAsciiCase, beq_iff_eq]
  exact and_congr_left' (or_congr (decide_eq_true_iff).symm (decide_eq_true_iff).symm)

/-- **For dynamic responses** any coding that serves will do, by its first quality. -/
lemma dynamic_acceptsGzip_iff :
    Veysrs.acceptsGzip qPositive value = true ↔ ∃ coding ∈ codings qPositive value,
      coding.Serves ∧ coding.firstPositive = true := by
  cases value with
  | none => simp [Veysrs.acceptsGzip, codings]
  | some value =>
    simp only [Veysrs.acceptsGzip, codings, any_eq_true, mem_map,
      exists_exists_and_eq_and, dynamicItem_iff]

/-- No coding decides exactly if none serves. -/
lemma deciding_eq_none_iff {items : List Coding} :
    deciding items = none ↔ ∀ coding ∈ items, ¬ coding.Serves := by
  simp only [deciding, Option.or_eq_none_iff, List.find?_eq_none, mem_reverse, Coding.Serves,
    not_or, ← forall_and]

/-- Some `gzip` has a quality that is not above zero. -/
def RefusesGzip (items : List Coding) : Prop :=
  ∃ coding ∈ items, coding.isGzip = true ∧ some false ∈ coding.qualities

/-- **One negotiation**: files and dynamic responses are compressed for the same values, and for
none that refuses `gzip`. -/
structure OneNegotiation (qPositive : Str → Option Bool) (value : Option Str) : Prop where
  same : acceptsGzip qPositive value = Veysrs.acceptsGzip qPositive value
  refused : RefusesGzip (codings qPositive value) →
    acceptsGzip qPositive value = false ∧ Veysrs.acceptsGzip qPositive value = false

/-- No coding serves; or the deciding one is accepted, with it one that serves, and no `gzip` is
refused; or the deciding one is declined, and with it all that serve. -/
inductive Agreed (items : List Coding) : Prop
  | unnamed : (∀ coding ∈ items, ¬ coding.Serves) → Agreed items
  | accepted {coding other : Coding} : deciding items = some coding → coding.lastPositive = true →
      other ∈ items → other.Serves → other.firstPositive = true → ¬ RefusesGzip items → Agreed items
  | declined {coding : Coding} : deciding items = some coding → coding.lastPositive = false →
      (∀ other ∈ items, other.Serves → ¬ other.firstPositive = true) → Agreed items

/-- **There is one negotiation exactly for** the values on which the coding the static handler goes
by is taken as every other one is. -/
theorem one_negotiation_iff (qPositive : Str → Option Bool) (value : Option Str) :
    OneNegotiation qPositive value ↔ Agreed (codings qPositive value) := by
  have hstatic := @acceptsGzip_eq qPositive value
  have hdynamic := @dynamic_acceptsGzip_iff qPositive value
  constructor
  · rintro ⟨hsame, hrefused⟩
    cases hdeciding : deciding (codings qPositive value) with
    | none => exact .unnamed (deciding_eq_none_iff.mp hdeciding)
    | some coding =>
      rw [hdeciding] at hstatic
      change _ = coding.lastPositive at hstatic
      cases hlast : coding.lastPositive with
      | true =>
        rw [hlast] at hstatic
        obtain ⟨other, hmem, hserves, hfirst⟩ := hdynamic.mp (hsame ▸ hstatic)
        refine .accepted hdeciding hlast hmem hserves hfirst fun hzero => ?_
        rw [(hrefused hzero).1] at hstatic
        cases hstatic
      | false =>
        rw [hlast, hsame] at hstatic
        refine .declined hdeciding hlast fun other hmem hserves hfirst => ?_
        rw [hdynamic.mpr ⟨other, hmem, hserves, hfirst⟩] at hstatic
        cases hstatic
  · intro hagreed
    cases hagreed with
    | unnamed hnone =>
      rw [deciding_eq_none_iff.mpr hnone] at hstatic
      have hfalse : Veysrs.acceptsGzip qPositive value = false := by
        rw [← Bool.not_eq_true, hdynamic]
        rintro ⟨coding, hmem, hserves, -⟩
        exact hnone coding hmem hserves
      exact ⟨hstatic.trans hfalse.symm, fun _ => ⟨hstatic, hfalse⟩⟩
    | accepted hdeciding hlast hmem hserves hfirst hzero =>
      rw [hdeciding, Option.map_some, Option.getD_some, hlast] at hstatic
      exact ⟨hstatic.trans (hdynamic.mpr ⟨_, hmem, hserves, hfirst⟩).symm,
        fun hrefuses => absurd hrefuses hzero⟩
    | declined hdeciding hlast hall =>
      rw [hdeciding, Option.map_some, Option.getD_some, hlast] at hstatic
      have hfalse : Veysrs.acceptsGzip qPositive value = false := by
        rw [← Bool.not_eq_true, hdynamic]
        rintro ⟨coding, hmem, hserves, hfirst⟩
        exact hall coding hmem hserves hfirst
      exact ⟨hstatic.trans hfalse.symm, fun _ => ⟨hstatic, hfalse⟩⟩

/-- The refusal of `gzip` is overruled by a wildcard, for dynamic responses only. -/
theorem wildcard_overrules_refusal :
    acceptsGzip (fun raw => some (raw != "0".toList)) (some "gzip;q=0, *".toList) = false ∧
      Veysrs.acceptsGzip (fun raw => some (raw != "0".toList)) (some "gzip;q=0, *".toList) = true ∧
      ¬ OneNegotiation (fun raw => some (raw != "0".toList)) (some "gzip;q=0, *".toList) := by
  have hstatic : acceptsGzip (fun raw => some (raw != "0".toList)) (some "gzip;q=0, *".toList) =
      false := by decide
  have hdynamic : Veysrs.acceptsGzip (fun raw => some (raw != "0".toList))
      (some "gzip;q=0, *".toList) = true := by decide
  refine ⟨hstatic, hdynamic, fun h => ?_⟩
  have hsame := h.same
  rw [hstatic, hdynamic] at hsame
  cases hsame

end Readings

/-! ## Tags -/

/-! ### The header of a name -/

section Find

variable {headers more : Headers} {name other : String}

lemma findHeader_append :
    findHeader (headers ++ more) name = (findHeader headers name).or (findHeader more name) := by
  rw [findHeader, List.find?_append, Option.map_or]
  rfl

lemma findHeader_cons_of_pos {field value : Str}
    (h : eqIgnoreAsciiCase field name.toList = true) :
    findHeader ((field, value) :: headers) name = some value := by
  simp only [findHeader, List.find?_cons, h, Option.map_some]

/-- A name that is not looked for is passed over. -/
lemma findHeader_cons_of_neg {field value : Str}
    (h : ¬ eqIgnoreAsciiCase field name.toList = true) :
    findHeader ((field, value) :: headers) name = findHeader headers name := by
  simp only [findHeader, List.find?_cons, h]

lemma findHeader_filter {keep : Str × Str → Bool}
    (h : ∀ header, eqIgnoreAsciiCase header.1 name.toList = true → keep header = true) :
    findHeader (headers.filter keep) name = findHeader headers name := by
  rw [findHeader, List.find?_filter]
  congr 2
  funext header
  rw [Bool.eq_iff_iff, decide_eq_true_eq]
  exact and_iff_right_of_imp (h header)

lemma findHeader_removeHeader (h : eqIgnoreAsciiCase name.toList other.toList = false) :
    findHeader (removeHeader headers other) name = findHeader headers name := by
  refine findHeader_filter fun header hn => ?_
  rw [eqIgnoreAsciiCase_congr hn, h]
  rfl

/-- The header that is modified is the one that is found. -/
lemma findHeader_modifyHeader (f : Str → Str) :
    findHeader (modifyHeader name f headers) name = (findHeader headers name).map f := by
  induction headers with
  | nil => rfl
  | cons header rest ih =>
    rw [modifyHeader]
    split_ifs with hn
    · rw [findHeader_cons_of_pos hn, findHeader_cons_of_pos hn, Option.map_some]
    · rw [findHeader_cons_of_neg hn, findHeader_cons_of_neg hn, ih]

lemma findHeader_modifyHeader_other (h : eqIgnoreAsciiCase name.toList other.toList = false)
    (f : Str → Str) :
    findHeader (modifyHeader other f headers) name = findHeader headers name := by
  induction headers with
  | nil => rfl
  | cons header rest ih =>
    obtain ⟨field, value⟩ := header
    rw [modifyHeader]
    split_ifs with ho
    · have hn : ¬ eqIgnoreAsciiCase field name.toList = true := by
        intro hn
        rw [eqIgnoreAsciiCase_congr hn, h] at ho
        cases ho
      rw [findHeader_cons_of_neg hn, findHeader_cons_of_neg hn]
    · by_cases hn : eqIgnoreAsciiCase field name.toList = true
      · rw [findHeader_cons_of_pos hn, findHeader_cons_of_pos hn]
      · rw [findHeader_cons_of_neg hn, findHeader_cons_of_neg hn, ih]

end Find

/-! ### The rules and the tag -/

/-- The rules send no header of that name and take none out. -/
structure Untouched (name : String) (merged : DirectoryConfig) : Prop where
  added : ∀ header ∈ merged.headers ++ merged.addHeaders,
    eqIgnoreAsciiCase (withoutBreaks header.1) name.toList = false
  removed : ∀ other ∈ merged.removeHeaders, eqIgnoreAsciiCase name.toList other = false

lemma Untouched.findHeader_withRuleHeaders {name : String} {merged : DirectoryConfig}
    (h : Untouched name merged) (response : HttpResponse) :
    findHeader (withRuleHeaders merged response).headers name =
      findHeader response.headers name := by
  rw [headers_withRuleHeaders, findHeader_filter, findHeader_append]
  · rw [Option.or_eq_left_of_none]
    rw [findHeader, Option.map_eq_none_iff, List.find?_eq_none]
    intro header hh
    obtain ⟨rule, hr, rfl⟩ := mem_map.mp hh
    rw [h.added rule hr]
    exact Bool.false_ne_true
  · intro header hn
    rw [all_eq_true]
    intro other ho
    rw [eqIgnoreAsciiCase_congr hn, h.removed other ho]
    rfl

/-- The rules that are in force for the path of a request send no `ETag` and take none out. -/
def TagUntouched (env : HandlerEnv) (config : ServerConfig) (req : HttpRequest) (s : HandlerState) :
    Prop :=
  ∀ path relPath merged mgr, requestPaths req = .ok (path, relPath) →
    ConfigManager.getConfigForDir env.disk s.mgr (some config.configFile) config.rootDir relPath
      config.devMode = some (merged, mgr) → Untouched "ETag" merged

/-! ### The two tags of a file -/

section Tags

variable {req : HttpRequest} {file : OpenedFile} {mtime size : ℕ}

/-- What stands between the quotes. -/
def tagText (mtime size : ℕ) : Str := Nat.toDigits 16 mtime ++ '-' :: Nat.toDigits 16 size

/-- The tag of the compressed file. -/
def gzipEtag (mtime size : ℕ) : Str := '"' :: tagText mtime size ++ "-gzip\"".toList

lemma generateEtag_eq : generateEtag mtime size = '"' :: tagText mtime size ++ ['"'] := by
  simp only [generateEtag, tagText, cons_append]

/-- Hexadecimal digits and a dash. -/
lemma not_mem_tagText {c : Char} (hh : IpAddr.isAddressChar c = false) (hda : c ≠ '-') :
    c ∉ tagText mtime size := by
  have hd : ∀ n, c ∉ Nat.toDigits 16 n := by
    intro n hm
    rw [IpAddr.isAddressChar_of_mem_hex n c hm] at hh
    cases hh
  rw [tagText, mem_append, mem_cons]
  rintro (hm | heq | hm)
  · exact hd mtime hm
  · exact hda heq
  · exact hd size hm

lemma not_mem_generateEtag {c : Char} (hh : IpAddr.isAddressChar c = false) (hd : c ≠ '-')
    (hq : c ≠ '"') : c ∉ generateEtag mtime size := by
  rw [generateEtag_eq, cons_append, mem_cons, mem_append, mem_singleton]
  rintro (heq | hm | heq)
  · exact hq heq
  · exact not_mem_tagText hh hd hm
  · exact hq heq

/-- A text between quotes is not trimmed. -/
lemma trim_quoted (text : Str) : trim ('"' :: text ++ ['"']) = '"' :: text ++ ['"'] := by
  refine trim_of_ends ?_ ?_
  · intro c hc
    cases Option.some.inj hc
    rfl
  · intro c hc
    rw [List.getLast?_append_of_ne_nil _ (cons_ne_nil _ _)] at hc
    cases Option.some.inj hc
    rfl

lemma trim_gzipEtag : trim (gzipEtag mtime size) = gzipEtag mtime size := by
  have hq : gzipEtag mtime size = '"' :: (tagText mtime size ++ "-gzip".toList) ++ ['"'] := by
    simp only [cons_append, append_assoc]
    rfl
  rw [hq, trim_quoted]

/-- **The tag of the file does not stand in that of the compressed file**: behind the first quote
there is one more only, and where the tags start together they part before it. -/
lemma findSub_gzipEtag : findSub (generateEtag mtime size) (gzipEtag mtime size) = none := by
  have hn := count_eq_zero.mpr
    (@not_mem_tagText mtime size '"' (by decide) (by decide))
  rw [generateEtag_eq, gzipEtag, findSub_eq_none_iff (by simp)]
  intro i hs
  cases i with
  | zero =>
    rw [drop_zero, cons_append, cons_append, cons_prefix_cons,
      prefix_append_right_inj] at hs
    exact absurd hs.2 (by decide)
  | succ i =>
    rw [cons_append, cons_append] at hs
    have hc := (hs.sublist.trans (drop_sublist i _)).count_le '"'
    rw [count_cons_self, count_append, count_append, hn] at hc
    exact absurd hc (by decide)

/-- A tag that is sent back is compared with that of the file. -/
lemma isNotModified_generateEtag
    (h : req.getHeader "If-None-Match" = some (generateEtag mtime size)) (secs : ℕ) :
    isNotModified req (generateEtag mtime size) secs = true := by
  have ht : trim (generateEtag mtime size) = generateEtag mtime size := by
    rw [generateEtag_eq, trim_quoted]
  simp only [isNotModified, h, ht, decide_true, Bool.or_true, Bool.true_or]

lemma isNotModified_gzipEtag (h : req.getHeader "If-None-Match" = some (gzipEtag mtime size))
    (secs : ℕ) : isNotModified req (generateEtag mtime size) secs = false := by
  have hs : gzipEtag mtime size ≠ "*".toList := by
    intro heq
    exact absurd (List.cons.inj heq).1 (by decide)
  have hf : gzipEtag mtime size ≠ generateEtag mtime size := by
    intro heq
    exact absurd (append_cancel_left heq) (by decide)
  simp only [isNotModified, h, trim_gzipEtag, hs, hf, findSub_gzipEtag, decide_false,
    Bool.or_false, Option.isSome_none]

/-- The compressed file is sent under its own tag. -/
lemma findHeader_varyEtag {headers : Headers}
    (h : findHeader headers "ETag" = some (generateEtag mtime size)) :
    findHeader (varyEtagForEncoding headers "gzip") "ETag" = some (gzipEtag mtime size) := by
  have hl : (generateEtag mtime size).getLast? = some '"' := by
    rw [generateEtag_eq, List.getLast?_append_of_ne_nil _ (cons_ne_nil _ _)]
    rfl
  rw [varyEtagForEncoding, findHeader_modifyHeader, h, Option.map_some, if_pos hl,
    generateEtag_eq, dropLast_concat, append_assoc]
  rfl

end Tags

/-! ### From the file to the response -/

section Response

variable {env : HandlerEnv} {config : ServerConfig} {req : HttpRequest} {merged : DirectoryConfig}
  {file : OpenedFile} {response cached : HttpResponse}

/-- The response with the whole of a file. -/
def wholeResponse (merged : DirectoryConfig) (file : OpenedFile) : HttpResponse :=
  (acceptRanges (withTag (.new .ok) (generateEtag (mtimeSecs file) file.content.length)
    (formatHttpDate (mtimeSecs file)))).withFile file.content file.content.length
      (mimeTypeOf merged file)

lemma findHeader_wholeResponse : findHeader (wholeResponse merged file).headers "ETag" =
    some (generateEtag (mtimeSecs file) file.content.length) := by
  have hk : withoutBreaks (generateEtag (mtimeSecs file) file.content.length) =
      generateEtag (mtimeSecs file) file.content.length := by
    refine filter_eq_self.mpr fun c hc => decide_eq_true ⟨?_, ?_⟩
    · rintro rfl
      exact not_mem_generateEtag (by decide) (by decide) (by decide) hc
    · rintro rfl
      exact not_mem_generateEtag (by decide) (by decide) (by decide) hc
  rw [← hk]
  rfl

/-- **What a file is answered with** when it is asked for with `GET`: that it was not modified, or
something else, and if that is a 200 the whole of the file. -/
lemma fileResponse_cases (hg : req.method = .get) :
    if isNotModified req (generateEtag (mtimeSecs file) file.content.length) (mtimeSecs file) then
      (fileResponse req merged file).status = .notModified
    else (fileResponse req merged file).status ≠ .notModified ∧
      ((fileResponse req merged file).status = .ok →
        fileResponse req merged file = wholeResponse merged file) := by
  rw [fileResponse, hg]
  split_ifs with hm
  · rfl
  · cases req.getHeader "Range" with
    | none => exact ⟨StatusCode.noConfusion, fun _ => rfl⟩
    | some value =>
      dsimp only
      cases parseRangeHeader (trim value) file.content.length with
      | error e => exact ⟨StatusCode.noConfusion, StatusCode.noConfusion⟩
      | ok range =>
        cases range with
        | none => exact ⟨StatusCode.noConfusion, fun _ => rfl⟩
        | some range => exact ⟨StatusCode.noConfusion, StatusCode.noConfusion⟩

/-- A file that is answered with a 200 is sent as a whole. -/
lemma whole_of_ok (hg : req.method = .get) (hok : (fileResponse req merged file).status = .ok) :
    fileResponse req merged file = wholeResponse merged file := by
  have hf := @fileResponse_cases req merged file hg
  split_ifs at hf
  · rw [hok] at hf
    cases hf
  · exact hf.2 hok

/-- The headers for caches come behind the others. -/
structure CachedFrom (response cached : HttpResponse) : Prop where
  status : cached.status = response.status
  body : cached.bodySource = response.bodySource
  found : ∀ name : String, eqIgnoreAsciiCase "Cache-Control".toList name.toList = false →
    eqIgnoreAsciiCase "Expires".toList name.toList = false →
      findHeader cached.headers name = findHeader response.headers name

/-- The time of expiry can be represented. -/
def ExpiryFits (env : HandlerEnv) (merged : DirectoryConfig) : Prop :=
  ∀ seconds, merged.expires = some seconds → env.now + seconds < 2 ^ 63

lemma CachedFrom.withHeader (h : CachedFrom response cached) {name : String} (value : Str)
    (hn : name = "Cache-Control" ∨ name = "Expires") :
    CachedFrom response (cached.withHeader name.toList value) := by
  refine ⟨h.status, h.body, fun other hc hex => ?_⟩
  have hk : (name.toList.filter fun c => c ≠ '\r' ∧ c ≠ '\n') = name.toList := by
    rcases hn with rfl | rfl <;> rfl
  have ho : ¬ eqIgnoreAsciiCase name.toList other.toList = true := by
    rw [Bool.not_eq_true]
    rcases hn with rfl | rfl
    · exact hc
    · exact hex
  rw [HttpResponse.withHeader, hk, findHeader_append, findHeader_cons_of_neg ho,
    h.found other hc hex]
  exact Option.or_none

/-- The first header is for the rules of the cache, the second for the time of expiry. -/
lemma withCaching_eq : ∃ r, CachedFrom response r ∧ withCaching env merged response =
    merged.expires.elim (.ok r) fun seconds =>
      if 2 ^ 63 ≤ env.now + seconds then .error .panic
      else .ok (r.withHeader "Expires".toList (formatHttpDate (env.now + seconds))) := by
  have hs : CachedFrom response response := ⟨rfl, rfl, fun _ _ _ => rfl⟩
  rw [withCaching]
  cases merged.cache with
  | none =>
    refine ⟨response, hs, ?_⟩
    cases merged.expires <;> rfl
  | some cache =>
    cases cache with
    | false =>
      refine ⟨_, hs.withHeader "no-store".toList (.inl rfl), ?_⟩
      cases merged.expires <;> rfl
    | true =>
      refine ⟨_, hs.withHeader "public".toList (.inl rfl), ?_⟩
      cases merged.expires <;> rfl

/-- **A response gets its headers for caches** exactly if the time of expiry can be represented. -/
lemma withCaching_cases :
    (ExpiryFits env merged ∧ ∃ cached, withCaching env merged response = .ok cached ∧
      CachedFrom response cached) ∨
    (¬ ExpiryFits env merged ∧ withCaching env merged response = .error .panic) := by
  obtain ⟨r, hr, heq⟩ := @withCaching_eq env merged response
  rw [heq, ExpiryFits]
  cases merged.expires with
  | none => exact .inl ⟨fun _ h => (by cases h), r, rfl, hr⟩
  | some seconds =>
    rw [Option.elim_some]
    split_ifs with hl
    · exact .inr ⟨fun h => absurd hl (Nat.not_le_of_lt (h seconds rfl)), rfl⟩
    · refine .inl ⟨fun _ h => ?_, _, rfl, hr.withHeader _ (.inr rfl)⟩
      cases h
      exact Nat.lt_of_not_le hl

lemma findHeader_ensureVary {headers : Headers} :
    findHeader (ensureVaryAcceptEncoding headers) "ETag" = findHeader headers "ETag" := by
  rw [ensureVaryAcceptEncoding]
  split_ifs
  · exact findHeader_modifyHeader_other (by decide) _
  · rw [findHeader_append]
    exact Option.or_none

/-- The response is compressed on its way out. -/
def compresses (env : HandlerEnv) (config : ServerConfig) (req : HttpRequest)
    (response : HttpResponse) : Bool :=
  negotiable config req response && config.compressionEnabled &&
    acceptsGzip env.qPositive (req.getHeader "Accept-Encoding")

/-- The `Vary` header leaves the rest of the response as it is, and then it is compressed or not. -/
lemma negotiate_eq : ∃ varied : HttpResponse, varied.status = response.status ∧
    varied.bodySource = response.bodySource ∧
    findHeader varied.headers "ETag" = findHeader response.headers "ETag" ∧
    negotiate env config req response =
      if compresses env config req response then compressed config varied else varied := by
  rw [negotiate, compresses]
  by_cases hn : negotiable config req response = true
  · by_cases hen : (req.getHeader "Accept-Encoding").isSome = true
    · refine ⟨{ response with headers := ensureVaryAcceptEncoding response.headers }, rfl, rfl,
        findHeader_ensureVary, ?_⟩
      rw [if_pos hn, hn, Bool.true_and]
      simp only [if_pos hen]
    · refine ⟨response, rfl, rfl, rfl, ?_⟩
      rw [if_pos hn, hn, Bool.true_and]
      simp only [if_neg hen]
  · refine ⟨response, rfl, rfl, rfl, ?_⟩
    rw [if_neg hn, if_neg]
    simp only [hn, Bool.false_and, Bool.false_eq_true, not_false_eq_true]

lemma status_negotiate : (negotiate env config req response).status = response.status := by
  obtain ⟨varied, hs, -, -, heq⟩ := @negotiate_eq env config req response
  have hc : (compressed config varied).status = varied.status := by
    rw [compressed]
    split <;> rfl
  rw [heq, ← hs]
  split_ifs
  · exact hc
  · rfl

/-- **The tag tells whether the file was compressed.** -/
lemma findHeader_negotiate {content : Bytes} {size mtime : ℕ}
    (hb : response.bodySource = .file content size)
    (ht : findHeader response.headers "ETag" = some (generateEtag mtime size)) :
    findHeader (negotiate env config req response).headers "ETag" =
      some (if compresses env config req response then gzipEtag mtime size
        else generateEtag mtime size) := by
  obtain ⟨varied, -, hv, hf, heq⟩ := @negotiate_eq env config req response
  rw [heq]
  split_ifs
  · rw [ht] at hf
    rw [compressed, hv, hb]
    show findHeader (varyEtagForEncoding _ _ ++ _) _ = _
    rw [findHeader_append, findHeader_varyEtag, Option.some_or]
    rw [findHeader_removeHeader (by decide), hf]
  · rw [hf, ht]

/-- **What makes a file be sent compressed**: the server is set to, the client accepts it, and the
file is long enough and of a type that is worth it. -/
structure SentCompressed (env : HandlerEnv) (config : ServerConfig) (req : HttpRequest)
    (merged : DirectoryConfig) (file : OpenedFile) : Prop where
  enabled : config.compressionEnabled = true
  accepted : acceptsGzip env.qPositive (req.getHeader "Accept-Encoding") = true
  long : config.compressionMinSize ≤ file.content.length
  compressible : responseMimeIsCompressible (withRuleHeaders merged (wholeResponse merged file))
    config.compressionMimeTypes = true

lemma compresses_iff (hg : req.method = .get)
    (hc : CachedFrom (withRuleHeaders merged (wholeResponse merged file)) cached) :
    compresses env config req cached = true ↔ SentCompressed env config req merged file := by
  have hs : cached.status = .ok := by
    rw [hc.status, status_withRuleHeaders]
    rfl
  have hle : cached.bodyLen = file.content.length := by
    rw [HttpResponse.bodyLen, hc.body, bodySource_withRuleHeaders]
    rfl
  have ht : responseMimeIsCompressible cached config.compressionMimeTypes =
      responseMimeIsCompressible (withRuleHeaders merged (wholeResponse merged file))
        config.compressionMimeTypes := by
    rw [responseMimeIsCompressible, hc.found "Content-Type" (by decide) (by decide),
      responseMimeIsCompressible]
  rw [compresses, negotiable, hg, hs, hle, ht]
  simp only [Bool.and_eq_true, decide_eq_true_eq]
  constructor
  · rintro ⟨⟨⟨⟨-, hl⟩, ht⟩, hen⟩, ha⟩
    exact ⟨hen, ha, hl, ht⟩
  · rintro ⟨hen, ha, hl, ht⟩
    exact ⟨⟨⟨⟨⟨trivial, trivial⟩, hl⟩, ht⟩, hen⟩, ha⟩

end Response

/-! ### Two requests -/

section Requests

variable {env : HandlerEnv} {config : ServerConfig} {req : HttpRequest} {peer : Option IpAddr}
  {s t : HandlerState} {target : Target} {file : OpenedFile} {response : HttpResponse}

/-- The request is let through to a file, and a time of expiry can be given for it. -/
structure Finds (env : HandlerEnv) (config : ServerConfig) (req : HttpRequest) (peer : Option IpAddr)
    (s : HandlerState) (target : Target) (file : OpenedFile) : Prop where
  reached : ∃ t, (findTarget env config req peer).run s = .ok target t
  opened : openBeneathWithIndex (documentTree env (effectiveConfig config req)) target.openPath
    target.indexes = some (some file)
  fits : ExpiryFits env target.merged

/-- The request with a tag to be compared. -/
def withIfNoneMatch (req : HttpRequest) (tag : Str) : HttpRequest :=
  { req with headers := req.headers ++ [("If-None-Match".toList, tag)] }

lemma getHeader_withIfNoneMatch {name : String} {tag : Str}
    (h : eqIgnoreAsciiCase "If-None-Match".toList name.toList = false) :
    (withIfNoneMatch req tag).getHeader name = req.getHeader name := by
  rw [HttpRequest.getHeader, withIfNoneMatch, findHeader_append,
    findHeader_cons_of_neg (by rw [h]; exact Bool.false_ne_true)]
  exact Option.or_none

/-- The tag makes no difference to where the request leads. -/
lemma effectiveConfig_withIfNoneMatch {tag : Str} :
    effectiveConfig config (withIfNoneMatch req tag) = effectiveConfig config req := by
  rw [effectiveConfig, selectVhost, getHeader_withIfNoneMatch (by decide), ← selectVhost,
    ← effectiveConfig]

lemma Finds.withIfNoneMatch (h : Finds env config req peer s target file) (tag : Str) :
    Finds env config (withIfNoneMatch req tag) peer s target file := by
  have hs : findTarget env config (Handler.withIfNoneMatch req tag) peer =
      findTarget env config req peer := by
    rw [findTarget, effectiveConfig_withIfNoneMatch]
    rfl
  refine ⟨hs ▸ h.reached, ?_, h.fits⟩
  rw [effectiveConfig_withIfNoneMatch]
  exact h.opened

/-- What is made of a file that is found. -/
lemma serve_found (ho : openBeneathWithIndex (documentTree env config) target.openPath
      target.indexes = some (some file)) {cached : HttpResponse}
    (hc : withCaching env target.merged
      (withRuleHeaders target.merged (fileResponse req target.merged file)) = .ok cached) :
    (serve env config req target).run t = .ok (stripBody req (negotiate env config req cached))
      { t with opened := t.opened ++ [file.path] } := by
  simp only [serve, ho, hc]
  rfl

lemma handleRequest_of_serve {u : HandlerState}
    (hf : (findTarget env config req peer).run s = .ok target t)
    (hs : (serve env (effectiveConfig config req) req target).run t = .ok response u) :
    (handleRequest env config req peer).run s = .ok (applySecurityHeaders response config) u := by
  have hi := run_bind_of_ok hf (serve env (effectiveConfig config req) req)
  have hr : (returned (findTarget env config req peer >>=
      serve env (effectiveConfig config req) req)).run s = .ok response u := by
    rw [hs] at hi
    unfold EStateM.run at hi ⊢
    rw [returned, hi]
  rw [handleRequest, run_bind_of_ok hr]
  rfl

lemma status_stripBody : (stripBody req response).status = response.status := by
  rw [stripBody]
  split_ifs <;> rfl

/-- **A file that is found is answered for**, with the status of its response. -/
lemma Finds.answered (h : Finds env config req peer s target file) : ∃ response t,
    (handleRequest env config req peer).run s = .ok response t ∧
      response.status = (fileResponse req target.merged file).status := by
  obtain ⟨t, hf⟩ := h.reached
  rcases @withCaching_cases env target.merged
      (withRuleHeaders target.merged (fileResponse req target.merged file)) with
    ⟨-, cached, hc, hfr⟩ | ⟨hl, -⟩
  · refine ⟨_, _, handleRequest_of_serve hf (serve_found h.opened hc), ?_⟩
    show (stripBody _ _).status = _
    rw [status_stripBody, status_negotiate, hfr.status, status_withRuleHeaders]
  · exact absurd h.fits hl

/-- A listing has no tag. -/
lemma untagged_directoryReply {tree : FileTree} {merged : DirectoryConfig} {path : Str}
    {relPath : List Str} (h : Untouched "ETag" merged)
    (hr : directoryReply tree config merged path relPath = .ok (some response))
    (hok : response.status = .ok) : findHeader response.headers "ETag" = none := by
  rw [directoryReply] at hr
  split_ifs at hr
  · cases hr
    rw [status_redirection] at hok
    cases hok
  · split at hr
    · cases hr
    · split_ifs at hr
      · cases hr
        rw [h.findHeader_withRuleHeaders]
        rfl
      · cases hr
  · cases hr

/-- A page that is sent before a file is looked for has no tag. -/
lemma wp_findTarget_untagged (hru : TagUntouched env (effectiveConfig config req) req s) :
    wp (findTarget env config req peer) s (fun target _ => Untouched "ETag" target.merged)
      fun e _ => ∀ r, e = .reply r → r.status = .ok → findHeader r.headers "ETag" = none := by
  rw [findTarget, wp_bind]
  refine wp_admit (fun limiter => ?_) fun limiter r hr hok => ?_
  · rw [locate_eq, wp_bind]
    refine wp_checks (fun u r hr r' heq hok => ?_) (fun u e he r heq => absurd heq (he r)) ?_
    · cases heq
      rcases hr with hm | hs
      · rw [metricsReply] at hm
        split_ifs at hm
        cases hm
        rfl
      · exact absurd hok hs
    · intro path relPath merged mgr u hp hme
      have hu := hru path relPath merged mgr hp hme
      simp only [wp_bind, wp_replyIf]
      refine wp_ofExcept (fun reply hre => ⟨fun r hr r' heq hok => ?_, fun _ => hu⟩)
        fun e he r heq => ?_
      · cases heq
        exact untagged_directoryReply hu (hr ▸ hre) hok
      · exact absurd heq (ne_reply_of_directoryReply he r)
  · cases hr
    exact StatusCode.noConfusion hok

/-- What a file is answered with when it comes with a 200. -/
lemma wp_serve_ok (target : Target) :
    wp (serve env config req target) s
      (fun r _ => r.status = .ok → ∃ file, openBeneathWithIndex (documentTree env config)
          target.openPath target.indexes = some (some file) ∧ ExpiryFits env target.merged ∧
        ∃ cached, CachedFrom (withRuleHeaders target.merged (fileResponse req target.merged file))
          cached ∧ r = stripBody req (negotiate env config req cached))
      fun e _ => ∀ r, e ≠ .reply r := by
  refine wp_serve (fun _ => ?_) ?_ fun _ _ he => he
  · refine wp_mono (wp_handle404_forall (P := fun r => r.status = .notFound) _ rfl fun _ _ => rfl)
      (fun r _ hr hok => ?_) fun _ _ he => he
    rw [status_withRuleHeaders, hr] at hok
    cases hok
  · intro file cached t hf hc _
    rcases @withCaching_cases env target.merged
        (withRuleHeaders target.merged (fileResponse req target.merged file)) with
      ⟨hfi, cached', hc', hfr⟩ | ⟨-, hp⟩
    · cases hc.symm.trans hc'
      exact ⟨file, hf, hfi, cached, hfr, rfl⟩
    · cases hc.symm.trans hp

/-- **A tag is the file's.**  A 200 with a tag was made from a file, and the tag tells whether it was
compressed. -/
lemma tag_of_handleRequest (hg : req.method = .get)
    (hru : TagUntouched env (effectiveConfig config req) req s) {tag : Str}
    (hrun : (handleRequest env config req peer).run s = .ok response t)
    (hok : response.status = .ok) (ht : findHeader response.headers "ETag" = some tag) :
    ∃ target file, Finds env config req peer s target file ∧
      (SentCompressed env (effectiveConfig config req) req target.merged file ∧
          tag = gzipEtag (mtimeSecs file) file.content.length ∨
        ¬ SentCompressed env (effectiveConfig config req) req target.merged file ∧
          tag = generateEtag (mtimeSecs file) file.content.length) := by
  obtain ⟨inner, u, hi, hr⟩ := run_bind_eq_ok.mp hrun
  cases hr
  change inner.status = .ok at hok
  rw [findHeader_applySecurityHeaders] at ht
  · rcases returned_eq_ok hi with hi | hi
    · obtain ⟨target, v, hf, hs⟩ := run_bind_eq_ok.mp hi
      obtain ⟨file, ho, hfi, cached, hfr, rfl⟩ := wp_ok (wp_serve_ok target) hs hok
      have hu := wp_ok (wp_findTarget_untagged hru) hf
      refine ⟨target, file, ⟨⟨v, hf⟩, ho, hfi⟩, ?_⟩
      rw [status_stripBody, status_negotiate, hfr.status, status_withRuleHeaders] at hok
      rw [whole_of_ok hg hok] at hfr
      have hca : findHeader cached.headers "ETag" =
          some (generateEtag (mtimeSecs file) file.content.length) := by
        rw [hfr.found "ETag" (by decide) (by decide), hu.findHeader_withRuleHeaders,
          findHeader_wholeResponse]
      have hb : cached.bodySource = .file file.content file.content.length := by
        rw [hfr.body, bodySource_withRuleHeaders]
        rfl
      rw [stripBody, if_neg (by rw [hg]; exact Method.noConfusion),
        findHeader_negotiate hb hca, Option.some.injEq] at ht
      rw [← compresses_iff hg hfr, ← ht]
      by_cases hc : compresses env (effectiveConfig config req) req cached = true
      · exact .inl ⟨hc, if_pos hc⟩
      · exact .inr ⟨hc, if_neg hc⟩
    · cases hf : (findTarget env config req peer).run s with
      | error e v =>
        rw [run_bind_of_error hf] at hi
        cases hi
        rw [wp_error (wp_findTarget_untagged hru) hf inner rfl hok] at ht
        cases ht
      | ok target v =>
        rw [run_bind_of_ok hf] at hi
        exact absurd rfl (wp_error (wp_serve_ok target) hi inner)
  · simp only [securityDefaults, forall_mem_cons]
    exact ⟨by decide, by decide, by decide, by decide, fun _ h => absurd h not_mem_nil⟩

/-- The file a request finds is still there for a later one. -/
def StillThere (env env' : HandlerEnv) (config : ServerConfig) (req : HttpRequest)
    (peer : Option IpAddr) (s s' : HandlerState) : Prop :=
  ∀ target file, Finds env config req peer s target file →
    ∃ target', Finds env' config req peer s' target' file

/-- The request with the tag is answered with 304. -/
def Revalidated (env : HandlerEnv) (config : ServerConfig) (req : HttpRequest)
    (peer : Option IpAddr) (s : HandlerState) (tag : Str) : Prop :=
  ∃ again t, (handleRequest env config (withIfNoneMatch req tag) peer).run s = .ok again t ∧
    again.status = .notModified

/-- **A tag is good for a later request exactly if** the file was not sent compressed. -/
theorem etag_revalidated_iff {env' : HandlerEnv} {s' : HandlerState} {tag : Str}
    (hget : req.method = .get) (hplain : req.getHeader "If-None-Match" = none)
    (hrules : TagUntouched env (effectiveConfig config req) req s)
    (hrun : (handleRequest env config req peer).run s = .ok response t)
    (hok : response.status = .ok) (htag : findHeader response.headers "ETag" = some tag)
    (hstill : StillThere env env' config req peer s s') :
    ∃ target file, Finds env config req peer s target file ∧
      (Revalidated env' config req peer s' tag ↔
        ¬ SentCompressed env (effectiveConfig config req) req target.merged file) := by
  obtain ⟨target, file, hfinds, hcases⟩ := tag_of_handleRequest hget hrules hrun hok htag
  refine ⟨target, file, hfinds, ?_⟩
  obtain ⟨target', hfinds'⟩ := hstill target file hfinds
  obtain ⟨again, u, hagain, hstatus⟩ := (hfinds'.withIfNoneMatch tag).answered
  have hmatch : (withIfNoneMatch req tag).getHeader "If-None-Match" = some tag := by
    rw [HttpRequest.getHeader] at hplain
    rw [HttpRequest.getHeader, withIfNoneMatch, findHeader_append, hplain, Option.none_or,
      findHeader_cons_of_pos (by decide)]
  have hrevalidated : Revalidated env' config req peer s' tag ↔ again.status = .notModified := by
    constructor
    · rintro ⟨again', u', hagain', hstatus'⟩
      cases hagain.symm.trans hagain'
      exact hstatus'
    · exact fun h => ⟨again, u, hagain, h⟩
  have hfile := @fileResponse_cases (withIfNoneMatch req tag) target'.merged file hget
  rw [hrevalidated, hstatus]
  rcases hcases with ⟨hcompressed, rfl⟩ | ⟨hplain', rfl⟩
  · rw [isNotModified_gzipEtag hmatch, if_neg Bool.false_ne_true] at hfile
    exact iff_of_false hfile.1 (not_not.mpr hcompressed)
  · rw [isNotModified_generateEtag hmatch, if_pos rfl] at hfile
    exact iff_of_true hfile hplain'

end Requests

/-! ### Samples -/

/-- A server that compresses whatever it can. -/
def gzipConfig : ServerConfig := { compressionEnabled := true, compressionMinSize := 0 }

def pageRequest : HttpRequest := getRequest "/index.html"

/-- A request of a client that accepts the page compressed. -/
def gzipRequest : HttpRequest :=
  { pageRequest with headers := [("Accept-Encoding".toList, "gzip".toList)] }

/-- The site a second later. -/
def laterEnv : HandlerEnv := { siteEnv siteTree with clock := 1, now := 1 }

/-- The state after a request. -/
def laterState (req : HttpRequest) : HandlerState :=
  stateOf ((handleRequest (siteEnv siteTree) gzipConfig req none).run {})

/-- The rules of the site have no headers. -/
lemma tagUntouched_page {req : HttpRequest} (h : requestPaths req =
    .ok ("/index.html".toList, ["index.html".toList])) :
    TagUntouched (siteEnv siteTree) gzipConfig req {} := by
  intro path relPath merged mgr hp hm
  cases h.symm.trans hp
  have hn : (ConfigManager.getConfigForDir (siteEnv siteTree).disk {}
      (some gzipConfig.configFile) gzipConfig.rootDir ["index.html".toList] gzipConfig.devMode).map
        (fun found => (found.1.headers ++ found.1.addHeaders, found.1.removeHeaders)) =
          some ([], []) := by decide
  rw [hm, Option.map_some, Option.some.injEq, Prod.mk.injEq] at hn
  refine ⟨fun header hh => ?_, fun other ho => ?_⟩
  · rw [hn.1] at hh
    cases hh
  · rw [hn.2] at ho
    cases ho

/-- A request that leads to the same names finds the same file. -/
lemma stillThere_of_paths {env env' : HandlerEnv} {config : ServerConfig} {req : HttpRequest}
    {peer : Option IpAddr} {s s' : HandlerState} (path indexes : List Str)
    (hd : env'.disk = env.disk)
    (hf : (valueOf ((findTarget env config req peer).run s)).map
      (fun target => (target.openPath, target.indexes)) = some (path, indexes))
    (hse : (valueOf ((findTarget env' config req peer).run s')).map
      (fun target => ((target.openPath, target.indexes), target.merged.expires)) =
        some ((path, indexes), none)) :
    StillThere env env' config req peer s s' := by
  rintro target file ⟨⟨t, hr⟩, ho, -⟩
  rw [hr] at hf
  obtain ⟨rfl, rfl⟩ := Prod.mk.inj (Option.some.inj hf)
  obtain ⟨target', hfo, heq⟩ := Option.map_eq_some_iff.mp hse
  obtain ⟨hp, hex⟩ := Prod.mk.inj heq
  obtain ⟨hpa, hi⟩ := Prod.mk.inj hp
  refine ⟨target', ⟨_, eq_ok_of_valueOf hfo⟩, ?_, fun seconds hs => ?_⟩
  · rw [hpa, hi, documentTree, hd]
    exact ho
  · rw [hex] at hs
    cases hs

theorem etag_revalidated_page :
    (valueOf ((handleRequest (siteEnv siteTree) gzipConfig pageRequest none).run {})).map
        (fun r => (r.status, findHeader r.headers "ETag")) = some (.ok, some "\"0-5\"".toList) ∧
      Revalidated laterEnv gzipConfig pageRequest none (laterState pageRequest)
        "\"0-5\"".toList := by
  have hresponse : (valueOf ((handleRequest (siteEnv siteTree) gzipConfig pageRequest none).run
      {})).map (fun r => (r.status, findHeader r.headers "ETag")) =
        some (.ok, some "\"0-5\"".toList) := by decide
  refine ⟨hresponse, ?_⟩
  obtain ⟨response, hfound, heq⟩ := Option.map_eq_some_iff.mp hresponse
  obtain ⟨hok, htag⟩ := Prod.mk.inj heq
  have hstill : StillThere (siteEnv siteTree) laterEnv gzipConfig pageRequest none {}
      (laterState pageRequest) :=
    stillThere_of_paths ["index.html".toList] ["index.html".toList] rfl (by decide)
      (by decide)
  obtain ⟨target, file, -, hiff⟩ := etag_revalidated_iff rfl rfl
    (tagUntouched_page (by decide)) (eq_ok_of_valueOf hfound) hok htag hstill
  exact hiff.mpr fun hcompressed => absurd hcompressed.accepted (by decide)

/-- The tag of the compressed page is of no use to the client that it was sent to. -/
theorem gzip_tag_not_revalidated :
    TagUntouched (siteEnv siteTree) gzipConfig gzipRequest {} ∧
      StillThere (siteEnv siteTree) laterEnv gzipConfig gzipRequest none {}
        (laterState gzipRequest) ∧
      (valueOf ((handleRequest (siteEnv siteTree) gzipConfig gzipRequest none).run {})).map
          (fun r => (r.status, findHeader r.headers "ETag")) =
        some (.ok, some "\"0-5-gzip\"".toList) ∧
      ¬ Revalidated laterEnv gzipConfig gzipRequest none (laterState gzipRequest)
        "\"0-5-gzip\"".toList := by
  refine ⟨tagUntouched_page (by decide),
    stillThere_of_paths ["index.html".toList] ["index.html".toList] rfl (by decide)
      (by decide), by decide, ?_⟩
  have hagain : (valueOf ((handleRequest laterEnv gzipConfig
      (withIfNoneMatch gzipRequest "\"0-5-gzip\"".toList) none).run
        (laterState gzipRequest))).map HttpResponse.status = some .ok := by decide
  rintro ⟨again, t, hrun, hstatus⟩
  rw [hrun] at hagain
  cases hstatus.symm.trans (Option.some.inj hagain)

end Handler

end Veysrs
