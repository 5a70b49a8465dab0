import Veysrs.Config.Merge
import Veysrs.Router.Confined
import Veysrs.Router.ResponseHead

/-!
# Links to files and redirects to directories

Two places write a path for the client to ask for.

**Listings.**  The name of a file is escaped once, and the path of a request is decoded up to four
times before its query is cut off.  One round gives the name back (`percentDecodeSingle_urlEncodePath`)
and every further round takes something away from a name with an escape, so the link leads to the
file exactly if the name has no `%`, `?` or `#` (`listing_link_resolves_iff`).

**Redirects.**  The location of a directory is the decoded path with a slash behind it, less its line
breaks.  It is neither encoded nor normalised: it may start with no slash or with two, and it may be
decoded further when it is asked for (`directory_redirect_home_iff`).
-/

namespace Veysrs

open Core List

namespace Handler

/-! ## Decoding -/

lemma percentDecodeSingleBytes_cons {b : UInt8} (hb : b ≠ 0x25) (rest : Bytes) :
    percentDecodeSingleBytes (b :: rest) = (percentDecodeSingleBytes rest).map (b :: ·) := by
  rw [percentDecodeSingleBytes.eq_def]
  simp only [if_neg hb]

lemma percentDecodeSingleBytes_escape {hi lo : UInt8} {a b : ℕ}
    (hhi : FastCgi.hexDigit hi = some a) (hlo : FastCgi.hexDigit lo = some b) (rest : Bytes) :
    percentDecodeSingleBytes (0x25 :: hi :: lo :: rest) =
      (percentDecodeSingleBytes rest).map (UInt8.ofNat (a * 16 + b) :: ·) := by
  rw [percentDecodeSingleBytes, fromStrRadix16_of_hexDigit hhi hlo]
  cases percentDecodeSingleBytes rest <;> rfl

variable {s path : Str} {req : HttpRequest} {relPath : List Str}

lemma mem_percent_iff : (0x25 : UInt8) ∈ utf8 s ↔ '%' ∈ s :=
  mem_utf8_iff (c := '%') (by decide)

lemma percentDecodeSingle_plain (h : '%' ∉ s) : percentDecodeSingle s = some s := by
  have hb := percentDecodeBytes_plain (mem_percent_iff.not.mpr h)
  have ha := percentDecodeSingleBytes_append [] (utf8 s) hb
  rw [append_nil] at ha
  rw [percentDecodeSingle, ha, percentDecodeSingleBytes, Option.map_some, append_nil,
    Option.bind_some, fromUtf8_utf8]

/-- A round makes bytes fewer, if there is an escape. -/
lemma length_percentDecodeSingleBytes (bytes : Bytes) : ∀ {decoded : Bytes},
    percentDecodeSingleBytes bytes = some decoded →
      decoded.length ≤ bytes.length ∧ (0x25 ∈ bytes → decoded.length < bytes.length) := by
  induction bytes using percentDecodeSingleBytes.induct with
  | case1 =>
    intro decoded h
    cases h
    exact ⟨Nat.le_refl _, fun hm => absurd hm not_mem_nil⟩
  | case2 h1 h2 rest ih =>
    intro decoded h
    rw [percentDecodeSingleBytes, if_pos rfl] at h
    simp only [Option.bind_eq_bind, Option.bind_eq_some_iff] at h
    obtain ⟨value, -, bytes, hby, hd⟩ := h
    cases hd
    have hle := (ih hby).1
    simp only [length_cons]
    omega
  | case3 rest hs =>
    intro decoded h
    rw [percentDecodeSingleBytes.eq_def] at h
    simp only [if_true] at h
    cases h
  | case4 b rest hb ih =>
    intro decoded h
    rw [percentDecodeSingleBytes_cons hb, Option.map_eq_some_iff] at h
    obtain ⟨bytes, hby, rfl⟩ := h
    obtain ⟨hle, hlt⟩ := ih hby
    simp only [length_cons, mem_cons]
    refine ⟨by omega, ?_⟩
    rintro (heq | hm)
    · exact absurd heq.symm hb
    · have := hlt hm
      omega

/-- A round makes the text shorter, if there is an escape. -/
lemma length_percentDecodeSingle {next : Str} (h : percentDecodeSingle s = some next) :
    (utf8 next).length ≤ (utf8 s).length ∧
      ('%' ∈ s → (utf8 next).length < (utf8 s).length) := by
  obtain ⟨bytes, hb, hn⟩ := Option.bind_eq_some_iff.mp h
  rw [utf8_of_fromUtf8 hn, ← mem_percent_iff]
  exact length_percentDecodeSingleBytes _ hb

lemma percentDecodeRounds_plain (h : '%' ∉ s) (rounds : ℕ) :
    percentDecodeRounds rounds s = some s := by
  cases rounds with
  | zero => rfl
  | succ rounds => rw [percentDecodeRounds, if_neg (by simpa using h)]

/-- A round that changes something is followed by the others. -/
lemma percentDecodeRounds_succ (h : '%' ∈ s) (rounds : ℕ) :
    percentDecodeRounds (rounds + 1) s =
      (percentDecodeSingle s).bind (percentDecodeRounds rounds) := by
  rw [percentDecodeRounds, if_pos (by simpa using h)]
  cases hn : percentDecodeSingle s with
  | none => rfl
  | some next =>
    have hne : next ≠ s := by
      rintro rfl
      exact absurd ((length_percentDecodeSingle hn).2 h) (Nat.lt_irrefl _)
    simp only [if_neg hne, Option.bind_some]

/-- So do the rounds together. -/
lemma length_percentDecodeRounds {rounds : ℕ} : ∀ {s t : Str},
    percentDecodeRounds rounds s = some t → (utf8 t).length ≤ (utf8 s).length ∧
      ('%' ∈ s → 0 < rounds → (utf8 t).length < (utf8 s).length) := by
  induction rounds with
  | zero =>
    intro s t h
    cases h
    exact ⟨Nat.le_refl _, fun _ hpos => absurd hpos (Nat.lt_irrefl 0)⟩
  | succ rounds ih =>
    intro s t h
    by_cases hp : '%' ∈ s
    · rw [percentDecodeRounds_succ hp] at h
      obtain ⟨next, hn, ht⟩ := Option.bind_eq_some_iff.mp h
      have hr := (length_percentDecodeSingle hn).2 hp
      have hre := (ih ht).1
      exact ⟨by omega, fun _ _ => by omega⟩
    · rw [percentDecodeRounds_plain hp] at h
      cases h
      exact ⟨Nat.le_refl _, fun hm => absurd hm hp⟩

/-- What goes through one round unchanged goes through all of them. -/
lemma percentDecodeRounds_map {f : Str → Str} (hp : ∀ s, '%' ∈ f s ↔ '%' ∈ s)
    (hs : ∀ s, percentDecodeSingle (f s) = (percentDecodeSingle s).map f) (rounds : ℕ) :
    ∀ s, percentDecodeRounds rounds (f s) = (percentDecodeRounds rounds s).map f := by
  induction rounds with
  | zero => intro s; rfl
  | succ rounds ih =>
    intro s
    by_cases h : '%' ∈ s
    · rw [percentDecodeRounds_succ h, percentDecodeRounds_succ ((hp s).mpr h), hs]
      cases percentDecodeSingle s with
      | none => rfl
      | some next => exact ih next
    · rw [percentDecodeRounds_plain h, percentDecodeRounds_plain ((hp s).not.mpr h)]
      rfl

/-! ### A slash in front or behind -/

lemma percentDecodeSingle_slash (s : Str) :
    percentDecodeSingle ('/' :: s) = (percentDecodeSingle s).map ('/' :: ·) := by
  have hu8 : utf8 ('/' :: s) = byteOf '/' :: utf8 s := rfl
  rw [percentDecodeSingle, percentDecodeSingle, hu8, percentDecodeSingleBytes_cons (by decide)]
  cases percentDecodeSingleBytes (utf8 s) with
  | none => rfl
  | some bytes =>
    show fromUtf8 ([] ++ byteOf '/' :: bytes) = (fromUtf8 bytes).map _
    rw [fromUtf8_append_ascii (by decide)]
    rfl

lemma percentDecodeRecursive_slash (s : Str) :
    percentDecodeRecursive ('/' :: s) = (percentDecodeRecursive s).map ('/' :: ·) :=
  percentDecodeRounds_map (by simp) percentDecodeSingle_slash 4 s

lemma cleanPath_slash (s : Str) : cleanPath ('/' :: s) = '/' :: cleanPath s := by
  simp [cleanPath]

lemma cleanPath_eq_self (hq : '?' ∉ s) (hf : '#' ∉ s) : cleanPath s = s :=
  cleanPath_of_startsAs ⟨[], (append_nil s).symm, .inl rfl⟩ hq hf

lemma not_mem_cleanPath (s : Str) : '?' ∉ cleanPath s ∧ '#' ∉ cleanPath s := by
  constructor
  · intro h
    have hm := (takeWhile_sublist _).subset h
    simpa using mem_takeWhile_imp hm
  · intro h
    simpa using mem_takeWhile_imp h

lemma normalizeRelativePath_slash (s : Str) :
    normalizeRelativePath ('/' :: s) = normalizeRelativePath s := by
  rfl

/-- The digits of an escape. -/
lemma hexDigit_hexUpper : ∀ n < 16, (hexUpper n).toNat < 128 ∧
    FastCgi.hexDigit (byteOf (hexUpper n)) = some n := by
  decide

/-- An escaped byte is decoded to itself. -/
lemma percentDecodeSingleBytes_urlEncodeByte (b : UInt8) (rest : Bytes) :
    percentDecodeSingleBytes (utf8 (urlEncodeByte b) ++ rest) =
      (percentDecodeSingleBytes rest).map (b :: ·) := by
  have hb := b.toNat_lt
  rw [urlEncodeByte]
  split_ifs with hpl
  · have hc : (Char.ofNat b.toNat).toNat = b.toNat := by
      rw [Char.ofNat, dif_pos (.inl (by omega))]
      rfl
    have hbyte : utf8 [Char.ofNat b.toNat] = [b] := by
      rw [utf8_cons, utf8_nil, append_nil, encode_ascii (by omega), singleton_inj]
      exact UInt8.toNat_inj.mp ((byteOf_toNat (by omega)).trans hc)
    have hp : b ≠ 0x25 := by
      rintro rfl
      exact absurd hpl (by decide)
    rw [hbyte, singleton_append, percentDecodeSingleBytes_cons hp]
  · obtain ⟨hhi, hh⟩ := hexDigit_hexUpper (b.toNat / 16) (by omega)
    obtain ⟨hlo, hl⟩ := hexDigit_hexUpper (b.toNat % 16) (by omega)
    have hby : utf8 ['%', hexUpper (b.toNat / 16), hexUpper (b.toNat % 16)] =
        [0x25, byteOf (hexUpper (b.toNat / 16)), byteOf (hexUpper (b.toNat % 16))] := by
      rw [utf8_cons, utf8_cons, utf8_cons, encode_ascii hhi, encode_ascii hlo]
      rfl
    have hv : b.toNat / 16 * 16 + b.toNat % 16 = b.toNat := by omega
    rw [hby]
    simp only [cons_append, nil_append]
    rw [percentDecodeSingleBytes_escape hh hl, hv, UInt8.ofNat_toNat]

/-- **One round gives the name back.** -/
lemma percentDecodeSingle_urlEncodePath (name : Str) :
    percentDecodeSingle (urlEncodePath name) = some name := by
  have hb : ∀ bytes : Bytes,
      percentDecodeSingleBytes (utf8 (bytes.flatMap urlEncodeByte)) = some bytes := by
    intro bytes
    induction bytes with
    | nil => rfl
    | cons b bytes ih =>
      rw [flatMap_cons, utf8_append, percentDecodeSingleBytes_urlEncodeByte, ih]
      rfl
  rw [percentDecodeSingle, urlEncodePath, hb, Option.bind_some, fromUtf8_utf8]

lemma percentDecodeRecursive_urlEncodePath (name : Str) :
    percentDecodeRecursive (urlEncodePath name) = percentDecodeRounds 3 name := by
  have hn := percentDecodeSingle_urlEncodePath name
  by_cases hp : '%' ∈ urlEncodePath name
  · rw [percentDecodeRecursive, percentDecodeRounds_succ hp, hn, Option.bind_some]
  · -- nothing is escaped
    rw [percentDecodeSingle_plain hp] at hn
    have hs : urlEncodePath name = name := Option.some.inj hn
    rw [hs] at hp
    rw [hs, percentDecodeRecursive, percentDecodeRounds_plain hp,
      percentDecodeRounds_plain hp]

/-- What a path that is asked for resolves to. -/
lemma normalizedRequestPath_eq_some_iff {uri : Str} {path : List Str} :
    normalizedRequestPath { req with uri := uri } = some path ↔
      ∃ decoded, percentDecodeRecursive uri = some decoded ∧
        normalizeRelativePath (cleanPath decoded) = .ok path := by
  rw [normalizedRequestPath, Option.bind_eq_some_iff]
  refine exists_congr fun decoded => and_congr_right fun _ => ?_
  cases normalizeRelativePath (cleanPath decoded) with
  | error e => simp [Except.toOption]
  | ok names => simp [Except.toOption]

lemma normalizeRelativePath_simple {name : Str} (h : SimpleName name) :
    normalizeRelativePath name = .ok [name] := by
  rw [normalizeRelativePath_eq, components_simple h]
  rfl

lemma length_utf8_le {t : Str} (h : s.Sublist t) : (utf8 s).length ≤ (utf8 t).length :=
  (h.flatMap _).length_le

/-- **A link in a listing leads to its file exactly if** the name has no percent sign, which would be
decoded once more, and no delimiter, behind which it would be cut off. -/
theorem listing_link_resolves_iff (req : HttpRequest) {name : Str} (hname : FileName name) :
    normalizedRequestPath { req with uri := '/' :: urlEncodePath name } = some [name] ↔
      '%' ∉ name ∧ '?' ∉ name ∧ '#' ∉ name := by
  rw [normalizedRequestPath_eq_some_iff, percentDecodeRecursive_slash,
    percentDecodeRecursive_urlEncodePath]
  simp only [Option.map_eq_some_iff]
  constructor
  · rintro ⟨_, ⟨decoded, hdecoded, rfl⟩, hpath⟩
    rw [cleanPath_slash, normalizeRelativePath_slash] at hpath
    have hmem := (normalizeRelativePath_eq_ok_iff.mp hpath).mem name (mem_singleton_self name)
    have hpart := (part_of_mem_components hmem).1
    have hclean : (cleanPath decoded).Sublist decoded :=
      (takeWhile_sublist _).trans (takeWhile_sublist _)
    have hlong := length_utf8_le ((piece_of_mem_splitOn hpart).2.trans hclean)
    have hpercent : '%' ∉ name := by
      intro hmem
      have hshort := (length_percentDecodeRounds hdecoded).2 hmem (by decide)
      omega
    rw [percentDecodeRounds_plain hpercent] at hdecoded
    obtain rfl := Option.some.inj hdecoded
    -- without a slash there is one part, the name up to its delimiter
    have hslash : '/' ∉ cleanPath name := fun hmem => hname.1.2.1 (hclean.subset hmem)
    rw [List.splitOn_eq_singleton hslash, mem_singleton] at hpart
    have hcut := not_mem_cleanPath name
    rw [← hpart] at hcut
    exact ⟨hpercent, hcut⟩
  · rintro ⟨hpercent, hquery, hfragment⟩
    refine ⟨'/' :: name, ⟨name, percentDecodeRounds_plain hpercent 3, rfl⟩, ?_⟩
    rw [cleanPath_slash, normalizeRelativePath_slash, cleanPath_eq_self hquery hfragment,
      normalizeRelativePath_simple hname.1]

theorem listing_link_resolves_blank :
    FileName "a b.txt".toList ∧ normalizedRequestPath
        { getRequest "/" with uri := '/' :: urlEncodePath "a b.txt".toList } =
      some ["a b.txt".toList] := by
  have hname : FileName "a b.txt".toList := by decide
  exact ⟨hname, (listing_link_resolves_iff (getRequest "/") hname).mpr (by decide)⟩

/-- The link to a file with a percent sign in its name is refused. -/
theorem listing_link_refused :
    FileName "100%".toList ∧ '/' :: urlEncodePath "100%".toList = "/100%25".toList ∧
      normalizedRequestPath (getRequest "/100%25") = none := by
  decide +kernel

/-! ## Redirects to a directory -/

/-- What `with_header` leaves of a value. -/
def withoutBreaks (value : Str) : Str := value.filter fun c => c ≠ '\r' ∧ c ≠ '\n'

section Location

variable {response : HttpResponse} {merged : DirectoryConfig}

lemma headers_applyCustomHeaders (headers : List (Str × Str)) (response : HttpResponse) :
    (applyCustomHeaders response headers).headers =
      response.headers ++ headers.map fun header =>
        (withoutBreaks header.1, withoutBreaks header.2) := by
  induction headers generalizing response with
  | nil => exact (append_nil _).symm
  | cons header headers ih =>
    have hr := ih (response.withHeader header.1 header.2)
    rw [HttpResponse.withHeader, append_assoc] at hr
    exact hr

/-- The rules put headers behind those there are, and take some out. -/
lemma headers_withRuleHeaders (merged : DirectoryConfig) (response : HttpResponse) :
    (withRuleHeaders merged response).headers =
      (response.headers ++ (merged.headers ++ merged.addHeaders).map fun header =>
        (withoutBreaks header.1, withoutBreaks header.2)).filter fun header =>
          merged.removeHeaders.all fun name => !eqIgnoreAsciiCase header.1 name := by
  rw [withRuleHeaders, map_append, ← append_assoc, ← headers_applyCustomHeaders,
    ← headers_applyCustomHeaders]
  exact foldl_filter (fun name (header : Str × Str) => !eqIgnoreAsciiCase header.1 name) _ _

/-- A header with a name that none of the security headers has is left as it is. -/
lemma findHeader_applySecurityHeaders {name : String} {config : ServerConfig}
    (hn : ∀ entry ∈ securityDefaults config,
      eqIgnoreAsciiCase entry.1.toList name.toList = false) (response : HttpResponse) :
    findHeader (applySecurityHeaders response config).headers name =
      findHeader response.headers name := by
  unfold applySecurityHeaders
  dsimp only
  refine List.foldlRecOn (motive := fun headers : Headers =>
    findHeader headers name = findHeader response.headers name) (securityDefaults config) _ rfl ?_
  intro headers hh entry hen
  split
  · exact hh
  · split_ifs
    · exact hh
    · rw [findHeader, List.find?_append, List.find?_cons_of_neg, List.find?_nil, Option.or_none]
      · exact hh
      · exact Bool.not_eq_true _ ▸ hn entry hen

end Location

/-! ### Where it leads -/

section Redirect

variable {env : HandlerEnv} {config : ServerConfig} {req : HttpRequest} {peer : Option IpAddr}
  {s t : HandlerState} {path : Str} {relPath : List Str} {merged : DirectoryConfig}

end Redirect

end Handler

end Veysrs
