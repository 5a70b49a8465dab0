import Veysrs.Router.Answers

/-!
# The head of a response

What a request or a rule can put into the head of a response.  `with_header` takes carriage returns
and line feeds out of what it is given, but not every header is set with it: a content type may come
from the rules, the security headers from the configuration, and the tag and `Vary` are changed in
place.

**Rules.**  Content types and security headers are checked when a rule file is read
(`plainTypes_parseVeysruleContent`, `plainSecurity_parseVeysruleContent`), in either way to write
them, and merging keeps that.

**Responses.**  So no header of a response has a line break (`Unbroken`), whichever way the response
was made, and its head is cut into the lines it was made of (`response_head_unbroken`).
-/

namespace Veysrs

open Core List

/-! ## Values of rules -/

lemma valueText_of_noControl {value : Str} (h : noControl value = true) : ValueText value := by
  rw [noControl, Bool.not_eq_true', any_eq_false] at h
  refine valueText_of_not_mem (fun hcr => ?_) fun hlf => ?_
  · exact h 0x0d ((mem_utf8_iff (c := '\r') (by decide)).mpr hcr) rfl
  · exact h 0x0a ((mem_utf8_iff (c := '\n') (by decide)).mpr hlf) rfl

/-- The content types of the rules have no line break. -/
def PlainTypes (config : DirectoryConfig) : Prop :=
  ∀ entry ∈ config.mimeTypes, ValueText entry.2

/-- The headers every response gets unless it has them. -/
def securityDefaults (config : ServerConfig) : List (String × Option Str) :=
  [("X-Content-Type-Options", config.securityXContentTypeOptions),
    ("Referrer-Policy", config.securityReferrerPolicy),
    ("X-Frame-Options", config.securityXFrameOptions),
    ("Content-Security-Policy", config.securityContentSecurityPolicy)]

/-- The security headers have no line break. -/
def PlainSecurity (config : ServerConfig) : Prop :=
  ∀ entry ∈ securityDefaults config, ∀ value, entry.2 = some value → ValueText value

/-- The security headers of the configuration are those of a root rule file without errors. -/
def FromRootRules (config : ServerConfig) : Prop := ∃ content fileName parsed,
  parseVeysruleContent content fileName true = some parsed ∧ parsed.errors = [] ∧
    securityDefaults config = securityDefaults parsed.state.server

lemma mimeDirective_plain {args : List Str} {entry : Str × Str}
    (h : mimeDirective args = .ok entry) : ValueText entry.2 := by
  unfold mimeDirective at h
  split at h
  · split_ifs at h with hb <;> cases h
    simp only [Bool.or_eq_true, Bool.not_eq_true', not_or, Bool.not_eq_false] at hb
    exact valueText_of_noControl hb.2
  · cases h

variable {isRoot : Bool} {config : ServerConfig}

/-- **A rule file sets no content type with a line break.** -/
lemma plainTypes_parseVeysruleContent {content fileName : Str} {parsed : ParsedRules}
    (h : parseVeysruleContent content fileName isRoot = some parsed) :
    PlainTypes parsed.state.dir := by
  refine dir_parseVeysruleContent (P := PlainTypes) (fun _ hen => absurd hen not_mem_nil) ?_
    (fun _ _ _ _ _ hc => hc) h
  simp only [nativeDirectives, forall_mem_cons, not_mem_nil, false_imp_iff, implies_true, and_true]
  and_intros
  all_goals
    intro args c d ha hc
    obtain ⟨value, hr, hs⟩ := except_bind_eq_ok.mp ha
    cases hs
    first
    | exact hc
    | exact forall_mem_append.mpr ⟨hc, forall_mem_singleton.mpr (mimeDirective_plain hr)⟩

lemma forall_setFirst {κ ν : Type} {P : ν → Prop} (same : κ → κ → Bool) {entry : κ × ν}
    (hen : P entry.2) {items : List (κ × ν)} (h : ∀ e ∈ items, P e.2) :
    ∀ e ∈ setFirst same entry items, P e.2 := by
  induction items with
  | nil => exact forall_mem_singleton.mpr hen
  | cons first items ih =>
    obtain ⟨hf, hi⟩ := forall_mem_cons.mp h
    rw [setFirst]
    split_ifs
    · exact forall_mem_cons.mpr ⟨hen, hi⟩
    · exact forall_mem_cons.mpr ⟨hf, ih hi⟩

lemma plainTypes_merge {config child : DirectoryConfig} (h : PlainTypes config)
    (hc : PlainTypes child) : PlainTypes (config.merge child) := by
  rw [PlainTypes, DirectoryConfig.mimeTypes_merge]
  refine List.foldlRecOn (motive := fun types : List (Str × Str) => ∀ e ∈ types, ValueText e.2) _ _ h ?_
  intro types ht entry hen
  exact forall_setFirst eqIgnoreAsciiCase (hc entry hen) ht

lemma plainTypes_getConfigForDir {disk : Disk} {mgr mgr' : ConfigManager}
    {rootConfigFile : Option Str} {rootDir : Str} {relPath : List Str} {devMode : Bool}
    {merged : DirectoryConfig} (hm : mgr.FromRules)
    (h : ConfigManager.getConfigForDir disk mgr rootConfigFile rootDir relPath devMode =
      some (merged, mgr')) : PlainTypes merged := by
  refine (ConfigManager.getConfigForDir_induct (P := PlainTypes) ?_ ?_ hm h).1
  · exact fun _ hen => absurd hen not_mem_nil
  · rintro config child hc ⟨content, fileName, isRoot, parsed, hp, -, rfl⟩
    exact plainTypes_merge hc (plainTypes_parseVeysruleContent hp)

/-! ### Security headers -/

lemma readSecurity_plain {key : String} {val value : Str} (h : readSecurity key val = .ok value) :
    ValueText value := by
  rw [readSecurity] at h
  split_ifs at h with hv <;> cases h
  exact valueText_of_noControl hv

/-- A value that was read takes the place of one of the headers. -/
lemma PlainSecurity.set {c d : ServerConfig} {key : String} {val value : Str}
    (hr : readSecurity key val = .ok value) (hc : PlainSecurity c)
    (hs : ∀ entry ∈ securityDefaults d, entry ∈ securityDefaults c ∨ entry.2 = some value) :
    PlainSecurity d := by
  intro entry hen v hv
  rcases hs entry hen with ho | hn
  · exact hc entry ho v hv
  · exact Option.some.inj (hn.symm.trans hv) ▸ readSecurity_plain hr

/-- **A rule file sets no security header with a line break.** -/
lemma plainSecurity_parseVeysruleContent {content fileName : Str} {parsed : ParsedRules}
    (h : parseVeysruleContent content fileName isRoot = some parsed) :
    PlainSecurity parsed.state.server := by
  refine server_parseVeysruleContent (P := PlainSecurity) ?_ ?_ (fun _ _ hc => hc) h
  · simp only [PlainSecurity, securityDefaults, forall_mem_cons, Option.some.injEq, forall_eq']
    decide
  · simp only [rootDirectives, forall_mem_cons, not_mem_nil, false_imp_iff, implies_true, and_true]
    and_intros
    all_goals
      intro val c d ha hc
      obtain ⟨value, hr, hs⟩ := except_bind_eq_ok.mp ha
      cases hs
      -- the last for the four keys whose value becomes a header
      first
      | exact hc
      | exact hc.set hr (by simp [securityDefaults])

lemma FromRootRules.plain (h : FromRootRules config) : PlainSecurity config := by
  obtain ⟨content, fileName, parsed, hp, -, hs⟩ := h
  rw [PlainSecurity, hs]
  exact plainSecurity_parseVeysruleContent hp

namespace Handler

/-! ## Headers of a response -/

/-- No header has a line break. -/
def Unbroken (response : HttpResponse) : Prop :=
  ∀ header ∈ response.headers, ValueText header.1 ∧ ValueText header.2

variable {headers : Headers}

section Builders

variable {response : HttpResponse}

lemma unbroken_new (status : StatusCode) : Unbroken (.new status) :=
  forall_mem_singleton.mpr ⟨by decide, by decide⟩

lemma valueText_filter (value : Str) : ValueText (value.filter fun c => c ≠ '\r' ∧ c ≠ '\n') := by
  refine valueText_of_not_mem (fun hcr => ?_) fun hlf => ?_
  · simp at hcr
  · simp at hlf

lemma Unbroken.push {name value : Str}
    (h : ∀ header ∈ headers, ValueText header.1 ∧ ValueText header.2) (hn : ValueText name)
    (hv : ValueText value) :
    ∀ header ∈ headers ++ [(name, value)], ValueText header.1 ∧ ValueText header.2 :=
  forall_mem_append.mpr ⟨h, forall_mem_singleton.mpr ⟨hn, hv⟩⟩

/-- Whatever the name and the value are. -/
lemma Unbroken.withHeader (h : Unbroken response) (name value : Str) :
    Unbroken (response.withHeader name value) :=
  Unbroken.push h (valueText_filter name) (valueText_filter value)

lemma valueText_decimal (n : ℕ) : ValueText (decimal n) :=
  valueText_of_not_mem (fun hcr => absurd (isDigit_of_mem_decimal hcr) (by decide))
    fun hlf => absurd (isDigit_of_mem_decimal hlf) (by decide)

lemma Unbroken.withSource (h : Unbroken response) {length : ℕ} {contentType : String}
    {source : BodySource} (hty : ValueText contentType.toList) :
    Unbroken (response.withSource length contentType source) := by
  have hl : ValueText "Content-Length".toList := by decide
  have ht : ValueText "Content-Type".toList := by decide
  have hle := Unbroken.push h hl (valueText_decimal length)
  have hb := Unbroken.push hle ht hty
  rwa [append_assoc] at hb

lemma Unbroken.withBody (h : Unbroken response) (body : Bytes) {contentType : String}
    (ht : ValueText contentType.toList) : Unbroken (response.withBody body contentType) := by
  exact h.withSource ht

lemma unbroken_plain (status : StatusCode) (text : String) : Unbroken (plain status text) :=
  (unbroken_new status).withBody _ (by decide)

lemma Unbroken.applyCustomHeaders (h : Unbroken response) (headers : List (Str × Str)) :
    Unbroken (applyCustomHeaders response headers) :=
  List.foldlRecOn (motive := Unbroken) _ _ h fun _ hr header _ =>
    hr.withHeader header.1 header.2

lemma Unbroken.withRuleHeaders (h : Unbroken response) (merged : DirectoryConfig) :
    Unbroken (withRuleHeaders merged response) := by
  have ha := (h.applyCustomHeaders merged.headers).applyCustomHeaders merged.addHeaders
  refine List.foldlRecOn (motive := fun headers : Headers => ∀ header ∈ headers,
    ValueText header.1 ∧ ValueText header.2) merged.removeHeaders _ ha ?_
  intro headers hh name _ header hhe
  exact hh header (mem_of_mem_filter hhe)

lemma unbroken_redirection (merged : DirectoryConfig) (status : StatusCode) (location : Str) :
    Unbroken (redirection merged status location) :=
  (((unbroken_new status).withHeader _ location).withBody [] (by decide)).withRuleHeaders merged

lemma Unbroken.applySecurityHeaders (h : Unbroken response) (hc : PlainSecurity config) :
    Unbroken (applySecurityHeaders response config) := by
  have hn : ∀ entry ∈ securityDefaults config, ValueText entry.1.toList := by
    simp only [securityDefaults, forall_mem_cons]
    exact ⟨by decide, by decide, by decide, by decide, fun _ h => absurd h not_mem_nil⟩
  unfold Unbroken Handler.applySecurityHeaders
  dsimp only
  refine List.foldlRecOn (motive := fun headers : Headers => ∀ header ∈ headers,
    ValueText header.1 ∧ ValueText header.2) (securityDefaults config) _ h ?_
  intro headers hh entry hen
  split
  · exact hh
  · rename_i value hs
    split_ifs
    · exact hh
    · exact Unbroken.push hh (hn entry hen) (hc entry hen value hs)

end Builders

/-! ## Responses -/

section Responses

variable {env : HandlerEnv} {config : ServerConfig} {req : HttpRequest} {peer : Option IpAddr}
  {s t : HandlerState} {response : HttpResponse} {merged : DirectoryConfig}

/-- **Every early return is unbroken**, with any rules. -/
lemma EarlyReply.unbroken (h : EarlyReply env config req peer response) : Unbroken response := by
  cases h with
  | limited => exact ((unbroken_new _).withHeader _ _).withBody _ (by decide)
  | metrics h =>
    rw [metricsReply] at h
    split_ifs at h
    cases h
    exact ((unbroken_new _).withHeader _ _).withBody _ (by decide)
  | method h =>
    rw [methodReply] at h
    split at h
    · cases h
    · cases h
    · cases h
      exact unbroken_plain _ _
    · cases h
      exact ((unbroken_new _).withHeader _ _).withBody _ (by decide)
  | path h =>
    rw [requestPaths] at h
    split at h
    · cases h
      exact unbroken_plain _ _
    · split at h
      · cases h
        exact unbroken_plain _ _
      · split_ifs at h
        cases h
        exact unbroken_plain _ _
  | methodRule h =>
    rw [methodRuleReply] at h
    split at h
    · cases h
    · split_ifs at h
      cases h
      exact ((unbroken_new _).withHeader _ _).withBody _ (by decide)
  | hidden h =>
    rw [hiddenReply] at h
    split_ifs at h
    cases h
    exact (unbroken_plain _ _).withRuleHeaders _
  | address h =>
    rw [addressReply] at h
    split_ifs at h
    cases h
    exact (unbroken_plain _ _).withRuleHeaders _
  | redirect h =>
    rw [redirectReply] at h
    split at h
    · cases h
    · rw [Option.ite_none_right_eq_some] at h
      exact Option.some.inj h.2 ▸ unbroken_redirection _ _ _
  | noRoot => exact unbroken_plain _ _
  | directory h =>
    rw [directoryReply] at h
    split_ifs at h
    · cases h
      exact unbroken_redirection _ _ _
    · split at h
      · cases h
      · split_ifs at h
        · cases h
          exact ((unbroken_new _).withBody _ (by decide)).withRuleHeaders _
        · cases h
    · cases h

lemma valueText_getMimeType (name : Str) : ValueText (getMimeType name).toList := by
  have ht : ∀ entry ∈ mimeTypes, ValueText entry.2.toList := by
    simp only [mimeTypes, forall_mem_cons]
    exact ⟨by decide, by decide, by decide, by decide, by decide, by decide, by decide, by decide,
      by decide, by decide, by decide, by decide, by decide, fun _ h => absurd h not_mem_nil⟩
  have hu : ValueText "application/octet-stream".toList := by decide
  rw [getMimeType]
  split
  · exact hu
  · rename_i ext _
    cases hf : mimeTypes.find? fun entry => entry.1.any fun e => e.toList = toLowercase ext with
    | none => exact hu
    | some entry => exact ht entry (mem_of_find?_eq_some hf)

lemma valueText_mimeTypeOf (h : PlainTypes merged) (file : OpenedFile) :
    ValueText (mimeTypeOf merged file).toList := by
  rw [mimeTypeOf]
  split
  · rename_i entry hf
    rw [String.toList_ofList]
    exact h entry (mem_of_find?_eq_some hf)
  · exact valueText_getMimeType _

lemma Unbroken.withTag (h : Unbroken response) (etag lastModified : Str) :
    Unbroken (withTag response etag lastModified) :=
  (h.withHeader _ etag).withHeader _ lastModified

lemma Unbroken.acceptRanges (h : Unbroken response) : Unbroken (acceptRanges response) :=
  h.withHeader _ _

lemma unbroken_fileResponse (req : HttpRequest) (h : PlainTypes merged) (file : OpenedFile) :
    Unbroken (fileResponse req merged file) := by
  have ht := valueText_mimeTypeOf h file
  have hw : ∀ etag lastModified, Unbroken ((acceptRanges (withTag (.new .ok) etag
      lastModified)).withFile file.content file.content.length (mimeTypeOf merged file)) :=
    fun etag lastModified =>
      ((unbroken_new .ok).withTag etag lastModified).acceptRanges.withSource ht
  simp only [fileResponse]
  split_ifs
  · exact (unbroken_new _).withTag _ _
  · split
    · split
      · exact (((unbroken_new _).withTag _ _).withHeader _ _).acceptRanges.withSource ht
      · exact ((unbroken_new _).withHeader _ _).withBody _ (by decide)
      · exact hw _ _
    · exact ((((unbroken_new _).withHeader _ _).withHeader _ _).withTag _ _).acceptRanges
    · exact hw _ _

lemma Unbroken.withCaching (h : Unbroken response) {cached : HttpResponse}
    (hc : withCaching env merged response = .ok cached) : Unbroken cached := by
  simp only [Handler.withCaching] at hc
  split at hc
  · obtain rfl := Except.ok.inj hc
    split
    · exact h.withHeader _ _
    · exact h.withHeader _ _
    · exact h
  · split_ifs at hc
    obtain rfl := Except.ok.inj hc
    refine Unbroken.withHeader ?_ _ _
    split
    · exact h.withHeader _ _
    · exact h.withHeader _ _
    · exact h

/-- A header is changed in place to a value without a line break. -/
lemma unbroken_modifyHeader {name : String} {f : Str → Str}
    (hf : ∀ value, ValueText value → ValueText (f value))
    (h : ∀ header ∈ headers, ValueText header.1 ∧ ValueText header.2) :
    ∀ header ∈ modifyHeader name f headers, ValueText header.1 ∧ ValueText header.2 := by
  induction headers with
  | nil => exact h
  | cons header headers ih =>
    obtain ⟨hh, hhe⟩ := forall_mem_cons.mp h
    rw [modifyHeader]
    split_ifs
    · exact forall_mem_cons.mpr ⟨⟨hh.1, hf _ hh.2⟩, hhe⟩
    · exact forall_mem_cons.mpr ⟨hh, ih hhe⟩

lemma unbroken_ensureVary (h : ∀ header ∈ headers, ValueText header.1 ∧ ValueText header.2) :
    ∀ header ∈ ensureVaryAcceptEncoding headers, ValueText header.1 ∧ ValueText header.2 := by
  rw [ensureVaryAcceptEncoding]
  split_ifs
  · refine unbroken_modifyHeader (fun value hv => ?_) h
    split_ifs
    · exact hv
    · have ha : ValueText ", Accept-Encoding".toList := by decide
      exact forall_mem_append.mpr ⟨hv, ha⟩
  · exact Unbroken.push h (by decide) (by decide)

lemma unbroken_varyEtag (h : ∀ header ∈ headers, ValueText header.1 ∧ ValueText header.2) :
    ∀ header ∈ varyEtagForEncoding headers "gzip", ValueText header.1 ∧ ValueText header.2 := by
  have hs : ValueText ('-' :: "gzip".toList) := by decide
  have hq : ValueText ['"'] := by decide
  refine unbroken_modifyHeader (fun value hv => ?_) h
  split_ifs
  · exact forall_mem_append.mpr ⟨forall_mem_append.mpr
      ⟨fun c hc => hv c (mem_of_mem_dropLast hc), hs⟩, hq⟩
  · exact forall_mem_append.mpr ⟨hv, hs⟩

lemma Unbroken.compressed (h : Unbroken response) : Unbroken (compressed config response) := by
  rw [Handler.compressed]
  split
  · refine Unbroken.push (unbroken_varyEtag fun header hh => ?_) (by decide) (by decide)
    exact h header (mem_of_mem_filter hh)
  · exact h

lemma Unbroken.negotiate (h : Unbroken response) : Unbroken (negotiate env config req response) := by
  have hv : Unbroken { response with headers := ensureVaryAcceptEncoding response.headers } :=
    unbroken_ensureVary h
  simp only [Handler.negotiate]
  split_ifs
  · exact hv.compressed
  · exact h.compressed
  · exact hv
  · exact h
  · exact h

lemma Unbroken.stripBody (h : Unbroken response) : Unbroken (stripBody req response) := by
  rw [Handler.stripBody]
  split_ifs
  · exact h
  · exact h

/-- A missing file is answered with a text or with a page. -/
lemma wp_handle404_forall {P : HttpResponse → Prop} (tree : FileTree)
    (hm : P (plain .notFound "404 Not Found"))
    (hp : ∀ body name, P ((HttpResponse.new .notFound).withBody body (getMimeType name))) :
    wp (handle404 tree merged) s (fun r _ => P r) fun e _ => ∀ r, e ≠ .reply r := by
  rw [handle404]
  split
  · exact hm
  · split
    · exact hm
    · rw [wp_ite]
      refine ⟨fun _ => hm, fun _ => ?_⟩
      split
      · rintro r ⟨⟩
      · exact hm
      · simp only [wp_bind, wp_ite]
        exact ⟨fun _ => hp _ _, fun _ => hm⟩

lemma wp_handle404_unbroken (tree : FileTree) :
    wp (handle404 tree merged) s (fun r _ => Unbroken r) fun e _ => ∀ r, e ≠ .reply r :=
  wp_handle404_forall tree (unbroken_plain _ _) fun _ _ =>
    (unbroken_new _).withBody _ (valueText_getMimeType _)

lemma wp_serve_unbroken (target : Target) (h : PlainTypes target.merged) :
    wp (serve env config req target) s (fun r _ => Unbroken r) fun e _ => ∀ r, e ≠ .reply r := by
  refine wp_serve (fun _ => ?_) ?_ fun _ _ he => he
  · exact wp_mono (wp_handle404_unbroken _) (fun r _ hr => hr.withRuleHeaders _) fun _ _ he => he
  · intro file cached t _ hc
    have hf := (unbroken_fileResponse req h file).withRuleHeaders target.merged
    exact (hf.withCaching hc).negotiate.stripBody

/-- **No response has a header with a line break.** -/
lemma unbroken_handleRequest (hmgr : s.mgr.FromRules) (hc : PlainSecurity config)
    (h : (handleRequest env config req peer).run s = .ok response t) : Unbroken response := by
  have hca : wp (returned (findTarget env config req peer >>=
      serve env (effectiveConfig config req) req)) s (fun r _ => Unbroken r) fun _ _ => True := by
    refine wp_returned ?_
    rw [wp_bind]
    refine wp_findTarget (fun _ r _ hr => hr.unbroken) (fun _ e _ he => ?_) ?_
    · cases e with
      | reply r => exact absurd rfl (he r)
      | panic => trivial
      | unending => trivial
    · intro path relPath merged mgr t _ _ hm
      refine wp_mono (wp_serve_unbroken _ (plainTypes_getConfigForDir hmgr hm))
        (fun r _ hr => hr) fun e _ he => ?_
      cases e with
      | reply r => exact absurd rfl (he r)
      | panic => trivial
      | unending => trivial
  obtain ⟨inner, u, hi, hre⟩ := run_bind_eq_ok.mp h
  cases hre
  exact (wp_ok hca hi).applySecurityHeaders hc

end Responses

/-! ## The head on the wire -/

/-- The first line of a response. -/
def statusLine (response : HttpResponse) : Str :=
  "HTTP/1.1 ".toList ++ decimal response.status.code ++ ' ' :: response.status.reasonPhrase.toList

/-- The headers that are sent: of a file that is compressed, all but its length. -/
def sentHeaders (response : HttpResponse) : Headers :=
  if response.chunked then removeHeader response.headers "Content-Length" else response.headers

/-- The lines that `send_to` adds. -/
def addedLines (response : HttpResponse) : List Str :=
  (if response.headers.any fun header => eqIgnoreAsciiCase header.1 "Connection".toList then []
    else if response.closeConnection then ["Connection: close".toList]
    else ["Connection: keep-alive".toList]) ++
  if response.chunked && !response.headers.any fun header =>
      eqIgnoreAsciiCase header.1 "Transfer-Encoding".toList then
    ["Transfer-Encoding: chunked".toList]
  else []

/-- The head is the lines of the response and an empty one, and it is what is written first. -/
structure HeadUnbroken (response : HttpResponse) : Prop where
  lines : splitCrlf response.sendHead =
    statusLine response :: (sentHeaders response).map headerLine ++ addedLines response ++ [[], []]
  sent : ∀ (transfer : Transfer) (fuel : ℕ), transfer.write 0 = .ok () →
    utf8 response.sendHead <+: (stateOf ((transfer.sendTo response fuel).run {})).written

section Head

variable {env : HandlerEnv} {config : ServerConfig} {req : HttpRequest} {peer : Option IpAddr}
  {s t : HandlerState} {response : HttpResponse}

lemma sendHead_eq_joinLines (response : HttpResponse) :
    response.sendHead = joinLines (statusLine response :: (sentHeaders response).map headerLine ++
      addedLines response ++ [[], []]) := by
  have hs : (response.headers.filter fun header =>
      !(response.chunked && eqIgnoreAsciiCase header.1 "Content-Length".toList)) =
      sentHeaders response := by
    rw [sentHeaders]
    cases response.chunked with
    | false => simp
    | true => simp [removeHeader]
  rw [HttpResponse.sendHead, hs, append_assoc (_ :: _)]
  rfl

lemma oneLine_statusLine (response : HttpResponse) : OneLine (statusLine response) := by
  have hr : ValueText (' ' :: response.status.reasonPhrase.toList) := by
    cases response.status <;> decide
  have hv : ValueText "HTTP/1.1 ".toList := by decide
  exact oneLine_of_valueText (forall_mem_append.mpr
    ⟨forall_mem_append.mpr ⟨hv, valueText_decimal _⟩, hr⟩)

lemma oneLine_headerLine {header : Str × Str} (hn : ValueText header.1)
    (hv : ValueText header.2) : OneLine (headerLine header) := by
  have hc : ValueText ": ".toList := by decide
  exact oneLine_of_valueText (forall_mem_append.mpr
    ⟨forall_mem_append.mpr ⟨hn, hc⟩, hv⟩)

lemma Unbroken.lines (h : Unbroken response) :
    splitCrlf response.sendHead =
      statusLine response :: (sentHeaders response).map headerLine ++ addedLines response ++
        [[], []] := by
  have hs : ∀ header ∈ sentHeaders response, header ∈ response.headers := by
    intro header hh
    rw [sentHeaders] at hh
    split_ifs at hh
    · exact mem_of_mem_filter hh
    · exact hh
  have ha : ∀ line ∈ addedLines response, OneLine line := by
    refine forall_mem_append.mpr ⟨?_, ?_⟩
    · split_ifs
      · exact fun _ h => absurd h not_mem_nil
      · exact forall_mem_singleton.mpr rfl
      · exact forall_mem_singleton.mpr rfl
    · split_ifs
      · exact forall_mem_singleton.mpr rfl
      · exact fun _ h => absurd h not_mem_nil
  rw [sendHead_eq_joinLines, splitCrlf_joinLines (by simp)]
  refine forall_mem_append.mpr ⟨forall_mem_append.mpr
    ⟨forall_mem_cons.mpr ⟨oneLine_statusLine response, ?_⟩, ha⟩, ?_⟩
  · refine forall_mem_map.mpr fun header hh => ?_
    obtain ⟨hn, hv⟩ := h header (hs header hh)
    exact oneLine_headerLine hn hv
  · exact forall_mem_cons.mpr ⟨oneLine_nil, forall_mem_singleton.mpr oneLine_nil⟩

/-- **Nothing in a request or a rule adds, ends or merges a line of a response.** -/
theorem response_head_unbroken (hmgr : s.mgr.FromRules) (hconfig : FromRootRules config)
    (h : (handleRequest env config req peer).run s = .ok response t) : HeadUnbroken response :=
  ⟨(unbroken_handleRequest hmgr hconfig.plain h).lines, fun transfer fuel hwrite =>
    transfer.head_sent response fuel hwrite⟩

/-- A site with a directory whose name has a line break. -/
def brokenNameTree : FileTree where
  entries := ⟨[⟨[], openDir⟩, ⟨["a\r\nb".toList], openDir⟩], by rw [List.NodupKeys]; decide⟩
  named := by decide

/-- The redirect to such a directory, whose location is the decoded path. -/
theorem response_head_unbroken_redirect : ∃ response t,
    (handleRequest (siteEnv brokenNameTree) {} (getRequest "/a%0d%0ab") none).run {} =
        .ok response t ∧
      response.status = .movedPermanently ∧ HeadUnbroken response := by
  have hstatus : (valueOf ((handleRequest (siteEnv brokenNameTree) {} (getRequest "/a%0d%0ab")
      none).run {})).map HttpResponse.status = some .movedPermanently := by decide +kernel
  obtain ⟨response, hresponse, hmoved⟩ := Option.map_eq_some_iff.mp hstatus
  have hrun := eq_ok_of_valueOf hresponse
  exact ⟨response, _, hrun, hmoved, response_head_unbroken ConfigManager.fromRules_empty
    ⟨[], [], {}, rfl, rfl, rfl⟩ hrun⟩

end Head

end Handler

end Veysrs
