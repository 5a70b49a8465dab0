import Veysrs.Router.Host
import Veysrs.Router.Static
import Veysrs.Server.Limits

/-!
# The static handler

`RequestHandler::handle_request` of `router/handler.rs`.  A request is admitted, its path is decoded
and checked, the rules for the path are put together and applied, and a file is opened for what is
left: the path itself, one of its index files or the page for a missing file.  Every check may end
the call with a response of its own.

**The stages.**  `locate` goes as far as the path that is to be opened, and `serve` opens it.  The
state keeps the manager of the rules, the table of admissions and, for the statements only, the
paths of the files that were opened for a body.

**Rule files.**  The checks keep `.veysrule` out of the path of a request and of an error page, but
not out of the index names, which a rule file can choose; the file that is opened is a rule file
only if the search for an index goes through that name (`rule_files_unserved_iff`).
-/

namespace Veysrs

open Core

/-! ## Metrics -/

/-- The counters of `server/metrics.rs`. -/
structure Metrics where
  requestsTotal : ℕ := 0
  requestsActive : ℕ := 0
  responseBytes : ℕ := 0
  status4xx : ℕ := 0
  status5xx : ℕ := 0
  proxyRequests : ℕ := 0
  fastcgiRequests : ℕ := 0
  deriving DecidableEq, Repr

def renderMetric (name kind : String) (value : ℕ) : Str :=
  "# TYPE ".toList ++ name.toList ++ ' ' :: kind.toList ++ '\n' :: name.toList ++ ' ' ::
    decimal value ++ ['\n']

def renderPrometheus (metrics : Metrics) : Str :=
  renderMetric "veysrs_requests_total" "counter" metrics.requestsTotal ++
  renderMetric "veysrs_requests_active" "gauge" metrics.requestsActive ++
  renderMetric "veysrs_response_bytes" "counter" metrics.responseBytes ++
  renderMetric "veysrs_4xx_total" "counter" metrics.status4xx ++
  renderMetric "veysrs_5xx_total" "counter" metrics.status5xx ++
  renderMetric "veysrs_proxy_requests_total" "counter" metrics.proxyRequests ++
  renderMetric "veysrs_fastcgi_requests_total" "counter" metrics.fastcgiRequests

namespace Handler

/-! ## Calls that end early -/

/-- What the handler finds: the files, the clock of the admissions, the time in seconds, the counters,
and how a quality is read. -/
structure HandlerEnv where
  disk : Disk
  clock : ℕ
  now : ℕ
  metrics : Metrics
  qPositive : Str → Option Bool

structure HandlerState where
  mgr : ConfigManager := {}
  limiter : AdmissionLimiter := ∅
  opened : List (List Str) := []

/-- Why a call ends before its last line: with a response, because the thread panics, or not at all
because the search for an index does not come to an end. -/
inductive Exit where
  | reply (response : HttpResponse)
  | panic
  | unending

abbrev HandlerM := EStateM Exit HandlerState

def replyIf (response : Option HttpResponse) : HandlerM Unit :=
  match response with
  | some response => throw (.reply response)
  | none => pure ()

/-- The caller gets the response of an early return as well. -/
def returned (x : HandlerM HttpResponse) : HandlerM HttpResponse := fun s =>
  match x s with
  | .error (.reply response) t => .ok response t
  | result => result

def plain (status : StatusCode) (text : String) : HttpResponse :=
  (HttpResponse.new status).withBody (utf8 text.toList) "text/plain; charset=utf-8"

/-- The headers that the rules give to a response. -/
def withRuleHeaders (merged : DirectoryConfig) (response : HttpResponse) : HttpResponse :=
  applyRuleHeaders (applyCustomHeaders response merged.headers) merged

/-! ## The checks -/

section Checks

variable (config : ServerConfig) (req : HttpRequest) (merged : DirectoryConfig)

/-- The response to an address that asks too often. -/
def tooManyRequests : HttpResponse :=
  ((HttpResponse.new .tooManyRequests).withHeader "Retry-After".toList "1".toList).withBody
    (utf8 "429 Too Many Requests".toList) "text/plain; charset=utf-8"

/-- The rate limit of the peer's address. -/
def admitPeer (env : HandlerEnv) (config : ServerConfig) (peer : Option IpAddr) : HandlerM Unit :=
  match peer with
  | none => pure ()
  | some ip => do
      let s ← get
      let (allowed, limiter) :=
        allowRequest ip config.rateLimitPerSecond config.rateLimitBurst env.clock s.limiter
      set { s with limiter }
      replyIf (if allowed then none else some tooManyRequests)

def metricsReply (env : HandlerEnv) : Option HttpResponse :=
  if req.uri.takeWhile (· ≠ '?') = "/metrics".toList then
    some (((HttpResponse.new .ok).withHeader "Content-Type".toList
      "text/plain; version=0.0.4".toList).withBody (utf8 (renderPrometheus env.metrics))
        "text/plain; version=0.0.4")
  else none

def methodReply : Option HttpResponse :=
  match req.method with
  | .get => none
  | .head => none
  | .post => some (plain .notImplemented "501 Not Implemented: POST method not supported")
  | .other _ => some (((HttpResponse.new .methodNotAllowed).withHeader "Allow".toList
      "GET, HEAD".toList).withBody (utf8 "405 Method Not Allowed".toList) "text/plain; charset=utf-8")

/-- The decoded path and its components. -/
def requestPaths : Except HttpResponse (Str × List Str) :=
  match percentDecodeRecursive req.uri with
  | none => .error (plain .badRequest "400 Bad Request: Invalid URI encoding")
  | some decodedUri =>
    match normalizeRelativePath (cleanPath decodedUri) with
    | .error _ => .error (plain .forbidden "403 Forbidden: Path traversal attempt denied")
    | .ok relPath =>
      if isProtectedRulePath relPath then .error (plain .notFound "404 Not Found")
      else .ok (cleanPath decodedUri, relPath)

def methodRuleReply : Option HttpResponse :=
  match merged.methods with
  | none => none
  | some methods =>
    if methods.any fun method => eqIgnoreAsciiCase method req.method.text then none
    else some (((HttpResponse.new .methodNotAllowed).withHeader "Allow".toList
      (", ".toList.intercalate methods)).withBody (utf8 "405 Method Not Allowed".toList)
        "text/plain; charset=utf-8")

def denyHidden : Bool := merged.denyHiddenFiles.getD config.denyHiddenFiles

def hiddenReply (relPath : List Str) : Option HttpResponse :=
  if denyHidden config merged && hasHiddenComponent relPath then
    some (withRuleHeaders merged
      (plain .forbidden "403 Forbidden: Access to hidden files is restricted"))
  else none

def addressDenied (ip : IpAddr) : Bool :=
  merged.denyIps.contains ip || merged.denyNetworks.any (·.contains ip) ||
    (!merged.allowNetworks.isEmpty && !merged.allowNetworks.any (·.contains ip))

def addressReply (peer : Option IpAddr) : Option HttpResponse :=
  if peer.any (addressDenied merged) then
    some (withRuleHeaders merged (plain .forbidden "403 Forbidden: Access denied by IP rule"))
  else none

/-- A response that sends the client elsewhere. -/
def redirection (status : StatusCode) (location : Str) : HttpResponse :=
  withRuleHeaders merged
    (((HttpResponse.new status).withHeader "Location".toList location).withBody []
      "text/plain; charset=utf-8")

def redirectReply (path : Str) : Option HttpResponse :=
  match merged.redirect with
  | none => none
  | some rule =>
    if rule.source = path then
      some (redirection merged (if rule.status = 301 then .movedPermanently else .found)
        rule.target)
    else none

end Checks

/-! ## What is to be opened -/

/-- A vhost has its own root, and its rule file there. -/
def effectiveConfig (config : ServerConfig) (req : HttpRequest) : ServerConfig :=
  match selectVhost config req with
  | none => config
  | some vhost =>
    { config with
      rootDir := vhost.rootDir
      configFile := joinPath vhost.rootDir ruleFileName
      tlsCertificate := vhost.tlsCertificate
      tlsPrivateKey := vhost.tlsPrivateKey }

structure Target where
  merged : DirectoryConfig
  openPath : List Str
  indexes : List Str

def documentTree (env : HandlerEnv) (config : ServerConfig) : FileTree :=
  env.disk.treeAt (components config.rootDir)

def configuredIndexes (merged : DirectoryConfig) : List Str :=
  merged.indexFiles.getD ["index.html".toList]

/-- For the root, only the first index file is looked for. -/
def openPath (merged : DirectoryConfig) (relPath : List Str) : List Str :=
  if relPath = [] then
    normalNames ((merged.indexFiles.bind List.head?).getD "index.html".toList)
  else relPath

/-- `get_config_for_dir`, with the manager of the state. -/
def mergedConfig (env : HandlerEnv) (config : ServerConfig) (relPath : List Str) :
    HandlerM DirectoryConfig := do
  let s ← get
  match ConfigManager.getConfigForDir env.disk s.mgr (some config.configFile) config.rootDir relPath
      config.devMode with
  | none => throw .panic
  | some (merged, mgr) => do
      set { s with mgr }
      return merged

/-- A directory without its slash is redirected; one without an index file is listed, if that is
wanted. -/
def directoryReply (tree : FileTree) (config : ServerConfig) (merged : DirectoryConfig) (path : Str)
    (relPath : List Str) : Except Exit (Option HttpResponse) :=
  if openBeneathDirectory tree relPath then
    if path.getLast? ≠ some '/' ∧ path ≠ [] then
      .ok (some (redirection merged .movedPermanently (path ++ ['/'])))
    else
      match firstFound (fun index => openBeneath tree (pushName relPath index))
          (configuredIndexes merged) with
      | none => .error .unending
      | some found =>
        if found = none ∧ merged.autoindex = some true then
          .ok (some (withRuleHeaders merged ((HttpResponse.new .ok).withBody
            (renderDirectoryListing tree relPath (denyHidden config merged))
              "text/html; charset=utf-8")))
        else .ok none
  else .ok none

/-- `handle_request_inner`, up to the opening of a file. -/
def locate (env : HandlerEnv) (config : ServerConfig) (req : HttpRequest) (peer : Option IpAddr) :
    HandlerM Target := do
  replyIf (metricsReply req env)
  replyIf (methodReply req)
  match requestPaths req with
  | .error response => throw (.reply response)
  | .ok (path, relPath) => do
      let merged ← mergedConfig env config relPath
      replyIf (methodRuleReply req merged)
      replyIf (hiddenReply config merged relPath)
      replyIf (addressReply merged peer)
      replyIf (redirectReply merged path)
      let tree := documentTree env config
      -- the root must have a canonical path
      replyIf (if (tree.lookup []).isSome then none
        else some (plain .internalServerError "500 Internal Server Error"))
      replyIf (← MonadExcept.ofExcept (directoryReply tree config merged path relPath))
      return { merged, openPath := openPath merged relPath, indexes := configuredIndexes merged }

/-! ## The response -/

/-- The file is opened for the body of the response. -/
def noteOpened (file : OpenedFile) : HandlerM Unit :=
  modify fun s => { s with opened := s.opened ++ [file.path] }

def lastName (file : OpenedFile) : Str := file.path.getLast?.getD []

/-- The page that is configured for a missing file. -/
def errorPagePath (merged : DirectoryConfig) : Option Str :=
  ((merged.errorPages.find? fun page => page.1 = 404).map Prod.snd).or merged.redirect404

def handle404 (tree : FileTree) (merged : DirectoryConfig) : HandlerM HttpResponse :=
  let missing := plain .notFound "404 Not Found"
  match errorPagePath merged with
  | none => return missing
  | some path =>
    match normalizeRelativePath path with
    | .error _ => return missing
    | .ok relative =>
      if isProtectedRulePath relative then return missing
      else match openBeneath tree relative with
        | none => throw .unending
        | some none => return missing
        | some (some file) => do
            noteOpened file
            if file.content.length ≤ maxErrorPageBytes then
              return (HttpResponse.new .notFound).withBody file.content
                (getMimeType (lastName file))
            else return missing

def mimeTypeOf (merged : DirectoryConfig) (file : OpenedFile) : String :=
  match merged.mimeTypes.find? fun entry =>
      (extension (lastName file)).map ('.' :: ·) = some entry.1 with
  | some entry => String.ofList entry.2
  | none => getMimeType (lastName file)

def mtimeSecs (file : OpenedFile) : ℕ := file.modified.getD 0 / 1000000000

def isNotModified (req : HttpRequest) (etag : Str) (mtimeSecs : ℕ) : Bool :=
  match req.getHeader "If-None-Match" with
  | some value =>
    let clientEtag := trim value
    clientEtag = "*".toList || clientEtag = etag || (findSub etag clientEtag).isSome
  | none =>
    match req.getHeader "If-Modified-Since" with
    | none => false
    | some value =>
      match parseHttpDate (trim value) with
      | none => false
      | some time => mtimeSecs ≤ time.toNat

def withTag (response : HttpResponse) (etag lastModified : Str) : HttpResponse :=
  (response.withHeader "ETag".toList etag).withHeader "Last-Modified".toList lastModified

def acceptRanges (response : HttpResponse) : HttpResponse :=
  response.withHeader "Accept-Ranges".toList "bytes".toList

/-- The response of a file before the rules and the encoding. -/
def fileResponse (req : HttpRequest) (merged : DirectoryConfig) (file : OpenedFile) : HttpResponse :=
  let mimeType := mimeTypeOf merged file
  let fileSize := file.content.length
  let etag := generateEtag (mtimeSecs file) fileSize
  let lastModified := formatHttpDate (mtimeSecs file)
  let whole := (acceptRanges (withTag (.new .ok) etag lastModified)).withFile file.content fileSize
    mimeType
  if isNotModified req etag (mtimeSecs file) then withTag (.new .notModified) etag lastModified
  else match req.method, req.getHeader "Range" with
    | .get, some value =>
      match parseRangeHeader (trim value) fileSize with
      | .ok (some range) =>
        (acceptRanges ((withTag (.new .partialContent) etag lastModified).withHeader
          "Content-Range".toList ("bytes ".toList ++ decimal range.start ++ '-' ::
            decimal range.stop ++ '/' :: decimal fileSize))).withFileRange file.content
              range.start (range.stop - range.start + 1) mimeType
      | .error _ =>
        ((HttpResponse.new .rangeNotSatisfiable).withHeader "Content-Range".toList
          ("bytes */".toList ++ decimal fileSize)).withBody
            (utf8 "416 Range Not Satisfiable".toList) "text/plain; charset=utf-8"
      | .ok none => whole
    | .head, _ =>
      acceptRanges (withTag (((HttpResponse.new .ok).withHeader "Content-Length".toList
        (decimal fileSize)).withHeader "Content-Type".toList mimeType.toList) etag lastModified)
    | _, _ => whole

/-- The headers for caches.  A time of expiry that the clock cannot represent is a panic. -/
def withCaching (env : HandlerEnv) (merged : DirectoryConfig) (response : HttpResponse) :
    Except Exit HttpResponse :=
  let response := match merged.cache with
    | some true => response.withHeader "Cache-Control".toList "public".toList
    | some false => response.withHeader "Cache-Control".toList "no-store".toList
    | none => response
  match merged.expires with
  | none => .ok response
  | some seconds =>
    if 2 ^ 63 ≤ env.now + seconds then .error .panic
    else .ok (response.withHeader "Expires".toList (formatHttpDate (env.now + seconds)))

def negotiable (config : ServerConfig) (req : HttpRequest) (response : HttpResponse) : Bool :=
  req.method = .get && response.status = .ok && config.compressionMinSize ≤ response.bodyLen &&
    responseMimeIsCompressible response config.compressionMimeTypes

/-- A whole file may be sent compressed. -/
def compressed (config : ServerConfig) (response : HttpResponse) : HttpResponse :=
  match response.bodySource with
  | .file content size =>
    { response with
      headers := varyEtagForEncoding (removeHeader response.headers "Content-Length") "gzip" ++
        [("Content-Encoding".toList, "gzip".toList)]
      bodySource := .gzipFile content size config.compressionLevel }
  | _ => response

def negotiate (env : HandlerEnv) (config : ServerConfig) (req : HttpRequest)
    (response : HttpResponse) : HttpResponse :=
  if negotiable config req response then
    let encodings := req.getHeader "Accept-Encoding"
    let response := if encodings.isSome then
        { response with headers := ensureVaryAcceptEncoding response.headers }
      else response
    if config.compressionEnabled && acceptsGzip env.qPositive encodings then
      compressed config response
    else response
  else response

/-- A response to `HEAD` has no body. -/
def stripBody (req : HttpRequest) (response : HttpResponse) : HttpResponse :=
  if req.method = .head then { response with bodySource := .bytes [] } else response

/-- `handle_request_inner`, from the opening of a file on. -/
def serve (env : HandlerEnv) (config : ServerConfig) (req : HttpRequest) (target : Target) :
    HandlerM HttpResponse :=
  let tree := documentTree env config
  match openBeneathWithIndex tree target.openPath target.indexes with
  | none => throw .unending
  | some none => do
      let response ← handle404 tree target.merged
      return withRuleHeaders target.merged response
  | some (some file) => do
      noteOpened file
      let response := withRuleHeaders target.merged (fileResponse req target.merged file)
      let response ← MonadExcept.ofExcept (withCaching env target.merged response)
      return stripBody req (negotiate env config req response)

/-- The request is admitted and gets as far as a path to be opened. -/
def findTarget (env : HandlerEnv) (config : ServerConfig) (req : HttpRequest)
    (peer : Option IpAddr) : HandlerM Target := do
  admitPeer env config peer
  locate env (effectiveConfig config req) req peer

/-- `RequestHandler::handle_request`. -/
def handleRequest (env : HandlerEnv) (config : ServerConfig) (req : HttpRequest)
    (peer : Option IpAddr) : HandlerM HttpResponse := do
  let response ← returned do
    let target ← findTarget env config req peer
    serve env (effectiveConfig config req) req target
  return applySecurityHeaders response config

/-! ## What the stages do -/

section Rules

variable {s : HandlerState} {E : Exit → HandlerState → Prop}

@[simp] lemma wp_replyIf {response : Option HttpResponse} {Q : Unit → HandlerState → Prop} :
    wp (replyIf response) s Q E ↔
      (∀ r, response = some r → E (.reply r) s) ∧ (response = none → Q () s) := by
  cases response with
  | none => simp [replyIf]
  | some r => simp [replyIf]

/-- An early return counts as a return. -/
lemma wp_returned {x : HandlerM HttpResponse} {Q : HttpResponse → HandlerState → Prop}
    (h : wp x s Q fun e t => match e with
      | .reply response => Q response t
      | e => E e t) : wp (returned x) s Q E := by
  unfold wp EStateM.run at h ⊢
  rw [returned]
  cases hx : x s with
  | ok a t => rw [hx] at h; exact h
  | error e t =>
    rw [hx] at h
    cases e with
    | reply response => exact h
    | panic => exact h
    | unending => exact h

lemma wp_admit {env : HandlerEnv} {config : ServerConfig} {peer : Option IpAddr}
    {Q : Unit → HandlerState → Prop} (ha : ∀ limiter, Q () { s with limiter })
    (hl : ∀ limiter, E (.reply tooManyRequests) { s with limiter }) :
    wp (admitPeer env config peer) s Q E := by
  cases peer with
  | none => exact ha s.limiter
  | some ip =>
    simp only [admitPeer, wp_bind, wp_replyIf]
    refine ⟨fun r hr => ?_, fun _ => ha _⟩
    split_ifs at hr
    cases hr
    exact hl _

end Rules

/-- The responses a call can end with before a file is looked for. -/
inductive EarlyReply (env : HandlerEnv) (config : ServerConfig) (req : HttpRequest)
    (peer : Option IpAddr) : HttpResponse → Prop
  | limited : EarlyReply env config req peer tooManyRequests
  | metrics {r : HttpResponse} : metricsReply req env = some r → EarlyReply env config req peer r
  | method {r : HttpResponse} : methodReply req = some r → EarlyReply env config req peer r
  | path {r : HttpResponse} : requestPaths req = .error r → EarlyReply env config req peer r
  | methodRule {merged : DirectoryConfig} {r : HttpResponse} :
      methodRuleReply req merged = some r → EarlyReply env config req peer r
  | hidden {merged : DirectoryConfig} {relPath : List Str} {r : HttpResponse} :
      hiddenReply config merged relPath = some r → EarlyReply env config req peer r
  | address {merged : DirectoryConfig} {r : HttpResponse} :
      addressReply merged peer = some r → EarlyReply env config req peer r
  | redirect {merged : DirectoryConfig} {path : Str} {r : HttpResponse} :
      redirectReply merged path = some r → EarlyReply env config req peer r
  | noRoot : EarlyReply env config req peer (plain .internalServerError "500 Internal Server Error")
  | directory {tree : FileTree} {merged : DirectoryConfig} {path : Str} {relPath : List Str}
      {r : HttpResponse} : directoryReply tree config merged path relPath = .ok (some r) →
      EarlyReply env config req peer r

section Stages

variable {env : HandlerEnv} {config : ServerConfig} {req : HttpRequest} {peer : Option IpAddr}
  {s : HandlerState} {Q : Target → HandlerState → Prop} {E : Exit → HandlerState → Prop}

/-- A directory that cannot be looked through is no response. -/
lemma ne_reply_of_directoryReply {tree : FileTree} {merged : DirectoryConfig} {path : Str}
    {relPath : List Str} {e : Exit}
    (h : directoryReply tree config merged path relPath = .error e) : ∀ r, e ≠ .reply r := by
  rintro r rfl
  rw [directoryReply] at h
  split_ifs at h
  split at h
  · cases h
  · split_ifs at h

/-- **What `locate` can do**: end early, or come to a target with the rules for the path. -/
lemma wp_locate
    (hea : ∀ mgr r, EarlyReply env config req peer r → E (.reply r) { s with mgr })
    (ho : ∀ mgr e, (∀ r, e ≠ .reply r) → E e { s with mgr })
    (ht : ∀ {path relPath merged mgr}, requestPaths req = .ok (path, relPath) →
      ConfigManager.getConfigForDir env.disk s.mgr (some config.configFile) config.rootDir relPath
        config.devMode = some (merged, mgr) →
      Q ⟨merged, openPath merged relPath, configuredIndexes merged⟩ { s with mgr }) :
    wp (locate env config req peer) s Q E := by
  simp only [locate, wp_bind, wp_replyIf]
  refine ⟨fun r hr => hea s.mgr r (.metrics hr), fun _ =>
    ⟨fun r hr => hea s.mgr r (.method hr), fun _ => ?_⟩⟩
  cases hp : requestPaths req with
  | error r => exact hea s.mgr r (.path hp)
  | ok paths =>
    obtain ⟨path, relPath⟩ := paths
    simp only [wp_bind, mergedConfig, wp_get]
    cases hm : ConfigManager.getConfigForDir env.disk s.mgr (some config.configFile)
        config.rootDir relPath config.devMode with
    | none => exact ho s.mgr .panic (by simp)
    | some found =>
      obtain ⟨merged, mgr⟩ := found
      simp only [wp_replyIf]
      refine ⟨fun r hr => hea mgr r (.methodRule hr), fun _ =>
        ⟨fun r hr => hea mgr r (.hidden hr), fun _ =>
          ⟨fun r hr => hea mgr r (.address hr), fun _ =>
            ⟨fun r hr => hea mgr r (.redirect hr), fun _ => ⟨fun r hr => ?_, fun _ => ?_⟩⟩⟩⟩⟩
      · split_ifs at hr
        cases hr
        exact hea mgr _ .noRoot
      · refine wp_ofExcept (fun reply hre => ?_) fun e he => ho mgr e ?_
        · exact ⟨fun r hr => hea mgr r (.directory (hr ▸ hre)),
            fun _ => ht hp hm⟩
        · exact ne_reply_of_directoryReply he

end Stages

end Handler

end Veysrs
