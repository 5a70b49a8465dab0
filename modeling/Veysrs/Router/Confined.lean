import Veysrs.Router.Answers

/-!
# Confinement to the document root

Nothing outside of the document root is opened because a name that is passed to `openat` leads one
level down and nowhere else.

**Normalising.**  `normalize_relative_path` resolves the components of a path
(`normalizeRelativePath_eq`), so the path it returns is made of the names that no `..` takes back,
and it fails where a `..` would climb out of the root.

**Opening.**  The names that `open_beneath_directory` and `open_beneath_with_index` pass to `openat`
are the normal components of the path and of the index names pushed onto it (`openatNames`,
`namesWithin`), each of them a single component (`simple_namesWithin`).  `requestNames` collects
them over a whole request.
-/

namespace Veysrs

open Core List

/-! ## Normalising -/

/-- What `normalize_relative_path` returns for the names that are left. -/
def orEscaped (names : Option (List Str)) : Except String (List Str) :=
  names.elim (.error "Path traversal escaped root directory") .ok

lemma pushComponent_none {part : Str} (h : componentOf part = none) (normalized : List Str) :
    pushComponent normalized part = .ok normalized := by
  rw [componentOf] at h
  split_ifs at h with hs
  rw [pushComponent, if_pos hs]

lemma pushComponent_some {part : Str} {c : Component} (h : componentOf part = some c)
    (normalized : List Str) :
    pushComponent normalized part = orEscaped (resolveStep normalized c) := by
  rw [componentOf] at h
  rw [pushComponent]
  split_ifs at h with hs hp
  · cases h
    rw [resolveStep]
    split_ifs <;> rfl
  · cases h
    rw [if_neg hs, if_neg hp]
    rfl

lemma foldlM_pushComponent_eq (parts : List Str) : ∀ normalized,
    parts.foldlM pushComponent normalized =
      orEscaped ((parts.filterMap componentOf).foldlM resolveStep normalized) := by
  induction parts with
  | nil => intro normalized; rfl
  | cons part parts ih =>
    intro normalized
    rw [foldlM_cons]
    cases hp : componentOf part with
    | none =>
      rw [pushComponent_none hp, filterMap_cons_none hp]
      exact ih normalized
    | some c =>
      rw [pushComponent_some hp, filterMap_cons_some hp, foldlM_cons]
      cases hs : resolveStep normalized c with
      | none => rfl
      | some next => exact ih next

/-- A root or a `.` at the start is passed over. -/
lemma foldlM_leadingComponent (path : Str) :
    (leadingComponent path).foldlM resolveStep [] = some [] := by
  rw [leadingComponent]
  split_ifs <;> rfl

/-- **The normalised path is what the components resolve to.** -/
lemma normalizeRelativePath_eq (uri : Str) :
    normalizeRelativePath uri = orEscaped (resolve (components uri)) := by
  rw [normalizeRelativePath, foldlM_pushComponent_eq, resolve, components, foldlM_append,
    foldlM_leadingComponent]
  rfl

variable {names path : List Str} {uri : Str} {tree : FileTree}

lemma normalizeRelativePath_eq_ok_iff :
    normalizeRelativePath uri = .ok names ↔ Leaves (components uri) names := by
  rw [normalizeRelativePath_eq, ← resolve_eq_some_iff]
  cases resolve (components uri) with
  | none => simp [orEscaped]
  | some left => simp [orEscaped]

lemma normalizeRelativePath_eq_error_iff :
    (∃ e, normalizeRelativePath uri = .error e) ↔ Climbs (components uri) := by
  rw [normalizeRelativePath_eq, ← resolve_eq_none_iff]
  cases resolve (components uri) with
  | none => simp [orEscaped]
  | some left => simp [orEscaped]

lemma simple_of_normalizeRelativePath (h : normalizeRelativePath uri = .ok names) :
    ∀ name ∈ names, SimpleName name := by
  intro name hn
  exact simpleName_of_mem_components ((normalizeRelativePath_eq_ok_iff.mp h).mem name hn)

/-- The components of a normalised path, as a text, are its names. -/
lemma components_normalized (h : normalizeRelativePath uri = .ok names) :
    components (beneath [] names) = names.map .normal := by
  rw [components_beneath [] (simple_of_normalizeRelativePath h)]
  rfl

/-- A normalised path is normalised to itself. -/
lemma normalizeRelativePath_normalized (h : normalizeRelativePath uri = .ok names) :
    normalizeRelativePath (beneath [] names) = .ok names := by
  rw [normalizeRelativePath_eq, components_normalized h, resolve_names]
  rfl

/-! ## Names that are passed to `openat` -/

/-- The names passed to `openat` from a directory on.  A name with a NUL is refused before the call,
and the next name is reached through a directory that was opened. -/
def openatNames (tree : FileTree) : List Str → List Str → List Str
  | _, [] => []
  | dir, name :: rest =>
    if '\x00' ∈ name then []
    else name :: if openat tree (dir ++ [name]) = some .dir then
        openatNames tree (dir ++ [name]) rest
      else []

/-- The names of a call that opens the root and goes down from there. -/
def namesFromRoot (tree : FileTree) (path : List Str) : List Str :=
  if (openat tree []).isSome then openatNames tree [] path else []

/-- The names of a loop that returns with the first element for which something is found. -/
def namesUntilFound {α β : Type} (find : α → Option (Option β)) (names : α → List Str) :
    List α → List Str
  | [] => []
  | a :: rest =>
    names a ++ match find a with
      | some none => namesUntilFound find names rest
      | _ => []

/-- The names of `open_beneath_with_index`, with the fuel of `openWithin`. -/
def namesWithin (tree : FileTree) (indexes : List Str) : ℕ → List Str → List Str
  | 0, _ => []
  | fuel + 1, path =>
    if path = [] then []
    else namesFromRoot tree path ++
      if openat tree path = some .dir then
        namesUntilFound (fun index => openWithin tree indexes fuel (pushName path index))
          (fun index => namesWithin tree indexes fuel (pushName path index)) indexes
      else []

def openBeneathWithIndexNames (tree : FileTree) (path indexes : List Str) : List Str :=
  namesWithin tree indexes (tree.height + 1) path

def openBeneathNames (tree : FileTree) (path : List Str) : List Str :=
  openBeneathWithIndexNames tree path ["index.html".toList]

def openBeneathDirectoryNames (tree : FileTree) (path : List Str) : List Str :=
  namesFromRoot tree path

lemma mem_of_mem_openatNames {name : Str} :
    ∀ {dir : List Str}, name ∈ openatNames tree dir path → name ∈ path := by
  induction path with
  | nil => intro dir h; exact h
  | cons first rest ih =>
    intro dir h
    rw [openatNames] at h
    split_ifs at h with hn ho
    · cases h
    · rcases mem_cons.mp h with rfl | h
      · exact mem_cons_self
      · exact mem_cons_of_mem first (ih h)
    · rw [mem_singleton.mp h]
      exact mem_cons_self

lemma mem_of_mem_namesFromRoot {name : Str} (h : name ∈ namesFromRoot tree path) : name ∈ path := by
  rw [namesFromRoot] at h
  split_ifs at h
  · exact mem_of_mem_openatNames h
  · cases h

lemma exists_of_mem_namesUntilFound {α β : Type} {find : α → Option (Option β)}
    {names : α → List Str} {name : Str} {xs : List α} (h : name ∈ namesUntilFound find names xs) :
    ∃ x ∈ xs, name ∈ names x := by
  induction xs with
  | nil => cases h
  | cons x xs ih =>
    rcases mem_append.mp h with h | h
    · exact ⟨x, mem_cons_self, h⟩
    · split at h
      · obtain ⟨y, hy, hn⟩ := ih h
        exact ⟨y, mem_cons_of_mem x hy, hn⟩
      · cases h

lemma simple_normalNames {path name : Str} (h : name ∈ normalNames path) : SimpleName name := by
  obtain ⟨c, hc, hn⟩ := mem_filterMap.mp h
  cases c with
  | rootDir => cases hn
  | curDir => cases hn
  | parentDir => cases hn
  | normal other =>
    cases hn
    exact simpleName_of_mem_components hc

/-- Whatever is pushed, only its normal components count. -/
lemma simple_pushName (h : ∀ name ∈ path, SimpleName name) (index : Str) :
    ∀ name ∈ pushName path index, SimpleName name := by
  intro name hn
  rw [pushName] at hn
  split_ifs at hn
  · exact simple_normalNames hn
  · rcases mem_append.mp hn with hn | hn
    · exact h name hn
    · exact simple_normalNames hn

/-- **Every name on the way to a file or an index is a single component**, as the names of the path
are; the index names may be any texts. -/
lemma simple_namesWithin {indexes : List Str} {fuel : ℕ} :
    ∀ {path : List Str}, (∀ name ∈ path, SimpleName name) →
      ∀ name ∈ namesWithin tree indexes fuel path, SimpleName name := by
  induction fuel with
  | zero =>
    intro path _ name hn
    cases hn
  | succ fuel ih =>
    intro path hp name hn
    rw [namesWithin] at hn
    split_ifs at hn with hem hd
    · cases hn
    · rcases mem_append.mp hn with hn | hn
      · exact hp name (mem_of_mem_namesFromRoot hn)
      · obtain ⟨index, -, hi⟩ := exists_of_mem_namesUntilFound hn
        exact ih (simple_pushName hp index) name hi
    · rw [append_nil] at hn
      exact hp name (mem_of_mem_namesFromRoot hn)

namespace Handler

/-! ## A request -/

/-- `handle_request_inner`, up to the canonical path of the root. -/
def checks (env : HandlerEnv) (config : ServerConfig) (req : HttpRequest) (peer : Option IpAddr) :
    HandlerM (Str × List Str × DirectoryConfig) := do
  replyIf (metricsReply req env)
  replyIf (methodReply req)
  match requestPaths req with
  | .error response => throw (.reply response)
  | .ok (path, relPath) => do
      let merged ← mergedConfig env config relPath
      replyIf (methodRuleReply req merged)
      replyIf (hiddenReply config merged relPath)
      replyIf (addressReply merged peer)
      replyIf (redirectReply merged path)
      replyIf (if ((documentTree env config).lookup []).isSome then none
        else some (plain .internalServerError "500 Internal Server Error"))
      return (path, relPath, merged)

/-- What the checks let through goes on with the directory. -/
lemma locate_eq (env : HandlerEnv) (config : ServerConfig) (req : HttpRequest)
    (peer : Option IpAddr) :
    locate env config req peer = (do
      let (path, relPath, merged) ← checks env config req peer
      replyIf (← MonadExcept.ofExcept
        (directoryReply (documentTree env config) config merged path relPath))
      return { merged, openPath := openPath merged relPath, indexes := configuredIndexes merged }) := by
  rw [locate, checks]
  simp only [bind_assoc]
  cases requestPaths req with
  | error response => rfl
  | ok paths =>
    simp only [bind_assoc, pure_bind]

/-- The names passed to `openat` for a directory. -/
def directoryNames (tree : FileTree) (merged : DirectoryConfig) (path : Str) (relPath : List Str) :
    List Str :=
  openBeneathDirectoryNames tree relPath ++
    if openBeneathDirectory tree relPath ∧ ¬(path.getLast? ≠ some '/' ∧ path ≠ []) then
      namesUntilFound (fun index => openBeneath tree (pushName relPath index))
        (fun index => openBeneathNames tree (pushName relPath index)) (configuredIndexes merged)
    else []

/-- The names of the page for a missing file. -/
def handle404Names (tree : FileTree) (merged : DirectoryConfig) : List Str :=
  match errorPagePath merged with
  | none => []
  | some path =>
    match normalizeRelativePath path with
    | .error _ => []
    | .ok relative => if isProtectedRulePath relative then [] else openBeneathNames tree relative

def serveNames (tree : FileTree) (target : Target) : List Str :=
  openBeneathWithIndexNames tree target.openPath target.indexes ++
    if openBeneathWithIndex tree target.openPath target.indexes = some none then
      handle404Names tree target.merged
    else []

/-- All names that are passed to `openat` for a request. -/
def requestNames (env : HandlerEnv) (config : ServerConfig) (req : HttpRequest)
    (peer : Option IpAddr) (s : HandlerState) : List Str :=
  let config' := effectiveConfig config req
  let tree := documentTree env config'
  match (admitPeer env config peer >>= fun _ => checks env config' req peer).run s with
  | .error _ _ => []
  | .ok (path, relPath, merged) _ =>
    directoryNames tree merged path relPath ++
      match directoryReply tree config' merged path relPath with
      | .ok none => serveNames tree ⟨merged, openPath merged relPath, configuredIndexes merged⟩
      | _ => []

section Request

variable {env : HandlerEnv} {config : ServerConfig} {req : HttpRequest} {peer : Option IpAddr}
  {s t : HandlerState} {path : Str} {relPath : List Str} {merged : DirectoryConfig}

/-- The paths are the decoded URI up to its delimiters, and what it is normalised to. -/
lemma paths_of_requestPaths (h : requestPaths req = .ok (path, relPath)) :
    ∃ decodedUri, percentDecodeRecursive req.uri = some decodedUri ∧ path = cleanPath decodedUri ∧
      normalizeRelativePath path = .ok relPath := by
  rw [requestPaths] at h
  cases hd : percentDecodeRecursive req.uri with
  | none => rw [hd] at h; cases h
  | some decodedUri =>
    simp only [hd] at h
    cases hn : normalizeRelativePath (cleanPath decodedUri) with
    | error e => rw [hn] at h; cases h
    | ok names =>
      simp only [hn] at h
      split_ifs at h
      cases h
      exact ⟨decodedUri, rfl, rfl, hn⟩

/-! ### What the checks let through -/

variable {r : HttpResponse}

lemma status_methodReply (h : methodReply req = some r) : r.status ≠ .ok := by
  rw [methodReply] at h
  cases hm : req.method with
  | get => rw [hm] at h; cases h
  | head => rw [hm] at h; cases h
  | post =>
    rw [hm] at h
    cases h
    exact StatusCode.noConfusion
  | other name =>
    rw [hm] at h
    cases h
    exact StatusCode.noConfusion

lemma status_requestPaths (h : requestPaths req = .error r) : r.status ≠ .ok := by
  rw [requestPaths] at h
  cases hd : percentDecodeRecursive req.uri with
  | none =>
    rw [hd] at h
    cases h
    exact StatusCode.noConfusion
  | some decodedUri =>
    simp only [hd] at h
    cases hn : normalizeRelativePath (cleanPath decodedUri) with
    | error e =>
      rw [hn] at h
      cases h
      exact StatusCode.noConfusion
    | ok names =>
      simp only [hn] at h
      split_ifs at h
      cases h
      exact StatusCode.noConfusion

lemma status_methodRuleReply (h : methodRuleReply req merged = some r) : r.status ≠ .ok := by
  rw [methodRuleReply] at h
  cases hm : merged.methods with
  | none => rw [hm] at h; cases h
  | some methods =>
    simp only [hm] at h
    split_ifs at h
    cases h
    exact StatusCode.noConfusion

lemma status_redirection {status : StatusCode} {location : Str} :
    (redirection merged status location).status = status := status_withRuleHeaders _ _

lemma status_redirectReply (h : redirectReply merged path = some r) : r.status ≠ .ok := by
  rw [redirectReply] at h
  cases hr : merged.redirect with
  | none => rw [hr] at h; cases h
  | some rule =>
    simp only [hr] at h
    split_ifs at h
    · cases h
      rw [status_redirection]
      exact StatusCode.noConfusion
    · cases h
      rw [status_redirection]
      exact StatusCode.noConfusion

/-- **What the checks can do**: end early, with a page only if it is that of the metrics, or let the
path through with its rules. -/
lemma wp_checks {Q : Str × List Str × DirectoryConfig → HandlerState → Prop}
    {E : Exit → HandlerState → Prop}
    (hre : ∀ u r, metricsReply req env = some r ∨ r.status ≠ .ok → E (.reply r) u)
    (ho : ∀ u e, (∀ r, e ≠ .reply r) → E e u)
    (hpa : ∀ {path relPath merged mgr u}, requestPaths req = .ok (path, relPath) →
      ConfigManager.getConfigForDir env.disk s.mgr (some config.configFile) config.rootDir relPath
        config.devMode = some (merged, mgr) → Q (path, relPath, merged) u) :
    wp (checks env config req peer) s Q E := by
  simp only [checks, wp_bind, wp_replyIf]
  refine ⟨fun r hr => hre _ r (.inl hr), fun _ =>
    ⟨fun r hr => hre _ r (.inr (status_methodReply hr)), fun _ => ?_⟩⟩
  cases hp : requestPaths req with
  | error r => exact hre _ r (.inr (status_requestPaths hp))
  | ok paths =>
    simp only [wp_bind, mergedConfig, wp_get]
    cases hm : ConfigManager.getConfigForDir env.disk s.mgr (some config.configFile)
        config.rootDir paths.2 config.devMode with
    | none => exact ho _ .panic (by simp)
    | some found =>
      simp only [wp_replyIf]
      refine ⟨fun r hr => hre _ r (.inr (status_methodRuleReply hr)), fun _ =>
        ⟨fun r hr => hre _ r (.inr ?_), fun _ => ⟨fun r hr => hre _ r (.inr ?_), fun _ =>
          ⟨fun r hr => hre _ r (.inr ?_), fun _ =>
            ⟨fun r hr => hre _ r (.inr ?_), fun _ => hpa hp hm⟩⟩⟩⟩⟩
      · rw [hiddenReply] at hr
        split_ifs at hr
        cases hr
        rw [status_withRuleHeaders]
        exact StatusCode.noConfusion
      · rw [addressReply] at hr
        split_ifs at hr
        cases hr
        rw [status_withRuleHeaders]
        exact StatusCode.noConfusion
      · exact status_redirectReply hr
      · split_ifs at hr
        cases hr
        exact StatusCode.noConfusion

lemma requestPaths_of_checks
    (h : (checks env config req peer).run s = .ok (path, relPath, merged) t) :
    requestPaths req = .ok (path, relPath) :=
  wp_ok (Q := fun found _ => requestPaths req = .ok (found.1, found.2.1)) (E := fun _ _ => True)
    (wp_checks (fun _ _ _ => trivial) (fun _ _ _ => trivial) fun hp _ => hp) h

/-- The path to be opened is made of simple names. -/
lemma simple_openPath (hr : ∀ name ∈ relPath, SimpleName name) :
    ∀ name ∈ openPath merged relPath, SimpleName name := by
  intro name hn
  rw [openPath] at hn
  split_ifs at hn
  · exact simple_normalNames hn
  · exact hr name hn

lemma simple_directoryNames (hr : ∀ name ∈ relPath, SimpleName name) :
    ∀ name ∈ directoryNames tree merged path relPath, SimpleName name := by
  intro name hn
  rcases mem_append.mp hn with hn | hn
  · exact hr name (mem_of_mem_namesFromRoot hn)
  · split_ifs at hn
    · obtain ⟨index, -, hi⟩ := exists_of_mem_namesUntilFound hn
      exact simple_namesWithin (simple_pushName hr index) name hi
    · cases hn

lemma simple_handle404Names : ∀ name ∈ handle404Names tree merged, SimpleName name := by
  intro name hn
  rw [handle404Names] at hn
  cases hp : errorPagePath merged with
  | none => rw [hp] at hn; cases hn
  | some page =>
    simp only [hp] at hn
    cases hno : normalizeRelativePath page with
    | error e => rw [hno] at hn; cases hn
    | ok relative =>
      simp only [hno] at hn
      split_ifs at hn
      · cases hn
      · exact simple_namesWithin (simple_of_normalizeRelativePath hno) name hn

lemma simple_serveNames {target : Target} (hp : ∀ name ∈ target.openPath, SimpleName name) :
    ∀ name ∈ serveNames tree target, SimpleName name := by
  intro name hn
  rcases mem_append.mp hn with hn | hn
  · exact simple_namesWithin hp name hn
  · split_ifs at hn
    · exact simple_handle404Names name hn
    · cases hn

/-- Every name of a request is a single component. -/
lemma simple_requestNames : ∀ name ∈ requestNames env config req peer s, SimpleName name := by
  intro name hn
  rw [requestNames] at hn
  cases hr : (admitPeer env config peer >>= fun _ =>
      checks env (effectiveConfig config req) req peer).run s with
  | error e t =>
    simp only [hr] at hn
    cases hn
  | ok found t =>
    simp only [hr] at hn
    obtain ⟨_, _, -, hc⟩ := run_bind_eq_ok.mp hr
    obtain ⟨-, -, -, hno⟩ := paths_of_requestPaths (requestPaths_of_checks hc)
    have hrel := simple_of_normalizeRelativePath hno
    rcases mem_append.mp hn with hn | hn
    · exact simple_directoryNames hrel name hn
    · split at hn
      · exact simple_serveNames (simple_openPath hrel) name hn
      · cases hn

end Request

/-- **Paths stay beneath the root.**  A path is refused exactly if a `..` in it has no name to take
back; otherwise the names that are left are returned, which are the components of the path they make
and are normalised to themselves.  Every name passed to `openat` is a single component, for any path
and index names a file is looked for with, and so over a whole request. -/
theorem path_confined :
    (∀ uri, ((∃ e, normalizeRelativePath uri = .error e) ↔ Climbs (components uri)) ∧
      ∀ names, normalizeRelativePath uri = .ok names ↔ Leaves (components uri) names) ∧
    (∀ uri names, normalizeRelativePath uri = .ok names →
      (∀ name ∈ names, SimpleName name) ∧ components (beneath [] names) = names.map .normal ∧
        normalizeRelativePath (beneath [] names) = .ok names) ∧
    (∀ tree (relative : Str) indexes fuel, ∀ name ∈ openBeneathDirectoryNames tree
      (normalNames relative) ++ namesWithin tree indexes fuel (normalNames relative),
        SimpleName name) ∧
    ∀ env config req peer s, ∀ name ∈ requestNames env config req peer s, SimpleName name := by
  refine ⟨fun uri => ⟨normalizeRelativePath_eq_error_iff, fun names =>
    normalizeRelativePath_eq_ok_iff⟩, fun uri names h => ⟨simple_of_normalizeRelativePath h,
      components_normalized h, normalizeRelativePath_normalized h⟩, ?_, ?_⟩
  · intro tree relative indexes fuel name hname
    rcases mem_append.mp hname with hname | hname
    · exact simple_normalNames (mem_of_mem_namesFromRoot hname)
    · exact simple_namesWithin (fun _ => simple_normalNames) name hname
  · exact fun _ _ _ _ _ => simple_requestNames

end Handler

end Veysrs
