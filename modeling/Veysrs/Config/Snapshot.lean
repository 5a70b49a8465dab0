import Veysrs.Config.Manager
import Veysrs.Core.Runs

/-!
# The published rules

`clear_cache` and `preload_tree` publish the rules of a tree; requests then read the cache.  A
request looks at the file before it looks at the cache, and the cache has no entry for a file from
which no rules could be had.

**Publication.**  Afterwards every rule file is in the cache or has no rules to be had, unless it is
the root rule file under its other name, which the walk leaves out (`settled_publish`).

**Requests.**  While that is so, a request changes nothing, and what it is given depends only on
which of the published files can still be read (`getConfigForDir_of_settled`).

**Changes.**  So the snapshot holds as long as a change takes no published file away and brings none
with rules that was not published (`Harmless`); `snapshot_immutable` is this for whole runs.
-/

namespace Veysrs

open Core List

namespace ConfigManager

/-- The entry requests are answered from. -/
def published (mgr : ConfigManager) (key : List Component) : Option DirectoryConfig :=
  mgr.cached key false none

lemma cached_eq_published (mgr : ConfigManager) (key : List Component) (mtime : Option ℕ) :
    mgr.cached key false mtime = mgr.published key := by
  simp only [published, cached, cachedFor, true_or]

/-- `clear_cache` and `preload_tree`, as a reload runs them. -/
def publish (disk : Disk) (mgr : ConfigManager) (rootConfigFile : Option Str) (rootDir : Str) :
    Option ConfigManager :=
  preloadTree disk mgr.clearCache rootConfigFile rootDir

/-! ## Growing -/

/-- What was published stays published. -/
structure Grows (mgr mgr' : ConfigManager) : Prop where
  retains : ∀ key config, mgr.published key = some config → mgr'.published key = some config

lemma Grows.refl (mgr : ConfigManager) : Grows mgr mgr := ⟨fun _ _ h => h⟩

lemma Grows.trans {mgr mgr' mgr'' : ConfigManager} (h : Grows mgr mgr') (h' : Grows mgr' mgr'') :
    Grows mgr mgr'' := ⟨fun key config hk => h'.retains key config (h.retains key config hk)⟩

/-- A load publishes the rules that can be had, and takes nothing away. -/
lemma grows_lookupOrParse {mgr mgr' : ConfigManager} {key : List Component} {mtime : Option ℕ}
    {parsed : Option ParsedRules} {found : Option DirectoryConfig}
    (h : mgr.lookupOrParse key false mtime parsed = some (found, mgr')) :
    Grows mgr mgr' ∧ ((mgr'.published key).isSome = true ∨
      ∃ rules, parsed = some rules ∧ rules.errors ≠ []) := by
  rw [lookupOrParse, cached_eq_published] at h
  cases hc : mgr.published key with
  | some config =>
    simp only [hc] at h
    cases h
    exact ⟨.refl mgr, .inl (by rw [hc]; rfl)⟩
  | none =>
    simp only [hc] at h
    obtain ⟨rules, hr, hs⟩ := Option.map_eq_some_iff.mp h
    by_cases hcl : rules.errors = []
    · rw [store_of_clean hcl] at hs
      cases hs
      refine ⟨⟨fun other config ho => ?_⟩, .inl (by simp [published, cached, cachedFor])⟩
      -- the new entry is not for a key that was published
      have hne : other ≠ key := by
        rintro rfl
        rw [hc] at ho
        cases ho
      simp only [published, cached, cachedFor, AList.lookup_insert_ne hne] at ho ⊢
      exact ho
    · rw [store_of_errors hcl] at hs
      cases hs
      exact ⟨.refl mgr, .inr ⟨rules, hr, hcl⟩⟩

/-! ## Settled -/

/-- No rules can be had from the root rule file: it is missing, a link, or has errors. -/
def RootUnloadable (disk : Disk) (file : Str) : Prop :=
  ∀ entry, disk.entryAt (components file) = some entry → entry.isSymlink = false →
    ∃ parsed, parseVeysruleFile entry.read file true = some parsed ∧ parsed.errors ≠ []

/-- No rules can be had from a file beneath the root: it cannot be read or has errors. -/
def Unloadable (disk : Disk) (rootDir : Str) (path : List Str) : Prop :=
  ∀ text, ruleText disk rootDir path = some text →
    ∃ parsed, parseVeysruleContent text (beneath rootDir path) false = some parsed ∧
      parsed.errors ≠ []

/-- Every rule file is published or has no rules to be had. -/
structure Settled (rootConfigFile : Option Str) (rootDir : Str) (disk : Disk) (mgr : ConfigManager) :
    Prop where
  root : ∀ file, rootConfigFile = some file →
    (mgr.published (components file)).isSome = true ∨ RootUnloadable disk file
  rule : ∀ dir, (mgr.published (ruleKey rootDir (dir ++ [ruleFileName]))).isSome = true ∨
    Unloadable disk rootDir (dir ++ [ruleFileName])

section Loads

variable {disk : Disk} {mgr mgr' : ConfigManager} {rootConfigFile : Option Str} {rootDir : Str}
  {path : List Str} {found : Option DirectoryConfig}

lemma grows_loadDirConfig {file : Str}
    (h : loadDirConfig disk mgr file false true = some (found, mgr')) :
    Grows mgr mgr' ∧
      ((mgr'.published (components file)).isSome = true ∨ RootUnloadable disk file) := by
  simp only [loadDirConfig] at h
  cases hen : disk.entryAt (components file) with
  | none =>
    simp only [hen] at h
    cases h
    exact ⟨.refl mgr, .inr fun entry h => by rw [hen] at h; cases h⟩
  | some entry =>
    simp only [hen] at h
    split_ifs at h with hl
    · cases h
      refine ⟨.refl mgr, .inr fun entry' hen' hr => ?_⟩
      cases hen.symm.trans hen'
      rw [hl] at hr
      cases hr
    · obtain ⟨hg, hs⟩ := grows_lookupOrParse h
      refine ⟨hg, hs.imp_right fun hb entry' hen' _ => ?_⟩
      cases hen.symm.trans hen'
      exact hb

lemma grows_loadDirConfigBeneath
    (h : loadDirConfigBeneath disk mgr rootDir path false false = some (found, mgr')) :
    Grows mgr mgr' ∧
      ((mgr'.published (ruleKey rootDir path)).isSome = true ∨ Unloadable disk rootDir path) := by
  simp only [loadDirConfigBeneath] at h
  cases hr : readRuleFileBeneath (disk.treeAt (components rootDir)) path with
  | none =>
    simp only [hr] at h
    cases h
    refine ⟨.refl mgr, .inr fun text ht => ?_⟩
    rw [ruleText, hr] at ht
    cases ht
  | some content =>
    simp only [hr] at h
    obtain ⟨hg, hs⟩ := grows_lookupOrParse h
    refine ⟨hg, hs.imp_right fun hb text ht => ?_⟩
    rw [ruleText, hr] at ht
    cases ht
    exact hb

lemma grows_loadRootConfig (h : loadRootConfig disk mgr rootConfigFile false = some (found, mgr')) :
    Grows mgr mgr' ∧ ∀ file, rootConfigFile = some file →
      (mgr'.published (components file)).isSome = true ∨ RootUnloadable disk file := by
  cases rootConfigFile with
  | none =>
    cases h
    exact ⟨.refl mgr, fun file hf => by cases hf⟩
  | some file =>
    obtain ⟨hg, hf⟩ := grows_loadDirConfig h
    refine ⟨hg, fun file' heq => ?_⟩
    cases heq
    exact hf

lemma grows_preloadFile (h : preloadFile disk rootConfigFile rootDir mgr path = some mgr') :
    Grows mgr mgr' := by
  rw [preloadFile] at h
  split_ifs at h
  · cases h
    exact .refl mgr
  · obtain ⟨⟨found, mgr''⟩, hl, rfl⟩ := Option.map_eq_some_iff.mp h
    exact (grows_loadDirConfigBeneath hl).1

/-- **A publication settles every rule file** but the root rule file under its name in the tree. -/
lemma settled_publish (h : publish disk mgr rootConfigFile rootDir = some mgr')
    (hsh : ∀ dir, isRootConfig rootConfigFile (beneath rootDir (dir ++ [ruleFileName])) = true →
      (mgr'.published (ruleKey rootDir (dir ++ [ruleFileName]))).isSome = true ∨
        Unloadable disk rootDir (dir ++ [ruleFileName])) :
    Settled rootConfigFile rootDir disk mgr' := by
  rw [publish, preloadTree, Option.bind_eq_bind, Option.bind_eq_some_iff] at h
  obtain ⟨⟨found, first⟩, hro, hv⟩ := h
  simp only [FileTree.visit_eq_foldlM] at hv
  obtain ⟨hg, hp⟩ := option_foldlM_passes Grows.refl Grows.trans grows_preloadFile hv
  obtain ⟨-, hf⟩ := grows_loadRootConfig hro
  have hk : ∀ {before : ConfigManager} {key : List Component}, Grows before mgr' →
      (before.published key).isSome = true → (mgr'.published key).isSome = true := by
    intro before key hb hso
    obtain ⟨config, hc⟩ := Option.isSome_iff_exists.mp hso
    rw [hb.retains key config hc]
    rfl
  refine ⟨fun file heq => (hf file heq).imp_left (hk hg), fun dir => ?_⟩
  by_cases hs : isRootConfig rootConfigFile (beneath rootDir (dir ++ [ruleFileName])) = true
  · exact hsh dir hs
  · cases ht : ruleText disk rootDir (dir ++ [ruleFileName]) with
    | none => exact .inr fun text h => by rw [ht] at h; cases h
    | some text =>
      -- a file that can be read is one the walk comes to
      obtain ⟨hr, hi, -⟩ := (ruleText_eq_some_iff (by simp)).mp ht
      have hvi := FileTree.mem_files.mpr ⟨by simp, hr, hi⟩
      obtain ⟨before, after, hst, hl⟩ := hp _ hvi
      rw [preloadFile, if_neg (by simp [hs])] at hst
      obtain ⟨⟨_, after'⟩, hlo, rfl⟩ := Option.map_eq_some_iff.mp hst
      exact (grows_loadDirConfigBeneath hlo).2.imp_left (hk hl)

end Loads

/-! ## Requests -/

/-- A root rule file that is there and no link. -/
def rootReadable (disk : Disk) (file : Str) : Bool :=
  (disk.entryAt (components file)).any fun entry => !entry.isSymlink

/-- What a request sees of the root rule file. -/
def rootSeen (disk : Disk) (mgr : ConfigManager) (rootConfigFile : Option Str) :
    Option DirectoryConfig :=
  rootConfigFile.bind fun file =>
    if rootReadable disk file then mgr.published (components file) else none

/-- What a request sees of a rule file beneath the root. -/
def seen (disk : Disk) (mgr : ConfigManager) (rootDir : Str) (path : List Str) :
    Option DirectoryConfig :=
  if (ruleText disk rootDir path).isSome then mgr.published (ruleKey rootDir path) else none

/-- The rules for a directory, put together from what is seen. -/
def combined (disk : Disk) (mgr : ConfigManager) (rootConfigFile : Option Str) (rootDir : Str)
    (relPath : List Str) : DirectoryConfig :=
  relPath.inits.foldl (fun config dir =>
    mergeFound config (seen disk mgr rootDir (dir ++ [ruleFileName])))
    (mergeFound {} (rootSeen disk mgr rootConfigFile))

section Requests

variable {disk disk' : Disk} {mgr : ConfigManager} {rootConfigFile : Option Str} {rootDir : Str}

/-- A file that is published, or has no rules to be had, is not stored. -/
lemma lookupOrParse_of_settled {key : List Component} {mtime : Option ℕ}
    {parsed : Option ParsedRules} (h : (mgr.published key).isSome = true ∨
      ∃ rules, parsed = some rules ∧ rules.errors ≠ []) :
    mgr.lookupOrParse key false mtime parsed = some (mgr.published key, mgr) := by
  rw [lookupOrParse, cached_eq_published]
  cases hc : mgr.published key with
  | some config => rfl
  | none =>
    rw [hc] at h
    obtain ⟨rules, rfl, hb⟩ := h.resolve_left (by simp)
    rw [Option.map_some, store_of_errors hb]

lemma loadRootConfig_of_settled (h : Settled rootConfigFile rootDir disk mgr) :
    loadRootConfig disk mgr rootConfigFile false =
      some (rootSeen disk mgr rootConfigFile, mgr) := by
  cases rootConfigFile with
  | none => rfl
  | some file =>
    have hf := h.root file rfl
    cases hen : disk.entryAt (components file) with
    | none => simp [loadRootConfig, loadDirConfig, rootSeen, rootReadable, hen]
    | some entry =>
      simp only [loadRootConfig, loadDirConfig, rootSeen, rootReadable, Option.bind_some, hen]
      by_cases hl : entry.isSymlink = true
      · rw [if_pos hl, if_neg (by simp [hl])]
      · rw [if_neg hl, if_pos (by simp [hl])]
        exact lookupOrParse_of_settled
          (hf.imp_right fun hb => hb entry hen (by simpa using hl))

lemma loadDirConfigBeneath_of_settled (h : Settled rootConfigFile rootDir disk mgr)
    (dir : List Str) :
    loadDirConfigBeneath disk mgr rootDir (dir ++ [ruleFileName]) false false =
      some (seen disk mgr rootDir (dir ++ [ruleFileName]), mgr) := by
  have hru := h.rule dir
  cases hr : readRuleFileBeneath (disk.treeAt (components rootDir)) (dir ++ [ruleFileName]) with
  | none => simp [loadDirConfigBeneath, seen, ruleText, hr]
  | some content =>
    simp only [loadDirConfigBeneath, seen, ruleText, hr]
    exact lookupOrParse_of_settled
      (hru.imp_right fun hb => hb content.1 (by rw [ruleText, hr]; rfl))

/-- **A request changes nothing, and is answered from what is seen.** -/
lemma getConfigForDir_of_settled (h : Settled rootConfigFile rootDir disk mgr)
    (relPath : List Str) :
    getConfigForDir disk mgr rootConfigFile rootDir relPath false =
      some (combined disk mgr rootConfigFile rootDir relPath, mgr) := by
  have hf : ∀ (dirs : List (List Str)) (config : DirectoryConfig),
      dirs.foldlM (mergeBeneath disk rootDir false) (config, mgr) =
        some (dirs.foldl (fun config dir =>
          mergeFound config (seen disk mgr rootDir (dir ++ [ruleFileName]))) config, mgr) := by
    intro dirs
    induction dirs with
    | nil => exact fun _ => rfl
    | cons dir dirs ih =>
      intro config
      rw [foldlM_cons, mergeBeneath, loadDirConfigBeneath_of_settled h dir]
      exact ih _
  rw [getConfigForDir, loadRootConfig_of_settled h]
  exact hf _ _

/-! ## Changes -/

/-- A change that takes no published file away, and brings no rules that were not published. -/
structure Harmless (rootConfigFile : Option Str) (rootDir : Str) (mgr : ConfigManager)
    (disk disk' : Disk) : Prop where
  root : ∀ file, rootConfigFile = some file →
    if (mgr.published (components file)).isSome then
      rootReadable disk' file = rootReadable disk file
    else RootUnloadable disk' file
  rule : ∀ dir, if (mgr.published (ruleKey rootDir (dir ++ [ruleFileName]))).isSome then
      (ruleText disk' rootDir (dir ++ [ruleFileName])).isSome =
        (ruleText disk rootDir (dir ++ [ruleFileName])).isSome
    else Unloadable disk' rootDir (dir ++ [ruleFileName])

lemma Harmless.settled (h : Harmless rootConfigFile rootDir mgr disk disk') :
    Settled rootConfigFile rootDir disk' mgr := by
  refine ⟨fun file hf => ?_, fun dir => ?_⟩
  · have hr := h.root file hf
    split_ifs at hr with hp
    · exact .inl hp
    · exact .inr hr
  · have hru := h.rule dir
    split_ifs at hru with hp
    · exact .inl hp
    · exact .inr hru

lemma Harmless.rootSeen_eq (h : Harmless rootConfigFile rootDir mgr disk disk') :
    rootSeen disk' mgr rootConfigFile = rootSeen disk mgr rootConfigFile := by
  cases rootConfigFile with
  | none => rfl
  | some file =>
    have hr := h.root file rfl
    simp only [rootSeen, Option.bind_some]
    split_ifs at hr with hp
    · rw [hr]
    · rw [Option.not_isSome_iff_eq_none.mp hp, ite_self, ite_self]

lemma Harmless.seen_eq (h : Harmless rootConfigFile rootDir mgr disk disk') (dir : List Str) :
    seen disk' mgr rootDir (dir ++ [ruleFileName]) =
      seen disk mgr rootDir (dir ++ [ruleFileName]) := by
  have hr := h.rule dir
  simp only [seen]
  split_ifs at hr with hp
  · rw [hr]
  · rw [Option.not_isSome_iff_eq_none.mp hp, ite_self, ite_self]

/-- The rules for every directory are as before. -/
lemma Harmless.combined_eq (h : Harmless rootConfigFile rootDir mgr disk disk')
    (relPath : List Str) :
    combined disk' mgr rootConfigFile rootDir relPath =
      combined disk mgr rootConfigFile rootDir relPath := by
  simp only [combined, h.rootSeen_eq, h.seen_eq]

end Requests

/-! ## Runs -/

/-- Nothing changes but files called `.veysrule`. -/
structure RulesOnly (disk disk' : Disk) : Prop where
  entry : ∀ path, path.getLast? ≠ some (.normal ruleFileName) →
    disk'.entryAt path = disk.entryAt path
  tree : ∀ root path, path.getLast? ≠ some ruleFileName →
    (disk'.treeAt root).lookup path = (disk.treeAt root).lookup path

/-- The files change, or a request is answered; the answer is the event. -/
inductive SnapshotStep (allowed : ConfigManager → Disk → Disk → Prop) (rootConfigFile : Option Str)
    (rootDir : Str) :
    Disk × ConfigManager → List (List Str × DirectoryConfig) → Disk × ConfigManager → Prop
  | change {disk disk' : Disk} {mgr : ConfigManager} : RulesOnly disk disk' →
      allowed mgr disk disk' → SnapshotStep allowed rootConfigFile rootDir (disk, mgr) [] (disk', mgr)
  | request {disk : Disk} {mgr mgr' : ConfigManager} {relPath : List Str} {config : DirectoryConfig} :
      getConfigForDir disk mgr rootConfigFile rootDir relPath false = some (config, mgr') →
      SnapshotStep allowed rootConfigFile rootDir (disk, mgr) [(relPath, config)] (disk, mgr')

/-- **The snapshot is immutable as long as the changes are harmless**: every request is given what
it would have been given right after the publication, and so is every request from then on. -/
theorem snapshot_immutable {disk disk' : Disk} {mgr₀ mgr mgr' : ConfigManager}
    {rootConfigFile : Option Str} {rootDir : Str}
    {answers : List (List Str × DirectoryConfig)}
    (hpublish : publish disk mgr₀ rootConfigFile rootDir = some mgr)
    (hshared : ∀ dir, isRootConfig rootConfigFile (beneath rootDir (dir ++ [ruleFileName])) = true →
      (mgr.published (ruleKey rootDir (dir ++ [ruleFileName]))).isSome = true ∨
        Unloadable disk rootDir (dir ++ [ruleFileName]))
    (hrun : Runs (SnapshotStep (Harmless rootConfigFile rootDir) rootConfigFile rootDir)
      (disk, mgr) answers (disk', mgr')) :
    (∀ answer ∈ answers, getConfigForDir disk mgr rootConfigFile rootDir answer.1 false =
      some (answer.2, mgr)) ∧
    ∀ relPath, getConfigForDir disk' mgr' rootConfigFile rootDir relPath false =
      getConfigForDir disk mgr rootConfigFile rootDir relPath false := by
  have hsettled := settled_publish hpublish hshared
  -- along the run the manager stays as it is and the same is seen
  have hinv := Runs.invariant (I := fun answers (state : Disk × ConfigManager) =>
    state.2 = mgr ∧ Settled rootConfigFile rootDir state.1 mgr ∧
      (∀ relPath, combined state.1 mgr rootConfigFile rootDir relPath =
        combined disk mgr rootConfigFile rootDir relPath) ∧
      ∀ answer ∈ answers, answer.2 = combined disk mgr rootConfigFile rootDir answer.1)
    ⟨rfl, hsettled, fun _ => rfl, by simp⟩ ?_ hrun
  · obtain ⟨rfl, hsettled', hsame, hanswers⟩ := hinv
    refine ⟨fun answer hanswer => ?_, fun relPath => ?_⟩
    · rw [getConfigForDir_of_settled hsettled, hanswers answer hanswer]
    · rw [getConfigForDir_of_settled hsettled, getConfigForDir_of_settled hsettled', hsame]
  · rintro answers ⟨now, mgr⟩ new ⟨next, mgr''⟩ ⟨rfl, hnow, hsame, hanswers⟩ hstep
    cases hstep with
    | change hrules hharmless =>
      refine ⟨rfl, hharmless.settled, fun relPath => ?_, by simpa using hanswers⟩
      rw [hharmless.combined_eq, hsame]
    | request hget =>
      rw [getConfigForDir_of_settled hnow, Option.some.injEq, Prod.mk.injEq] at hget
      obtain ⟨rfl, rfl⟩ := hget
      refine ⟨rfl, hnow, hsame, ?_⟩
      rw [forall_mem_append]
      exact ⟨hanswers, by simp [hsame]⟩

/-! ### Samples -/

/-- A document root with nothing in it. -/
def bareTree : FileTree where
  entries := ⟨[⟨[], openDir⟩], by simp [List.NodupKeys, List.keys]⟩
  named := by decide

/-- The same root with a rule file. -/
def guardTree (rules : String) : FileTree where
  entries := ⟨[⟨[], openDir⟩, ⟨[ruleFileName], fileOf (utf8 rules.toList)⟩],
    by simp [List.NodupKeys, List.keys]⟩
  named := by
    intro path hpath
    have hkeys : path = [] ∨ path = [ruleFileName] := by simpa [AList.keys] using hpath
    rcases hkeys with rfl | rfl
    · simp
    · decide

lemma lookup_bareTree (path : List Str) :
    bareTree.lookup path = if path = [] then some openDir else none := by
  split_ifs with hp
  · rw [hp]
    rfl
  · simp only [FileTree.lookup, AList.lookup, bareTree]
    rw [dlookup_cons_ne _ _ hp, dlookup_nil]

/-- The trees are the same but for the rule file. -/
lemma lookup_guardTree {rules : String} {path : List Str} (h : path ≠ [ruleFileName]) :
    (guardTree rules).lookup path = bareTree.lookup path := by
  rw [lookup_bareTree]
  split_ifs with hp
  · rw [hp]
    rfl
  · simp only [FileTree.lookup, AList.lookup, guardTree]
    rw [dlookup_cons_ne _ _ hp, dlookup_cons_ne _ _ h, dlookup_nil]

/-- Only the rule file of the root is there. -/
lemma ruleText_guardTree {rules : String} {dir : List Str} (hne : dir ≠ []) :
    ruleText (diskWith (guardTree rules)) "./public".toList (dir ++ [ruleFileName]) = none := by
  rw [Option.eq_none_iff_forall_ne_some]
  intro text ht
  obtain ⟨hr, -, -⟩ := (ruleText_eq_some_iff (by simp)).mp ht
  have hn : (guardTree rules).nodeAt dir = some (.dir true true) :=
    of_decide_eq_true (hr dir (prefix_append _ _) (by simp))
  by_cases hru : dir = [ruleFileName]
  · subst hru
    cases hn
  · rw [FileTree.nodeAt, lookup_guardTree hru, lookup_bareTree, if_neg hne] at hn
    cases hn

lemma ne_singleton_of_getLast? {path : List Str} (h : path.getLast? ≠ some ruleFileName) :
    path ≠ [ruleFileName] := by
  rintro rfl
  exact h rfl

/-- An edit does not show. -/
theorem snapshot_immutable_edit : ∃ mgr,
    publish (diskWith (guardTree "deny ip 10.0.0.0/8")) {} none "./public".toList = some mgr ∧
      getConfigForDir (diskWith (guardTree "deny ip 192.168.0.0/16")) mgr none "./public".toList []
          false =
        getConfigForDir (diskWith (guardTree "deny ip 10.0.0.0/8")) mgr none "./public".toList []
          false := by
  have hentry : ((publish (diskWith (guardTree "deny ip 10.0.0.0/8")) {} none
      "./public".toList).bind fun mgr => mgr.published
        (ruleKey "./public".toList [ruleFileName])).isSome = true := by
    decide
  obtain ⟨config, hentry⟩ := Option.isSome_iff_exists.mp hentry
  obtain ⟨mgr, hpublish, hentry⟩ := Option.bind_eq_some_iff.mp hentry
  have hharmless : Harmless none "./public".toList mgr
      (diskWith (guardTree "deny ip 10.0.0.0/8"))
      (diskWith (guardTree "deny ip 192.168.0.0/16")) := by
    refine ⟨fun file hfile => absurd hfile (by simp), fun dir => ?_⟩
    cases dir with
    | nil =>
      rw [nil_append, hentry, Option.isSome_some, if_pos rfl]
      decide
    | cons name dir =>
      rw [ruleText_guardTree (by simp), ruleText_guardTree (by simp)]
      split_ifs
      · rfl
      · intro text htext
        rw [ruleText_guardTree (by simp)] at htext
        cases htext
  have hrules : RulesOnly (diskWith (guardTree "deny ip 10.0.0.0/8"))
      (diskWith (guardTree "deny ip 192.168.0.0/16")) := by
    refine ⟨fun _ _ => rfl, fun _ path hpath => ?_⟩
    exact (lookup_guardTree (ne_singleton_of_getLast? hpath)).trans
      (lookup_guardTree (ne_singleton_of_getLast? hpath)).symm
  exact ⟨mgr, hpublish, (snapshot_immutable hpublish (fun _ h => by cases h)
    (.single (.change hrules hharmless))).2 []⟩

/-- A rule file that is deleted is forgotten, with the network it denied. -/
theorem deleted_rule_is_forgotten : ∃ mgr config,
    publish (diskWith (guardTree "deny ip 10.0.0.0/8")) {} none "./public".toList = some mgr ∧
      getConfigForDir (diskWith (guardTree "deny ip 10.0.0.0/8")) mgr none "./public".toList []
        false = some (config, mgr) ∧ config.denyNetworks.length = 1 ∧
      Runs (SnapshotStep (fun _ _ _ => True) none "./public".toList)
        (diskWith (guardTree "deny ip 10.0.0.0/8"), mgr) [([], {})] (diskWith bareTree, mgr) := by
  have hget : ((publish (diskWith (guardTree "deny ip 10.0.0.0/8")) {} none
      "./public".toList).bind fun mgr => (getConfigForDir
        (diskWith (guardTree "deny ip 10.0.0.0/8")) mgr none "./public".toList [] false).map fun r =>
          r.1.denyNetworks.length) = some 1 := by
    decide
  obtain ⟨mgr, hpublish, hget⟩ := Option.bind_eq_some_iff.mp hget
  obtain ⟨⟨config, mgr'⟩, hget, hdeny⟩ := Option.map_eq_some_iff.mp hget
  have hsettled := settled_publish hpublish fun _ h => by cases h
  rw [getConfigForDir_of_settled hsettled, Option.some.injEq, Prod.mk.injEq] at hget
  obtain ⟨rfl, rfl⟩ := hget
  have hrules : RulesOnly (diskWith (guardTree "deny ip 10.0.0.0/8")) (diskWith bareTree) := by
    refine ⟨fun _ _ => rfl, fun _ path hpath => ?_⟩
    exact (lookup_guardTree (ne_singleton_of_getLast? hpath)).symm
  refine ⟨mgr, _, hpublish, getConfigForDir_of_settled hsettled [], hdeny, ?_⟩
  exact (Runs.single (SnapshotStep.change hrules trivial)).trans
    (Runs.single (SnapshotStep.request rfl))

end ConfigManager

end Veysrs
