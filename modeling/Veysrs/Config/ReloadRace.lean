import Veysrs.Config.Snapshot

/-!
# Loads that run beside a reload

Any number of threads load rule files while one of them reloads: it runs `clear_cache`, which first
counts the generation up and then empties the cache, and then loads the files of the tree itself.
The steps of a load that other threads can come between are the reading of the file, the loading of
the generation, the lookup and the conditional insert.  `load_dir_config_beneath` takes them in this
order; `load_dir_config`, for the root rule file, reads the file only after the lookup.

**The model.**  `RaceStep` has one rule for each of these steps, and one for a change of the files.
The steps of a load taken in a row are the loader of the sequential model (`runs_alone`,
`root_runs_alone`).

**No stale rule.**  If every load gets its generation while the one its content was read in still
lasts, no entry of the current generation was read before that generation began
(`no_stale_rule_of_timely`).  The order of the steps in `load_dir_config_beneath` does not provide
for this: between the reading of the file and the loading of the generation a whole `clear_cache`
can happen (`stale_rule_after_reload`).
-/

namespace Veysrs

open Core

/-! ## The machine -/

inductive Thread where
  | reloader
  | request (id : ℕ)
  deriving DecidableEq, Repr

/-- What a load has read.  `readIn` counts the calls of `clear_cache` that had begun by then. -/
structure Reading where
  key : List Component
  mtime : Option ℕ
  devMode : Bool
  parsed : Option ParsedRules
  readIn : ℕ

/-- The generation a load goes by, and the calls of `clear_cache` that had begun when it got it. -/
structure Tag where
  generation : ℕ
  taggedIn : ℕ

/-- How far a thread is with a load. -/
inductive Load where
  | idle
  | read (r : Reading)
  | tagged (r : Reading) (tag : Tag)
  | rootTagged (file : Str) (mtime : Option ℕ) (devMode : Bool) (tag : Tag)
  | rootMissed (file : Str) (mtime : Option ℕ) (devMode : Bool) (tag : Tag)
  | ready (r : Reading) (tag : Tag)

/-- `clears` and `readIn` are there for the statements only: how many calls of `clear_cache` have
begun, and how many had when the content behind an entry was read. -/
structure RaceState where
  disk : Disk
  mgr : ConfigManager := {}
  loads : Thread → Load := fun _ => .idle
  clearing : Bool := false
  clears : ℕ := 0
  readIn : List Component → ℕ := fun _ => 0

inductive RaceLabel where
  | edit | bump | clear
  | read (t : Thread) | tag (t : Thread) | lookup (t : Thread) | insert (t : Thread)
  | rootTag (t : Thread) | rootLookup (t : Thread) | rootRead (t : Thread)

namespace RaceState

/-- The thread can begin something; the reloading one does nothing else while it clears. -/
def Free (s : RaceState) (t : Thread) : Prop :=
  s.loads t = .idle ∧ (t = .reloader → s.clearing = false)

def setLoad (s : RaceState) (t : Thread) (load : Load) : RaceState :=
  { s with loads := Function.update s.loads t load }

/-- The end of a load: what was parsed without an error is kept if the generation is still the one
the load goes by. -/
def insert (s : RaceState) (t : Thread) (r : Reading) (tag : Tag) : RaceState :=
  match r.parsed with
  | none => s.setLoad t .idle
  | some parsed =>
    { s.setLoad t .idle with
      mgr := (s.mgr.storeFor tag.generation r.key r.mtime parsed).2
      readIn := if parsed.errors = [] ∧ s.mgr.generation = tag.generation then
          Function.update s.readIn r.key r.readIn
        else s.readIn }

end RaceState

inductive RaceStep : RaceState → RaceLabel → RaceState → Prop
  | edit {s : RaceState} (disk : Disk) : RaceStep s .edit { s with disk }
  -- `clear_cache`
  | bump {s : RaceState} : s.Free .reloader → RaceStep s .bump { s with
      mgr := { s.mgr with generation := (s.mgr.generation + 1) % 2 ^ 64 }
      clears := s.clears + 1
      clearing := true }
  | clear {s : RaceState} : s.clearing = true → RaceStep s .clear { s with
      mgr := { s.mgr with cache := ∅ }
      clearing := false }
  -- `load_dir_config_beneath`; a file that cannot be read ends the load
  | read {s : RaceState} {t : Thread} {rootDir content : Str} {path : List Str} {mtime : Option ℕ}
      (devMode : Bool) : s.Free t →
      readRuleFileBeneath (s.disk.treeAt (components rootDir)) path = some (content, mtime) →
      RaceStep s (.read t) (s.setLoad t (.read
        { key := ruleKey rootDir path
          mtime
          devMode
          parsed := parseVeysruleContent content (beneath rootDir path) false
          readIn := s.clears }))
  | tag {s : RaceState} {t : Thread} {r : Reading} : s.loads t = .read r →
      RaceStep s (.tag t) (s.setLoad t (.tagged r ⟨s.mgr.generation, s.clears⟩))
  | lookup {s : RaceState} {t : Thread} {r : Reading} {tag : Tag} : s.loads t = .tagged r tag →
      RaceStep s (.lookup t) (s.setLoad t
        (if (s.mgr.cachedFor tag.generation r.key r.devMode r.mtime).isSome then .idle
          else .ready r tag))
  | insert {s : RaceState} {t : Thread} {r : Reading} {tag : Tag} : s.loads t = .ready r tag →
      RaceStep s (.insert t) (s.insert t r tag)
  -- `load_dir_config`; a file that is missing or a link ends the load
  | rootTag {s : RaceState} {t : Thread} {file : Str} {entry : Entry} (devMode : Bool) : s.Free t →
      s.disk.entryAt (components file) = some entry → entry.isSymlink = false →
      RaceStep s (.rootTag t) (s.setLoad t
        (.rootTagged file entry.modified devMode ⟨s.mgr.generation, s.clears⟩))
  | rootLookup {s : RaceState} {t : Thread} {file : Str} {mtime : Option ℕ} {devMode : Bool}
      {tag : Tag} : s.loads t = .rootTagged file mtime devMode tag →
      RaceStep s (.rootLookup t) (s.setLoad t
        (if (s.mgr.cachedFor tag.generation (components file) devMode mtime).isSome then .idle
          else .rootMissed file mtime devMode tag))
  | rootRead {s : RaceState} {t : Thread} {file : Str} {mtime : Option ℕ} {devMode : Bool}
      {tag : Tag} : s.loads t = .rootMissed file mtime devMode tag →
      RaceStep s (.rootRead t) (s.setLoad t (.ready
        { key := components file
          mtime
          devMode
          parsed := parseVeysruleFile
            ((s.disk.entryAt (components file)).bind Entry.read) file true
          readIn := s.clears } tag))

/-- Steps of which each meets a condition on the state before it. -/
def RaceStepIf (ok : RaceState → RaceLabel → Prop) (s : RaceState) (labels : List RaceLabel)
    (s' : RaceState) : Prop :=
  ∃ label, labels = [label] ∧ ok s label ∧ RaceStep s label s'

/-- No entry of the current generation was read before the `clear_cache` that began it. -/
def NoStale (s : RaceState) : Prop :=
  ∀ key entry, s.mgr.cache.lookup key = some entry → entry.generation = s.mgr.generation →
    s.clears ≤ s.readIn key

/-! ## Timely loads -/

/-- No `clear_cache` begins between the reading of a file and the loading of the generation, and the
generation does not come round to the same number while a load goes by it. -/
def Timely (s : RaceState) : RaceLabel → Prop
  | .tag t => ∀ r, s.loads t = .read r → r.readIn = s.clears
  | .insert t => ∀ r tag, s.loads t = .ready r tag → s.clears < tag.taggedIn + 2 ^ 64
  | _ => True

/-- The generation is the one of its time. -/
def Tag.Fresh (tag : Tag) (clears : ℕ) : Prop :=
  tag.generation = tag.taggedIn % 2 ^ 64 ∧ tag.taggedIn ≤ clears

/-- Nothing was read before the generation the load goes by. -/
def Load.Fresh (clears : ℕ) : Load → Prop
  | .idle => True
  | .read r => r.readIn ≤ clears
  | .rootTagged _ _ _ tag => tag.Fresh clears
  | .rootMissed _ _ _ tag => tag.Fresh clears
  | .tagged r tag => tag.Fresh clears ∧ tag.taggedIn ≤ r.readIn ∧ r.readIn ≤ clears
  | .ready r tag => tag.Fresh clears ∧ tag.taggedIn ≤ r.readIn ∧ r.readIn ≤ clears

/-- The entries are of the current generation, or of the last one until they are cleared. -/
structure RaceState.Fresh (s : RaceState) : Prop where
  generation : s.mgr.generation = s.clears % 2 ^ 64
  loads : ∀ t, (s.loads t).Fresh s.clears
  cache : ∀ key entry, s.mgr.cache.lookup key = some entry →
    entry.generation = s.readIn key % 2 ^ 64 ∧
      (s.readIn key = s.clears ∨ s.clearing = true ∧ s.readIn key + 1 = s.clears)

lemma Load.Fresh.succ {clears : ℕ} {load : Load} (h : load.Fresh clears) :
    load.Fresh (clears + 1) := by
  cases load with
  | idle => trivial
  | read r => exact Nat.le_succ_of_le h
  | rootTagged file mtime devMode tag => exact ⟨h.1, Nat.le_succ_of_le h.2⟩
  | rootMissed file mtime devMode tag => exact ⟨h.1, Nat.le_succ_of_le h.2⟩
  | tagged r tag => exact ⟨⟨h.1.1, Nat.le_succ_of_le h.1.2⟩, h.2.1, Nat.le_succ_of_le h.2.2⟩
  | ready r tag => exact ⟨⟨h.1.1, Nat.le_succ_of_le h.1.2⟩, h.2.1, Nat.le_succ_of_le h.2.2⟩

variable {s : RaceState} {t : Thread} {r : Reading}

lemma RaceState.Fresh.load (h : s.Fresh) {load : Load} (hl : s.loads t = load) :
    load.Fresh s.clears := by
  rw [← hl]
  exact h.loads t

/-- Only the load of one thread changes. -/
lemma RaceState.Fresh.setLoad (h : s.Fresh) {load : Load} (hl : load.Fresh s.clears) :
    (s.setLoad t load).Fresh := by
  refine ⟨h.generation, fun u => ?_, h.cache⟩
  by_cases hu : u = t
  · subst hu
    simpa [RaceState.setLoad] using hl
  · simpa [RaceState.setLoad, Function.update_of_ne hu] using h.loads u

/-- The current generation, as the load goes by it. -/
lemma RaceState.Fresh.tag (h : s.Fresh) :
    Tag.Fresh ⟨s.mgr.generation, s.clears⟩ s.clears := ⟨h.generation, le_rfl⟩

/-- A load that is kept. -/
lemma RaceState.insert_of_clean {tag : Tag} {parsed : ParsedRules}
    (hp : r.parsed = some parsed) (hc : parsed.errors = [])
    (hs : s.mgr.generation = tag.generation) :
    s.insert t r tag = { s.setLoad t .idle with
      mgr := { s.mgr with cache :=
        s.mgr.cache.insert r.key ⟨parsed.state.dir, r.mtime, tag.generation⟩ }
      readIn := Function.update s.readIn r.key r.readIn } := by
  simp only [RaceState.insert, hp, ConfigManager.storeFor, if_pos hc, if_pos hs,
    if_pos (And.intro hc hs)]

/-- A load that is not. -/
lemma RaceState.insert_of_not {tag : Tag} (h : ∀ parsed, r.parsed = some parsed →
      ¬ (parsed.errors = [] ∧ s.mgr.generation = tag.generation)) :
    s.insert t r tag = s.setLoad t .idle := by
  rw [RaceState.insert]
  cases hp : r.parsed with
  | none => rfl
  | some parsed =>
    have hm : (s.mgr.storeFor tag.generation r.key r.mtime parsed).2 = s.mgr := by
      rw [ConfigManager.storeFor]
      split_ifs with hc hs
      · exact absurd ⟨hc, hs⟩ (h parsed hp)
      · rfl
      · rfl
    simp only [hm, if_neg (h parsed hp)]
    rfl

lemma RaceState.Fresh.insert (h : s.Fresh) {tag : Tag} (hlo : (Load.ready r tag).Fresh s.clears)
    (ht : s.clears < tag.taggedIn + 2 ^ 64) : (s.insert t r tag).Fresh := by
  obtain ⟨⟨htag, hle⟩, hre, hr⟩ := hlo
  have hi : (s.setLoad t .idle).Fresh := h.setLoad trivial
  by_cases hk : ∃ parsed, r.parsed = some parsed ∧ parsed.errors = [] ∧
      s.mgr.generation = tag.generation
  · obtain ⟨parsed, hp, hc, hs⟩ := hk
    rw [RaceState.insert_of_clean hp hc hs]
    -- the generation has not come round, so it is the one of the load
    have hn : r.readIn = s.clears := by
      rw [h.generation] at hs
      omega
    refine ⟨h.generation, hi.loads, fun key entry hl => ?_⟩
    by_cases hkey : key = r.key
    · subst hkey
      simp only [AList.lookup_insert, Option.some.injEq] at hl
      subst hl
      simp only [Function.update_self, hn]
      exact ⟨hs.symm.trans h.generation, .inl rfl⟩
    · simp only [AList.lookup_insert_ne hkey] at hl
      simp only [Function.update_of_ne hkey]
      exact h.cache key entry hl
  · rw [RaceState.insert_of_not fun parsed hp hb => hk ⟨parsed, hp, hb⟩]
    exact hi

/-- **A timely step keeps everything fresh.** -/
lemma RaceState.Fresh.step {s' : RaceState} {label : RaceLabel} (h : s.Fresh)
    (ht : Timely s label) (hs : RaceStep s label s') : s'.Fresh := by
  cases hs with
  | edit disk => exact ⟨h.generation, h.loads, h.cache⟩
  | bump hfr =>
    refine ⟨?_, fun t => (h.loads t).succ, fun key entry hlo => ?_⟩
    · have hg := h.generation
      show (s.mgr.generation + 1) % 2 ^ 64 = (s.clears + 1) % 2 ^ 64
      omega
    · obtain ⟨hen, hr | ⟨hc, -⟩⟩ := h.cache key entry hlo
      · exact ⟨hen, .inr ⟨rfl, by rw [hr]⟩⟩
      · rw [hfr.2 rfl] at hc
        cases hc
  | clear hc =>
    refine ⟨h.generation, h.loads, fun key entry hlo => ?_⟩
    simp at hlo
  | read devMode hfr hr => exact h.setLoad le_rfl
  | tag hl =>
    have hr := ht _ hl
    exact h.setLoad ⟨h.tag, hr.ge, hr.le⟩
  | lookup hl =>
    have hf := h.load hl
    refine h.setLoad ?_
    split_ifs
    · trivial
    · exact hf
  | insert hl =>
    have hf := h.load hl
    exact h.insert hf (ht _ _ hl)
  | rootTag devMode hfr hen hre => exact h.setLoad h.tag
  | rootLookup hl =>
    have hf := h.load hl
    refine h.setLoad ?_
    split_ifs
    · trivial
    · exact hf
  | rootRead hl =>
    have hf := h.load hl
    exact h.setLoad ⟨hf, hf.2, le_rfl⟩

/-- An entry of the last generation has another number. -/
lemma RaceState.Fresh.noStale (h : s.Fresh) : NoStale s := by
  intro key entry hl hc
  obtain ⟨hen, hr | ⟨-, hr⟩⟩ := h.cache key entry hl
  · exact hr.ge
  · rw [h.generation] at hc
    omega

/-- **No stale rule survives a reload, if the loads are timely.** -/
theorem no_stale_rule_of_timely {disk : Disk} {labels : List RaceLabel} {s : RaceState}
    (h : Runs (RaceStepIf Timely) { disk } labels s) : NoStale s := by
  refine RaceState.Fresh.noStale (Runs.invariant (I := fun _ s => RaceState.Fresh s) ?_ ?_ h)
  · exact ⟨rfl, fun t => trivial, fun key entry hlookup => by simp at hlookup⟩
  · rintro _ s _ s' hfresh ⟨label, rfl, htime, hstep⟩
    exact hfresh.step htime hstep

/-! ## Loads without an interruption -/

@[simp] lemma RaceState.setLoad_setLoad (s : RaceState) (t : Thread) (load load' : Load) :
    (s.setLoad t load).setLoad t load' = s.setLoad t load' := by
  simp [RaceState.setLoad]

@[simp] lemma RaceState.loads_setLoad (s : RaceState) (t : Thread) (load : Load) :
    (s.setLoad t load).loads t = load := by
  simp [RaceState.setLoad]

lemma RaceState.Free.setLoad (h : s.Free t) :
    (s.setLoad t .idle).Free t := ⟨s.loads_setLoad t .idle, h.2⟩

lemma RaceState.free_insert (h : t = .reloader → s.clearing = false) (r : Reading) (tag : Tag) :
    (s.insert t r tag).Free t := by
  rw [RaceState.insert]
  split
  · exact ⟨s.loads_setLoad t .idle, h⟩
  · exact ⟨s.loads_setLoad t .idle, h⟩

section Alone

variable {s : RaceState} {t : Thread} {found : Option DirectoryConfig} {mgr' : ConfigManager}

/-- A run of timely steps after which the thread is free and the manager is `mgr'`. -/
def EndsWith (s : RaceState) (t : Thread) (mgr' : ConfigManager) : Prop :=
  ∃ labels s', Runs (RaceStepIf Timely) s labels s' ∧ s'.mgr = mgr' ∧ s'.Free t

lemma EndsWith.cons {s' : RaceState} {label : RaceLabel} (hs : RaceStep s label s')
    (ht : Timely s label) (h : EndsWith s' t mgr') : EndsWith s t mgr' := by
  obtain ⟨labels, last, hr, hl⟩ := h
  exact ⟨_, last, (Runs.single ⟨label, rfl, ht, hs⟩).trans hr, hl⟩

lemma endsWith_idle (hf : s.Free t) : EndsWith (s.setLoad t .idle) t s.mgr :=
  ⟨[], _, .refl, rfl, hf.setLoad⟩

variable {devMode : Bool}

/-- The cache decides what is done next: nothing, or what is to be kept is read. -/
lemma endsWith_lookupOrParse (hf : s.Free t) {key : List Component} {mtime : Option ℕ}
    {parsed : Option ParsedRules} {next : Load}
    (h : s.mgr.lookupOrParse key devMode mtime parsed = some (found, mgr'))
    (hm : parsed.map (s.mgr.store key mtime) = some (found, mgr') →
      EndsWith (s.setLoad t next) t mgr') :
    EndsWith (s.setLoad t (if (s.mgr.cachedFor s.mgr.generation key devMode mtime).isSome then .idle
      else next)) t mgr' := by
  rw [ConfigManager.lookupOrParse, ConfigManager.cached] at h
  cases hc : s.mgr.cachedFor s.mgr.generation key devMode mtime with
  | none =>
    simp only [hc] at h
    exact hm h
  | some config =>
    simp only [hc] at h
    cases h
    exact endsWith_idle hf

/-- The last step of a load that has the current generation. -/
lemma endsWith_ready (hf : s.Free t)
    (h : r.parsed.map (s.mgr.store r.key r.mtime) = some (found, mgr')) :
    EndsWith (s.setLoad t (.ready r ⟨s.mgr.generation, s.clears⟩)) t mgr' := by
  obtain ⟨parsed, hp, hs⟩ := Option.map_eq_some_iff.mp h
  have ht : Timely (s.setLoad t (.ready r ⟨s.mgr.generation, s.clears⟩)) (.insert t) := by
    intro r' tag' hl
    rw [RaceState.loads_setLoad] at hl
    cases hl
    exact Nat.lt_add_of_pos_right (by decide)
  refine .cons (.insert (RaceState.loads_setLoad _ _ _)) ht ⟨[], _, .refl, ?_, ?_⟩
  · rw [RaceState.insert, hp]
    exact congrArg Prod.snd hs
  · refine RaceState.free_insert ?_ _ _
    exact hf.2

/-- **The steps of `load_dir_config_beneath` in a row** do what it does, and are timely. -/
lemma runs_alone {rootDir : Str} {path : List Str} (hf : s.Free t)
    (h : ConfigManager.loadDirConfigBeneath s.disk s.mgr rootDir path devMode false =
      some (found, mgr')) : EndsWith s t mgr' := by
  simp only [ConfigManager.loadDirConfigBeneath] at h
  cases hre : readRuleFileBeneath (s.disk.treeAt (components rootDir)) path with
  | none =>
    simp only [hre] at h
    cases h
    exact ⟨[], s, .refl, rfl, hf⟩
  | some content =>
    simp only [hre] at h
    refine .cons (.read devMode hf hre) trivial (.cons
      (.tag (RaceState.loads_setLoad _ _ _)) (fun r hr => ?_) (.cons
        (.lookup (RaceState.loads_setLoad _ _ _)) trivial ?_))
    · rw [RaceState.loads_setLoad] at hr
      cases hr
      rfl
    · simp only [RaceState.setLoad_setLoad]
      exact endsWith_lookupOrParse hf h fun hm => endsWith_ready hf hm

/-- **The steps of `load_dir_config` in a row** do what it does, and are timely. -/
lemma root_runs_alone {file : Str} (hf : s.Free t)
    (h : ConfigManager.loadDirConfig s.disk s.mgr file devMode true = some (found, mgr')) :
    EndsWith s t mgr' := by
  simp only [ConfigManager.loadDirConfig] at h
  cases hen : s.disk.entryAt (components file) with
  | none =>
    simp only [hen] at h
    cases h
    exact ⟨[], s, .refl, rfl, hf⟩
  | some entry =>
    simp only [hen] at h
    by_cases hl : entry.isSymlink = true
    · rw [if_pos hl] at h
      cases h
      exact ⟨[], s, .refl, rfl, hf⟩
    · rw [if_neg hl] at h
      refine .cons (.rootTag devMode hf hen (by simpa using hl)) trivial (.cons
        (.rootLookup (RaceState.loads_setLoad _ _ _)) trivial ?_)
      simp only [RaceState.setLoad_setLoad]
      refine endsWith_lookupOrParse hf h fun hm => ?_
      refine .cons (.rootRead (RaceState.loads_setLoad _ _ _)) trivial ?_
      simp only [RaceState.setLoad_setLoad]
      have hr : (s.disk.entryAt (components file)).bind Entry.read = entry.read := by
        rw [hen]
        rfl
      rw [← hr] at hm
      exact endsWith_ready hf (r := ⟨_, _, _, _, _⟩) hm

end Alone

/-! ### Samples -/

/-- A rule file is loaded into an empty cache. -/
theorem no_stale_rule_of_timely_load : ∃ labels s,
    Runs (RaceStepIf Timely) { disk := diskWith (ConfigManager.guardTree "deny ip 10.0.0.0/8") }
      labels s ∧
      (s.mgr.published (ruleKey "./public".toList [ruleFileName])).isSome = true ∧ NoStale s := by
  have hload : ((ConfigManager.loadDirConfigBeneath
      (diskWith (ConfigManager.guardTree "deny ip 10.0.0.0/8")) {} "./public".toList [ruleFileName]
        false false).map fun r =>
          (r.2.published (ruleKey "./public".toList [ruleFileName])).isSome) = some true := by
    decide
  obtain ⟨⟨found, mgr'⟩, hload, hpublished⟩ := Option.map_eq_some_iff.mp hload
  obtain ⟨labels, s, hrun, hmgr, -⟩ := runs_alone
    (s := { disk := diskWith (ConfigManager.guardTree "deny ip 10.0.0.0/8") })
    (t := .request 0) ⟨rfl, fun h => by cases h⟩ hload
  exact ⟨labels, s, hrun, by rw [hmgr]; exact hpublished, no_stale_rule_of_timely hrun⟩

/-- The request that reads the rule file of a root before the reload. -/
def oldReading : Reading where
  key := ruleKey "./public".toList [ruleFileName]
  mtime := some 1
  devMode := false
  parsed := parseVeysruleContent "deny ip 10.0.0.0/8".toList
    (beneath "./public".toList [ruleFileName]) false
  readIn := 0

/-- The states of that request while the cache is empty. -/
def raceAt (disk : Disk) (generation : ℕ) (clearing : Bool) (load : Load) : RaceState where
  disk := disk
  mgr := { generation }
  loads := Function.update (fun _ => .idle) (.request 0) load
  clearing := clearing
  clears := generation

/-- A request reads the old rules; then the file is deleted and the cache cleared; then the request
gets the new generation, finds nothing in the cache and keeps the old rules under that generation. -/
theorem stale_rule_after_reload : ∃ labels s,
    Runs (RaceStepIf fun _ _ => True)
      { disk := diskWith (ConfigManager.guardTree "deny ip 10.0.0.0/8") } labels s ∧
      s.disk = diskWith ConfigManager.bareTree ∧ ¬ NoStale s := by
  let old := diskWith (ConfigManager.guardTree "deny ip 10.0.0.0/8")
  let new := diskWith ConfigManager.bareTree
  have hread : readRuleFileBeneath (ConfigManager.guardTree "deny ip 10.0.0.0/8") [ruleFileName] =
      some ("deny ip 10.0.0.0/8".toList, some 1) := by
    decide
  have hparsed : oldReading.parsed.map ParsedRules.errors = some [] := by
    decide
  obtain ⟨parsed, hparsed, hclean⟩ := Option.map_eq_some_iff.mp hparsed
  have hstep : ∀ {s s' : RaceState} {label : RaceLabel}, RaceStep s label s' →
      Runs (RaceStepIf fun _ _ => True) s [label] s' :=
    fun h => .single ⟨_, rfl, trivial, h⟩
  have h1 : RaceStep { disk := old } (.read (.request 0)) (raceAt old 0 false (.read oldReading)) :=
    .read false ⟨rfl, fun h => by cases h⟩ hread
  have h2 : RaceStep (raceAt old 0 false (.read oldReading)) .edit
      (raceAt new 0 false (.read oldReading)) := .edit new
  have h3 : RaceStep (raceAt new 0 false (.read oldReading)) .bump
      (raceAt new 1 true (.read oldReading)) := .bump ⟨rfl, fun _ => rfl⟩
  have h4 : RaceStep (raceAt new 1 true (.read oldReading)) .clear
      (raceAt new 1 false (.read oldReading)) := .clear rfl
  have h5 : RaceStep (raceAt new 1 false (.read oldReading)) (.tag (.request 0))
      ((raceAt new 1 false (.read oldReading)).setLoad (.request 0)
        (.tagged oldReading ⟨1, 1⟩)) := .tag rfl
  have h6 : RaceStep ((raceAt new 1 false (.read oldReading)).setLoad (.request 0)
        (.tagged oldReading ⟨1, 1⟩)) (.lookup (.request 0))
      (((raceAt new 1 false (.read oldReading)).setLoad (.request 0)
        (.tagged oldReading ⟨1, 1⟩)).setLoad (.request 0) (.ready oldReading ⟨1, 1⟩)) :=
    .lookup (RaceState.loads_setLoad _ _ _)
  have h7 := RaceStep.insert (RaceState.loads_setLoad ((raceAt new 1 false
    (.read oldReading)).setLoad (.request 0) (.tagged oldReading ⟨1, 1⟩)) (.request 0)
      (.ready oldReading ⟨1, 1⟩))
  rw [RaceState.insert_of_clean hparsed hclean rfl] at h7
  refine ⟨_, _, (hstep h1).trans ((hstep h2).trans ((hstep h3).trans ((hstep h4).trans
    ((hstep h5).trans ((hstep h6).trans (hstep h7)))))), rfl, fun hnone => ?_⟩
  have hstale := hnone oldReading.key _ (AList.lookup_insert _) rfl
  simp only [Function.update_self] at hstale
  exact absurd hstale (by decide)

end Veysrs
