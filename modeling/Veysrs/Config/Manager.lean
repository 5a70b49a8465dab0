import Veysrs.Config.Rules
import Veysrs.Core.FileTree

/-!
# Validating and loading rule files

`validate_veysrule_tree`, `ConfigManager` and their readers of `config/veysrule.rs`.

**Two readers.**  The validator walks the tree and reads each rule file with `parse_veysrule_file`:
what cannot be read or is not text counts as an empty file, and a file that is too long as an error.
A request reads a rule file with `read_rule_file_beneath`, for which the first is a failure and the
second no matter.

**Where they agree.**  `validated_as_loaded_iff` says exactly when the validator reports nothing
about a file if and only if the loader takes it: the file is reached, can be read, is text, and is
not both too long and without errors.
-/

namespace Veysrs

open Core List

def ruleFileName : Str := ".veysrule".toList

/-- The files that are read: what a path names, and what lies beneath the directory it leads to. -/
structure Disk where
  entryAt : List Component → Option Entry
  treeAt : List Component → FileTree

/-! ## Reading a file by its path -/

/-- `parse_veysrule_file`, from what `fs::read` gives. -/
def parseVeysruleFile (content : Option Bytes) (fileName : Str) (isRoot : Bool) :
    Option ParsedRules :=
  match content.bind fromUtf8 with
  | none => some {}
  | some text =>
    if maxRuleFileBytes < (utf8 text).length then
      some { errors := [⟨fileName, 1,
        "rule file exceeds ".toList ++ decimal maxRuleFileBytes ++ " bytes".toList⟩] }
    else parseVeysruleContent text fileName isRoot

/-! ## The validator -/

/-- `root_config.is_some_and(|root| root == path)`. -/
def isRootConfig (rootConfig : Option Str) (path : Str) : Bool :=
  rootConfig.any fun root => components root = components path

/-- The errors the validator finds in a file of the tree; it reads rule files only, and not the root
rule file again. -/
def fileErrors (tree : FileTree) (rootDir : Str) (rootConfig : Option Str) (path : List Str) :
    Option (List ConfigParseError) :=
  if path.getLast? ≠ some ruleFileName ∨ isRootConfig rootConfig (beneath rootDir path) then some []
  else (parseVeysruleFile (tree.contentAt path) (beneath rootDir path) false).map ParsedRules.errors

/-- The errors of the root rule file, if there is one. -/
def rootErrors (disk : Disk) (rootConfig : Option Str) : Option (List ConfigParseError) :=
  match rootConfig with
  | none => some []
  | some path =>
    match disk.entryAt (components path) with
    | none => some []
    | some entry =>
      if entry.exists? then (parseVeysruleFile entry.read path true).map ParsedRules.errors
      else some []

/-- Nothing is returned if the parser panics at some file. -/
def validateVeysruleTree (disk : Disk) (rootDir : Str) (rootConfig : Option Str) :
    Option (List ConfigParseError) := do
  let errors ← rootErrors disk rootConfig
  let tree := disk.treeAt (components rootDir)
  tree.visit (fun errors path => (fileErrors tree rootDir rootConfig path).map (errors ++ ·)) errors

/-! ## The manager -/

structure CacheEntry where
  config : DirectoryConfig
  mtime : Option ℕ
  generation : ℕ
  deriving DecidableEq, Repr

/-- Equal paths are one key. -/
structure ConfigManager where
  cache : AssocMap (List Component) CacheEntry := ∅
  generation : ℕ := 0

variable {parsed : ParsedRules} {key : List Component} {mtime : Option ℕ} {content : Option Bytes}
    {isRoot : Bool} {fileName : Str}

namespace ConfigManager

/-- The counter has 64 bits. -/
def clearCache (mgr : ConfigManager) : ConfigManager :=
  { cache := ∅, generation := (mgr.generation + 1) % 2 ^ 64 }

/-- An entry of the generation; in development mode it must be as old as the file. -/
def cachedFor (mgr : ConfigManager) (generation : ℕ) (key : List Component) (devMode : Bool)
    (mtime : Option ℕ) : Option DirectoryConfig :=
  match mgr.cache.lookup key with
  | none => none
  | some entry =>
    if entry.generation = generation ∧
        (devMode = false ∨ entry.mtime = mtime ∧ mtime.isSome) then some entry.config
    else none

/-- What was parsed without an error is returned, and kept if the generation has not changed. -/
def storeFor (mgr : ConfigManager) (generation : ℕ) (key : List Component) (mtime : Option ℕ)
    (parsed : ParsedRules) : Option DirectoryConfig × ConfigManager :=
  if parsed.errors = [] then
    (some parsed.state.dir,
      if mgr.generation = generation then
        { mgr with cache := mgr.cache.insert key ⟨parsed.state.dir, mtime, generation⟩ }
      else mgr)
  else (none, mgr)

/-- A load that is not interrupted finds and keeps entries of the current generation. -/
def cached (mgr : ConfigManager) (key : List Component) (devMode : Bool) (mtime : Option ℕ) :
    Option DirectoryConfig := mgr.cachedFor mgr.generation key devMode mtime

def store (mgr : ConfigManager) (key : List Component) (mtime : Option ℕ) (parsed : ParsedRules) :
    Option DirectoryConfig × ConfigManager := mgr.storeFor mgr.generation key mtime parsed

lemma store_of_clean {mgr : ConfigManager} (h : parsed.errors = []) :
    mgr.store key mtime parsed = (some parsed.state.dir,
      { mgr with cache := mgr.cache.insert key ⟨parsed.state.dir, mtime, mgr.generation⟩ }) := by
  rw [store, storeFor, if_pos h, if_pos rfl]

lemma store_of_errors {mgr : ConfigManager} (h : parsed.errors ≠ []) :
    mgr.store key mtime parsed = (none, mgr) := by
  rw [store, storeFor, if_neg h]

/-- The second half of both loaders: the cache, or else the file, which is parsed only then. -/
def lookupOrParse (mgr : ConfigManager) (key : List Component) (devMode : Bool) (mtime : Option ℕ)
    (parsed : Option ParsedRules) : Option (Option DirectoryConfig × ConfigManager) :=
  match mgr.cached key devMode mtime with
  | some config => some (some config, mgr)
  | none => parsed.map (mgr.store key mtime)

/-- `load_dir_config`; nothing is returned if the parser panics. -/
def loadDirConfig (disk : Disk) (mgr : ConfigManager) (rulePath : Str) (devMode isRoot : Bool) :
    Option (Option DirectoryConfig × ConfigManager) :=
  let key := components rulePath
  match disk.entryAt key with
  | none => some (none, mgr)
  | some entry =>
    if entry.isSymlink then some (none, mgr)
    else mgr.lookupOrParse key devMode entry.modified
      (parseVeysruleFile entry.read rulePath isRoot)

end ConfigManager

/-- `read_rule_file_beneath`; the names are the normal components of the relative path. -/
def readRuleFileBeneath (tree : FileTree) (path : List Str) : Option (Str × Option ℕ) :=
  if path = [] then none
  else match tree.openBeneath path with
    | some ⟨.file (some bytes), mtime⟩ => (fromUtf8 bytes).map fun text => (text, mtime)
    | _ => none

/-- The key of a rule file beneath a root. -/
def ruleKey (rootDir : Str) (path : List Str) : List Component :=
  components rootDir ++ path.map .normal

namespace ConfigManager

def loadDirConfigBeneath (disk : Disk) (mgr : ConfigManager) (rootDir : Str) (path : List Str)
    (devMode isRoot : Bool) : Option (Option DirectoryConfig × ConfigManager) :=
  let key := ruleKey rootDir path
  match readRuleFileBeneath (disk.treeAt (components rootDir)) path with
  | none => some (none, mgr)
  | some (content, mtime) =>
    mgr.lookupOrParse key devMode mtime
      (parseVeysruleContent content (beneath rootDir path) isRoot)

/-- The walk of `preload_tree` at one file. -/
def preloadFile (disk : Disk) (rootConfigFile : Option Str) (rootDir : Str) (mgr : ConfigManager)
    (path : List Str) : Option ConfigManager :=
  if path.getLast? ≠ some ruleFileName ∨ isRootConfig rootConfigFile (beneath rootDir path) then
    some mgr
  else (loadDirConfigBeneath disk mgr rootDir path false false).map Prod.snd

/-- `load_dir_config` of the root rule file, if one is given. -/
def loadRootConfig (disk : Disk) (mgr : ConfigManager) (rootConfigFile : Option Str)
    (devMode : Bool) : Option (Option DirectoryConfig × ConfigManager) :=
  match rootConfigFile with
  | none => some (none, mgr)
  | some path => loadDirConfig disk mgr path devMode true

def preloadTree (disk : Disk) (mgr : ConfigManager) (rootConfigFile : Option Str) (rootDir : Str) :
    Option ConfigManager := do
  let (_, mgr) ← loadRootConfig disk mgr rootConfigFile false
  (disk.treeAt (components rootDir)).visit (preloadFile disk rootConfigFile rootDir) mgr

/-- The rules of one more file, if there are any. -/
def mergeFound (config : DirectoryConfig) (found : Option DirectoryConfig) : DirectoryConfig :=
  match found with
  | some child => config.merge child
  | none => config

/-- The rules of one directory on the way are merged into those before. -/
def mergeBeneath (disk : Disk) (rootDir : Str) (devMode : Bool)
    (sofar : DirectoryConfig × ConfigManager) (dir : List Str) :
    Option (DirectoryConfig × ConfigManager) := do
  let (found, mgr) ← loadDirConfigBeneath disk sofar.2 rootDir (dir ++ [ruleFileName]) devMode false
  return (mergeFound sofar.1 found, mgr)

/-- `get_config_for_dir`, for the normal components of a relative path. -/
def getConfigForDir (disk : Disk) (mgr : ConfigManager) (rootConfigFile : Option Str)
    (rootDir : Str) (relPath : List Str) (devMode : Bool) :
    Option (DirectoryConfig × ConfigManager) := do
  let (found, mgr) ← loadRootConfig disk mgr rootConfigFile devMode
  relPath.inits.foldlM (mergeBeneath disk rootDir devMode) (mergeFound {} found, mgr)

end ConfigManager

/-! ## Where the rules come from -/

/-- The rules of some text that parses without an error. -/
def Accepted (config : DirectoryConfig) : Prop := ∃ content fileName isRoot parsed,
  parseVeysruleContent content fileName isRoot = some parsed ∧ parsed.errors = [] ∧
    parsed.state.dir = config

/-- A file that cannot be read has the rules of an empty one. -/
lemma accepted_parseVeysruleFile (h : parseVeysruleFile content fileName isRoot = some parsed)
    (hc : parsed.errors = []) : Accepted parsed.state.dir := by
  rw [parseVeysruleFile] at h
  split at h
  · cases h
    exact ⟨[], fileName, isRoot, {}, rfl, rfl, rfl⟩
  · split_ifs at h
    · cases h
      cases hc
    · exact ⟨_, fileName, isRoot, parsed, h, hc, rfl⟩

namespace ConfigManager

/-- Every entry of the cache comes from a rule file. -/
def FromRules (mgr : ConfigManager) : Prop :=
  ∀ key entry, mgr.cache.lookup key = some entry → Accepted entry.config

lemma fromRules_empty : FromRules {} := by
  intro key entry h
  simp at h

section Loads

variable {disk : Disk} {mgr mgr' : ConfigManager} {rootDir : Str} {path : List Str} {devMode : Bool}
  {found : Option DirectoryConfig}

lemma fromRules_lookupOrParse {parsed : Option ParsedRules} (hm : mgr.FromRules)
    (hp : ∀ rules, parsed = some rules → rules.errors = [] → Accepted rules.state.dir)
    (h : mgr.lookupOrParse key devMode mtime parsed = some (found, mgr')) :
    mgr'.FromRules ∧ ∀ config, found = some config → Accepted config := by
  rw [lookupOrParse] at h
  split at h
  · rename_i config hc
    cases h
    refine ⟨hm, fun config hco => ?_⟩
    cases hco
    simp only [cached, cachedFor] at hc
    split at hc
    · cases hc
    · rename_i entry hen
      split_ifs at hc
      cases hc
      exact hm key entry hen
  · obtain ⟨rules, hr, hs⟩ := Option.map_eq_some_iff.mp h
    by_cases hcl : rules.errors = []
    · have ha := hp rules hr hcl
      rw [store_of_clean hcl] at hs
      cases hs
      refine ⟨fun other entry ho => ?_, fun config hco => by cases hco; exact ha⟩
      by_cases hk : other = key
      · subst hk
        simp only [AList.lookup_insert] at ho
        cases ho
        exact ha
      · exact hm other entry (by simpa only [AList.lookup_insert_ne hk] using ho)
    · rw [store_of_errors hcl] at hs
      cases hs
      exact ⟨hm, fun config hco => by cases hco⟩

lemma fromRules_loadRootConfig {rootConfigFile : Option Str} (hm : mgr.FromRules)
    (h : loadRootConfig disk mgr rootConfigFile devMode = some (found, mgr')) :
    mgr'.FromRules ∧ ∀ config, found = some config → Accepted config := by
  have hn : some (none, mgr) = some (found, mgr') →
      mgr'.FromRules ∧ ∀ config, found = some config → Accepted config := by
    intro h
    cases h
    exact ⟨hm, fun config hc => by cases hc⟩
  cases rootConfigFile with
  | none => exact hn h
  | some file =>
    simp only [loadRootConfig, loadDirConfig] at h
    split at h
    · exact hn h
    · split_ifs at h
      · exact hn h
      · exact fromRules_lookupOrParse hm (fun rules => accepted_parseVeysruleFile) h

lemma fromRules_loadDirConfigBeneath (hm : mgr.FromRules)
    (h : loadDirConfigBeneath disk mgr rootDir path devMode false = some (found, mgr')) :
    mgr'.FromRules ∧ ∀ config, found = some config → Accepted config := by
  simp only [loadDirConfigBeneath] at h
  split at h
  · cases h
    exact ⟨hm, fun config hc => by cases hc⟩
  · refine fromRules_lookupOrParse hm (fun rules hr hcl => ?_) h
    exact ⟨_, _, false, rules, hr, hcl, rfl⟩

/-- **What holds of no rules and is kept by the rules of one more file holds of the rules for a
directory.** -/
lemma getConfigForDir_induct {P : DirectoryConfig → Prop} (hem : P {})
    (hm : ∀ {config child}, P config → Accepted child → P (config.merge child))
    {rootConfigFile : Option Str} {config : DirectoryConfig} (hmgr : mgr.FromRules)
    (h : getConfigForDir disk mgr rootConfigFile rootDir path devMode = some (config, mgr')) :
    P config ∧ mgr'.FromRules := by
  have hf : ∀ {config : DirectoryConfig} {found : Option DirectoryConfig}, P config →
      (∀ child, found = some child → Accepted child) → P (mergeFound config found) := by
    intro config found hc ha
    cases found with
    | none => exact hc
    | some child => exact hm hc (ha child rfl)
  rw [getConfigForDir, Option.bind_eq_bind, Option.bind_eq_some_iff] at h
  obtain ⟨⟨root, first⟩, hr, hfo⟩ := h
  obtain ⟨hfi, ha⟩ := fromRules_loadRootConfig hmgr hr
  refine option_foldlM_keeps (I := fun sofar : DirectoryConfig × ConfigManager =>
    P sofar.1 ∧ sofar.2.FromRules) ?_ ⟨hf hem ha, hfi⟩ hfo
  rintro ⟨config, mgr⟩ after dir ⟨hc, hmgr⟩ hs
  rw [mergeBeneath, Option.bind_eq_bind, Option.bind_eq_some_iff] at hs
  obtain ⟨⟨child, next⟩, hl, haf⟩ := hs
  cases haf
  obtain ⟨hn, hch⟩ := fromRules_loadDirConfigBeneath hmgr hl
  exact ⟨hf hc hch, hn⟩

end Loads

end ConfigManager

/-! ## What the validator reports -/

/-- Every error names the file it is in. -/
lemma fileName_parseVeysruleContent {content : Str}
    (h : parseVeysruleContent content fileName isRoot = some parsed) :
    ∀ error ∈ parsed.errors, error.fileName = fileName := by
  refine option_foldlM_keeps (I := fun parsed : ParsedRules =>
    ∀ error ∈ parsed.errors, error.fileName = fileName) ?_ (by simp) h
  rintro before after ⟨line, number⟩ hb hs
  rw [parseStep] at hs
  split at hs <;> cases hs
  · exact hb
  · rw [forall_mem_append]
    exact ⟨hb, by simp⟩

lemma fileName_parseVeysruleFile (h : parseVeysruleFile content fileName isRoot = some parsed) :
    ∀ error ∈ parsed.errors, error.fileName = fileName := by
  rw [parseVeysruleFile] at h
  split at h
  · cases h
    simp
  · split_ifs at h
    · cases h
      simp
    · exact fileName_parseVeysruleContent h

/-- The same rules, with the errors said of a file by another name. -/
def ParsedRules.renamed (fileName : Str) (parsed : ParsedRules) : ParsedRules :=
  { parsed with errors := parsed.errors.map fun error => { error with fileName } }

/-- The name of a file is only for its errors. -/
lemma parseVeysruleContent_renamed (content fileName fileName' : Str) (isRoot : Bool) :
    parseVeysruleContent content fileName' isRoot =
      (parseVeysruleContent content fileName isRoot).map (ParsedRules.renamed fileName') := by
  refine option_foldlM_map_comm (r := ParsedRules.renamed fileName') ?_ _ {}
  rintro parsed ⟨line, number⟩
  simp only [parseStep, ParsedRules.renamed]
  cases parseLine isRoot parsed.state line with
  | ok state => rfl
  | error failure =>
    cases failure with
    | message text => simp [ParsedRules.renamed]
    | panic => rfl

lemma parseVeysruleFile_clean_congr (content : Option Bytes) (fileName fileName' : Str)
    (isRoot : Bool) :
    (parseVeysruleFile content fileName' isRoot).map ParsedRules.errors = some [] ↔
      (parseVeysruleFile content fileName isRoot).map ParsedRules.errors = some [] := by
  rw [parseVeysruleFile, parseVeysruleFile]
  split
  · rfl
  · split_ifs
    · simp
    · rw [parseVeysruleContent_renamed _ fileName]
      cases parseVeysruleContent _ fileName isRoot with
      | none => rfl
      | some parsed => simp [ParsedRules.renamed]

section Reports

variable {disk : Disk} {rootDir : Str} {rootConfig : Option Str} {path : List Str}

variable {errors : List ConfigParseError}

lemma fileName_rootErrors (h : rootErrors disk rootConfig = some errors) :
    ∀ error ∈ errors, isRootConfig rootConfig error.fileName = true := by
  simp only [rootErrors] at h
  split at h
  · cases h
    simp
  · split at h
    · cases h
      simp
    · split_ifs at h
      · obtain ⟨parsed, hp, rfl⟩ := Option.map_eq_some_iff.mp h
        intro error her
        rw [fileName_parseVeysruleFile hp error her]
        simp [isRootConfig]
      · cases h
        simp

lemma fileName_fileErrors {tree : FileTree}
    (h : fileErrors tree rootDir rootConfig path = some errors) :
    ∀ error ∈ errors, error.fileName = beneath rootDir path := by
  rw [fileErrors] at h
  split_ifs at h
  · cases h
    simp
  · obtain ⟨parsed, hp, rfl⟩ := Option.map_eq_some_iff.mp h
    exact fileName_parseVeysruleFile hp

/-- The validator returns unless the parser panics, and then has the errors of every file. -/
lemma mem_validateVeysruleTree (h : validateVeysruleTree disk rootDir rootConfig = some errors) :
    ∃ first, rootErrors disk rootConfig = some first ∧ ∀ error, error ∈ errors ↔ error ∈ first ∨
      ∃ path ∈ (disk.treeAt (components rootDir)).files, ∃ found,
        fileErrors (disk.treeAt (components rootDir)) rootDir rootConfig path = some found ∧
          error ∈ found := by
  rw [validateVeysruleTree, Option.bind_eq_bind, Option.bind_eq_some_iff] at h
  obtain ⟨first, hf, hv⟩ := h
  simp only [FileTree.visit_eq_foldlM] at hv
  exact ⟨first, hf, mem_of_option_foldlM_append hv⟩

lemma isSome_fileErrors (h : (validateVeysruleTree disk rootDir rootConfig).isSome = true)
    (hp : path ∈ (disk.treeAt (components rootDir)).files) :
    (fileErrors (disk.treeAt (components rootDir)) rootDir rootConfig path).isSome = true := by
  rw [Option.isSome_iff_exists] at h
  obtain ⟨errors, her⟩ := h
  rw [validateVeysruleTree, Option.bind_eq_bind, Option.bind_eq_some_iff] at her
  obtain ⟨first, -, hv⟩ := her
  simp only [FileTree.visit_eq_foldlM] at hv
  exact option_foldlM_append_isSome.mp (by rw [hv]; rfl) path hp

/-- The validator has nothing to report if no file has errors. -/
lemma validateVeysruleTree_eq_nil_iff :
    validateVeysruleTree disk rootDir rootConfig = some [] ↔
      rootErrors disk rootConfig = some [] ∧ ∀ path ∈ (disk.treeAt (components rootDir)).files,
        fileErrors (disk.treeAt (components rootDir)) rootDir rootConfig path = some [] := by
  constructor
  · intro h
    obtain ⟨first, hfi, hm⟩ := mem_validateVeysruleTree h
    have hn : first = [] := eq_nil_iff_forall_not_mem.mpr fun error her =>
      not_mem_nil ((hm error).mpr (.inl her))
    refine ⟨hn ▸ hfi, fun path hp => ?_⟩
    obtain ⟨found, hf⟩ := Option.isSome_iff_exists.mp (isSome_fileErrors (by rw [h]; rfl) hp)
    have hn : found = [] := eq_nil_iff_forall_not_mem.mpr fun error her =>
      not_mem_nil ((hm error).mpr (.inr ⟨path, hp, found, hf, her⟩))
    exact hn ▸ hf
  · rintro ⟨hr, hfil⟩
    have hs : (validateVeysruleTree disk rootDir rootConfig).isSome = true := by
      rw [validateVeysruleTree, hr, Option.bind_eq_bind]
      simp only [FileTree.visit_eq_foldlM]
      exact option_foldlM_append_isSome.mpr fun path hp => by rw [hfil path hp]; rfl
    obtain ⟨errors, herr⟩ := Option.isSome_iff_exists.mp hs
    rw [herr]
    obtain ⟨first, hfi, hm⟩ := mem_validateVeysruleTree herr
    cases hr.symm.trans hfi
    refine congrArg some (eq_nil_iff_forall_not_mem.mpr fun error her => ?_)
    rcases (hm error).mp her with hin | ⟨path, hp, found, hf, hin⟩
    · cases hin
    · cases (hfil path hp).symm.trans hf
      cases hin

end Reports

/-! ## Validated and loaded -/

section Agreement

variable (disk : Disk) (rootDir : Str) (rootConfig : Option Str) (path : List Str)

/-- The validator returns, and no error it returns is about the file. -/
def ReportsNothing : Prop := ∃ errors, validateVeysruleTree disk rootDir rootConfig = some errors ∧
  ∀ error ∈ errors, error.fileName ≠ beneath rootDir path

/-- With nothing in the cache, the loader returns this configuration for the file. -/
def LoadsCold (devMode : Bool) (config : DirectoryConfig) : Prop := ∃ mgr,
  ConfigManager.loadDirConfigBeneath disk {} rootDir path devMode false = some (some config, mgr)

/-- The validator has this configuration from the file. -/
def ValidatorParses (config : DirectoryConfig) : Prop := ∃ parsed,
  parseVeysruleFile ((disk.treeAt (components rootDir)).contentAt path) (beneath rootDir path)
    false = some parsed ∧ parsed.state.dir = config

/-- What is validated is what is loaded. -/
def ValidatedAsLoaded (devMode : Bool) : Prop :=
  (ReportsNothing disk rootDir rootConfig path ↔ ∃ config, LoadsCold disk rootDir path devMode config) ∧
    ∀ config, LoadsCold disk rootDir path devMode config → ValidatorParses disk rootDir path config

/-- The text the loader reads. -/
def ruleText : Option Str :=
  (readRuleFileBeneath (disk.treeAt (components rootDir)) path).map Prod.fst

/-- The text parses without an error. -/
def Clean (text : Str) : Prop := ∃ parsed,
  parseVeysruleContent text (beneath rootDir path) false = some parsed ∧ parsed.errors = []

end Agreement

section Agreement

variable {disk : Disk} {rootDir : Str} {rootConfig : Option Str} {path : List Str}

/-- A text is read from a file that is reached, can be read and is encoded properly. -/
lemma ruleText_eq_some_iff {text : Str} (hne : path ≠ []) :
    ruleText disk rootDir path = some text ↔
      (disk.treeAt (components rootDir)).Reached path ∧
        (disk.treeAt (components rootDir)).isFile path = true ∧
          ((disk.treeAt (components rootDir)).contentAt path).bind fromUtf8 = some text := by
  rw [ruleText, readRuleFileBeneath, if_neg hne, FileTree.contentAt]
  constructor
  · intro h
    split at h
    · rename_i bytes mtime ho
      obtain ⟨hr, hl⟩ := FileTree.openBeneath_eq_some_iff.mp ho
      refine ⟨hr, FileTree.isFile_iff.mpr ⟨_, _, hl⟩, ?_⟩
      rw [hl]
      cases hd : fromUtf8 bytes with
      | none => rw [hd] at h; cases h
      | some decoded =>
        rw [hd] at h
        cases h
        exact hd
    · cases h
  · rintro ⟨hr, hf, hd⟩
    obtain ⟨content, mtime, hl⟩ := FileTree.isFile_iff.mp hf
    rw [hl] at hd
    rw [FileTree.openBeneath_eq_some_iff.mpr ⟨hr, hl⟩]
    cases content with
    | none => cases hd
    | some bytes =>
      change fromUtf8 bytes = some text at hd
      simp only [hd]
      rfl

/-- The loader takes what is read and is clean. -/
lemma loadsCold_iff {devMode : Bool} {config : DirectoryConfig} :
    LoadsCold disk rootDir path devMode config ↔ ∃ text parsed,
      ruleText disk rootDir path = some text ∧
        parseVeysruleContent text (beneath rootDir path) false = some parsed ∧
          parsed.errors = [] ∧ parsed.state.dir = config := by
  rw [ruleText]
  constructor
  · rintro ⟨mgr, h⟩
    rw [ConfigManager.loadDirConfigBeneath] at h
    split at h
    · cases h
    · rename_i content mtime hr
      obtain ⟨parsed, hp, hs⟩ := Option.map_eq_some_iff.mp h
      by_cases hc : parsed.errors = []
      · rw [ConfigManager.store_of_clean hc] at hs
        cases hs
        exact ⟨content, parsed, by rw [hr]; rfl, hp, hc, rfl⟩
      · rw [ConfigManager.store_of_errors hc] at hs
        cases hs
  · rintro ⟨text, parsed, ht, hp, hc, rfl⟩
    obtain ⟨⟨content, mtime⟩, hr, rfl⟩ := Option.map_eq_some_iff.mp ht
    refine ⟨(ConfigManager.store {} (ruleKey rootDir path) mtime parsed).2, ?_⟩
    rw [ConfigManager.loadDirConfigBeneath, hr]
    simp only [ConfigManager.lookupOrParse, ConfigManager.cached, ConfigManager.cachedFor,
      AList.lookup_empty, hp, Option.map_some, ConfigManager.store_of_clean hc]

/-- The names of a file of the tree can be told from its path. -/
lemma simpleName_of_isFile {tree : FileTree} (h : tree.isFile path = true) :
    ∀ name ∈ path, SimpleName name :=
  fun name hn => (tree.named path (FileTree.mem_keys_of_isFile h) name hn).1

/-- Nothing to report depends on the root as a path only. -/
lemma validateVeysruleTree_eq_nil_congr {rootDir' : Str}
    (h : components rootDir' = components rootDir) :
    validateVeysruleTree disk rootDir' rootConfig = some [] ↔
      validateVeysruleTree disk rootDir rootConfig = some [] := by
  rw [validateVeysruleTree_eq_nil_iff, validateVeysruleTree_eq_nil_iff, h]
  refine and_congr_right fun _ => forall₂_congr fun path hp => ?_
  obtain ⟨-, -, hf⟩ := FileTree.mem_files.mp hp
  have hs : components (beneath rootDir' path) = components (beneath rootDir path) := by
    rw [components_beneath _ (simpleName_of_isFile hf),
      components_beneath _ (simpleName_of_isFile hf), h]
  rw [fileErrors, fileErrors, isRootConfig, isRootConfig, hs]
  split_ifs
  · rfl
  · exact parseVeysruleFile_clean_congr _ _ _ _

/-- A report about a rule file comes from that file. -/
lemma reportsNothing_iff (hfi : (disk.treeAt (components rootDir)).isFile path = true)
    (hn : path.getLast? = some ruleFileName)
    (hroot : isRootConfig rootConfig (beneath rootDir path) = false) :
    ReportsNothing disk rootDir rootConfig path ↔
      (validateVeysruleTree disk rootDir rootConfig).isSome = true ∧
        ((disk.treeAt (components rootDir)).Reached path → ∃ parsed,
          parseVeysruleFile ((disk.treeAt (components rootDir)).contentAt path)
            (beneath rootDir path) false = some parsed ∧ parsed.errors = []) := by
  have hne : path ≠ [] := by
    rintro rfl
    cases hn
  have hown : fileErrors (disk.treeAt (components rootDir)) rootDir rootConfig path =
      (parseVeysruleFile ((disk.treeAt (components rootDir)).contentAt path) (beneath rootDir path)
        false).map ParsedRules.errors := by
    rw [fileErrors, if_neg (by simp [hn, hroot])]
  constructor
  · rintro ⟨errors, hv, hno⟩
    have hr : (validateVeysruleTree disk rootDir rootConfig).isSome = true := by
      rw [hv]
      rfl
    refine ⟨hr, fun hre => ?_⟩
    have hvi := FileTree.mem_files.mpr ⟨hne, hre, hfi⟩
    obtain ⟨first, -, hm⟩ := mem_validateVeysruleTree hv
    obtain ⟨found, hf⟩ := Option.isSome_iff_exists.mp (isSome_fileErrors hr hvi)
    obtain ⟨parsed, hp, rfl⟩ := Option.map_eq_some_iff.mp (hown.symm.trans hf)
    refine ⟨parsed, hp, eq_nil_iff_forall_not_mem.mpr fun error her => ?_⟩
    exact hno error ((hm error).mpr (.inr ⟨path, hvi, _, hf, her⟩))
      (fileName_parseVeysruleFile hp error her)
  · rintro ⟨hr, hc⟩
    obtain ⟨errors, hv⟩ := Option.isSome_iff_exists.mp hr
    refine ⟨errors, hv, fun error her hs => ?_⟩
    obtain ⟨first, hfir, hm⟩ := mem_validateVeysruleTree hv
    rcases (hm error).mp her with hin | ⟨other, hvi, found, hf, hin⟩
    · -- the root rule file goes by another name
      have hro := fileName_rootErrors hfir error hin
      rw [hs, hroot] at hro
      cases hro
    · obtain ⟨-, hre, ho⟩ := FileTree.mem_files.mp hvi
      have hs' := (fileName_fileErrors hf error hin).symm.trans hs
      obtain rfl := beneath_injective (simpleName_of_isFile ho) (simpleName_of_isFile hfi) hs'
      obtain ⟨parsed, hp, hnil⟩ := hc hre
      rw [hown, hp] at hf
      cases hf
      rw [hnil] at hin
      exact not_mem_nil hin

/-- What the validator makes of a text that can be read. -/
lemma parseVeysruleFile_clean_iff {text : Str} (ht : content.bind fromUtf8 = some text) :
    parseVeysruleFile content fileName isRoot = some parsed ∧ parsed.errors = [] ↔
      (utf8 text).length ≤ maxRuleFileBytes ∧
        parseVeysruleContent text fileName isRoot = some parsed ∧ parsed.errors = [] := by
  rw [parseVeysruleFile, ht]
  simp only
  split_ifs with hl
  · constructor
    · rintro ⟨hp, hn⟩
      cases hp
      cases hn
    · rintro ⟨hs, -⟩
      omega
  · simp only [Nat.not_lt.mp hl, true_and]

/-- **What is validated is what is loaded, exactly if** the file can be loaded at all and is not a
file of clean rules that is too long; where the validator panics, if the file has no clean rules. -/
theorem validated_as_loaded_iff (devMode : Bool)
    (hfile : (disk.treeAt (components rootDir)).isFile path = true)
    (hname : path.getLast? = some ruleFileName)
    (hroot : isRootConfig rootConfig (beneath rootDir path) = false) :
    ValidatedAsLoaded disk rootDir rootConfig path devMode ↔
      if (validateVeysruleTree disk rootDir rootConfig).isSome then
        ∃ text, ruleText disk rootDir path = some text ∧
          (Clean rootDir path text → (utf8 text).length ≤ maxRuleFileBytes)
      else ∀ text, ruleText disk rootDir path = some text → ¬ Clean rootDir path text := by
  have hne : path ≠ [] := by
    rintro rfl
    cases hname
  have hreports := reportsNothing_iff hfile hname hroot
  have hloads : (∃ config, LoadsCold disk rootDir path devMode config) ↔
      ∃ text, ruleText disk rootDir path = some text ∧ Clean rootDir path text := by
    simp only [loadsCold_iff, Clean]
    constructor
    · rintro ⟨config, text, parsed, htext, hparsed, hclean, -⟩
      exact ⟨text, htext, parsed, hparsed, hclean⟩
    · rintro ⟨text, htext, parsed, hparsed, hclean⟩
      exact ⟨_, text, parsed, htext, hparsed, hclean, rfl⟩
  rw [ValidatedAsLoaded, hreports, hloads]
  split_ifs with hreturns
  · simp only [hreturns, true_and]
    constructor
    · rintro ⟨hiff, -⟩
      cases htext : ruleText disk rootDir path with
      | none =>
        -- what is not read counts as an empty file
        have hempty : (disk.treeAt (components rootDir)).Reached path → ∃ parsed,
            parseVeysruleFile ((disk.treeAt (components rootDir)).contentAt path)
              (beneath rootDir path) false = some parsed ∧ parsed.errors = [] := by
          intro hreached
          cases hdecode : ((disk.treeAt (components rootDir)).contentAt path).bind fromUtf8 with
          | none => exact ⟨{}, by rw [parseVeysruleFile, hdecode], rfl⟩
          | some text =>
            rw [(ruleText_eq_some_iff hne).mpr ⟨hreached, hfile, hdecode⟩] at htext
            cases htext
        obtain ⟨text, hread, -⟩ := hiff.mp hempty
        rw [htext] at hread
        cases hread
      | some text =>
        refine ⟨text, rfl, fun hclean => ?_⟩
        obtain ⟨hreached, -, hdecode⟩ := (ruleText_eq_some_iff hne).mp htext
        obtain ⟨parsed, hparsed⟩ := hiff.mpr ⟨text, htext, hclean⟩ hreached
        exact ((parseVeysruleFile_clean_iff hdecode).mp hparsed).1
    · rintro ⟨text, htext, hshort⟩
      obtain ⟨hreached, -, hdecode⟩ := (ruleText_eq_some_iff hne).mp htext
      refine ⟨⟨fun h => ?_, ?_⟩, fun config hload => ?_⟩
      · obtain ⟨parsed, hparsed⟩ := h hreached
        exact ⟨text, htext, parsed, ((parseVeysruleFile_clean_iff hdecode).mp hparsed).2⟩
      · rintro ⟨text', htext', hclean⟩ -
        cases htext.symm.trans htext'
        obtain ⟨parsed, hparsed⟩ := id hclean
        exact ⟨parsed, (parseVeysruleFile_clean_iff hdecode).mpr ⟨hshort hclean, hparsed⟩⟩
      · obtain ⟨text', parsed, htext', hparsed, hclean, rfl⟩ := loadsCold_iff.mp hload
        cases htext.symm.trans htext'
        have hlen := hshort ⟨parsed, hparsed, hclean⟩
        exact ⟨parsed, ((parseVeysruleFile_clean_iff hdecode).mpr ⟨hlen, hparsed, hclean⟩).1, rfl⟩
  · simp only [hreturns, Bool.false_eq_true, false_and, false_iff, not_exists, not_and]
    constructor
    · rintro ⟨hnone, -⟩
      exact hnone
    · intro hnone
      refine ⟨hnone, fun config hload => ?_⟩
      obtain ⟨text, parsed, htext, hparsed, hclean, -⟩ := loadsCold_iff.mp hload
      exact absurd ⟨parsed, hparsed, hclean⟩ (hnone text htext)

end Agreement

/-! ### Samples -/

def openDir : Entry := ⟨.dir true true, none⟩

def fileOf (content : Bytes) : Entry := ⟨.file (some content), some 1⟩

/-- A document root with a rule file in a directory. -/
def shopTree : FileTree where
  entries := ⟨[⟨[], openDir⟩, ⟨["shop".toList], openDir⟩,
    ⟨["shop".toList, ruleFileName], fileOf (utf8 "autoindex on".toList)⟩],
    by rw [List.NodupKeys]; decide⟩
  named := by decide

/-- A document root whose rule file is one byte that is no text. -/
def brokenTree : FileTree where
  entries := ⟨[⟨[], openDir⟩, ⟨[ruleFileName], fileOf [0xff]⟩], by rw [List.NodupKeys]; decide⟩
  named := by decide

/-- Every directory holds the same tree, and there is no root rule file. -/
def diskWith (tree : FileTree) : Disk where
  entryAt _ := none
  treeAt _ := tree

theorem validated_as_loaded_shop :
    ValidatedAsLoaded (diskWith shopTree) "./public".toList (some "./.veysrule".toList)
      ["shop".toList, ruleFileName] false := by
  refine (validated_as_loaded_iff false rfl rfl (by decide)).mpr ?_
  rw [if_pos (by decide)]
  exact ⟨"autoindex on".toList, by decide, fun _ => by decide⟩

/-- The validator passes over a rule file that is no text, and the loader has nothing for it. -/
theorem broken_rule_file_reported_clean :
    validateVeysruleTree (diskWith brokenTree) "./public".toList none = some [] ∧
      ConfigManager.loadDirConfigBeneath (diskWith brokenTree) {} "./public".toList [ruleFileName]
        false false = some (none, {}) ∧
      ¬ ValidatedAsLoaded (diskWith brokenTree) "./public".toList none [ruleFileName] false := by
  have hvalidate : validateVeysruleTree (diskWith brokenTree) "./public".toList none = some [] := by
    decide
  have hload : ConfigManager.loadDirConfigBeneath (diskWith brokenTree) {} "./public".toList
      [ruleFileName] false false = some (none, {}) := rfl
  refine ⟨hvalidate, hload, ?_⟩
  rintro ⟨hiff, -⟩
  obtain ⟨config, mgr, hloads⟩ := hiff.mp ⟨[], hvalidate, by simp⟩
  rw [hload] at hloads
  cases hloads

end Veysrs
