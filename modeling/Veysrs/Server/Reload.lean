import Mathlib.Data.Option.Basic
import Veysrs.Config.Manager

/-!
# Starting and reloading

`run_server` of `main.rs` and `Server::load_runtime_state` of `server/listener.rs`.  Both put the
configuration together from the command line and the root rule file.  At the start an option of the
command line wins; at a reload the file wins, and only what the file leaves at its default is taken
from the running server.

**One setting.**  The two ways agree unless the option and the file give different values and the
value of the file is not the default (`keepActive_eq_iff`).

**All of them.**  The host, the workers and the mode are no settings of a file
(`binding_parseVeysruleContent`), so the first two are kept and the mode is lost.  A reload also
validates the tree, which the start does not.  `reload_noop_iff` puts this together.
-/

namespace Veysrs

open Core

/-! ## The command line -/

/-- What is left out is the place of the process id. -/
structure CliOptions where
  host : Option Str := none
  port : Option ℕ := none
  root : Option Str := none
  config : Option Str := none
  workers : Option ℕ := none
  maxConnections : Option ℕ := none
  maxRequestSize : Option ℕ := none
  dev : Bool := false
  deriving DecidableEq, Repr

/-- The options with a value.  A number that cannot be read is passed over. -/
def valueOptions : List (String × (Str → CliOptions → CliOptions)) := [
  ("--host", fun value cli => { cli with host := some value }),
  ("--port", fun value cli => { cli with port := (parseUnsigned (2 ^ 16) value).or cli.port }),
  ("--root", fun value cli => { cli with root := some value }),
  ("--config", fun value cli => { cli with config := some value }),
  ("--workers", fun value cli => { cli with workers := (parseUnsigned (2 ^ 64) value).or cli.workers }),
  ("--max-connections", fun value cli =>
    { cli with maxConnections := (parseUnsigned (2 ^ 64) value).or cli.maxConnections }),
  ("--max-request-size", fun value cli =>
    { cli with maxRequestSize := (parseUnsigned (2 ^ 64) value).or cli.maxRequestSize }),
  ("--pid-file", fun _ cli => cli)]

/-- An argument that takes no value. -/
def CliOptions.flag (arg : Str) (cli : CliOptions) : CliOptions :=
  if arg = "--dev".toList then { cli with dev := true } else cli

/-- The loop over the arguments.  An option without its value at the end is passed over. -/
def readArgs : List Str → CliOptions → CliOptions
  | [], cli => cli
  | [arg], cli => cli.flag arg
  | arg :: value :: rest, cli =>
    match valueOptions.find? fun option => option.1.toList = arg with
    | some (_, set) => readArgs rest (set value cli)
    | none => readArgs (value :: rest) (cli.flag arg)

/-! ## The server -/

/-- What the server finds.  `binds` is `TcpListener::bind`; `fromPemWithVhosts` makes an acceptor
from the certificates. -/
structure ServerEnv (τ : Type) where
  disk : Disk
  binds : Str → ℕ → Bool
  fromPemWithVhosts : Str → Str → List VhostConfig → Except RuleError τ

structure RuntimeState (τ : Type) where
  config : ServerConfig
  tlsAcceptor : Option τ

section Server

variable {τ : Type}

def buildTlsAcceptor (env : ServerEnv τ) (config : ServerConfig) : Except RuleError (Option τ) :=
  if config.tlsEnabled then
    match config.tlsCertificate, config.tlsPrivateKey with
    | none, _ => refuse "TLS_CERTIFICATE is required when TLS_ENABLED is true"
    | some _, none => refuse "TLS_PRIVATE_KEY is required when TLS_ENABLED is true"
    | some certificate, some privateKey =>
      (env.fromPemWithVhosts certificate privateKey config.vhosts).map some
  else .ok none

/-- `parse_veysrule_file` of the root rule file. -/
def parseRootFile (disk : Disk) (path : Str) : Option ParsedRules :=
  parseVeysruleFile ((disk.entryAt (components path)).bind Entry.read) path true

/-- The configuration of the root rule file, without which nothing works. -/
def rootFileConfig (disk : Disk) (path : Str) : Except RuleError ServerConfig :=
  match parseRootFile disk path with
  | none => .error .panic
  | some parsed =>
    if parsed.errors = [] then .ok { parsed.state.server with configFile := path }
    else .error (.message (decimal parsed.errors.length ++ " configuration error(s)".toList))

/-- The command line wins. -/
def CliOptions.override (cli : CliOptions) (config : ServerConfig) : ServerConfig :=
  { config with
    host := cli.host.getD config.host
    port := cli.port.getD config.port
    rootDir := cli.root.getD config.rootDir
    workers := cli.workers.getD config.workers
    maxConnections := cli.maxConnections.getD config.maxConnections
    maxRequestSize := cli.maxRequestSize.getD config.maxRequestSize
    devMode := cli.dev }

def CliOptions.configFile (cli : CliOptions) : Str :=
  cli.config.getD ({} : ServerConfig).configFile

/-- The configuration the server is started with. -/
def startConfig (disk : Disk) (cli : CliOptions) : Except RuleError ServerConfig := do
  let config ← if (disk.entryAt (components cli.configFile)).any Entry.exists? then
      rootFileConfig disk cli.configFile
    else .ok { configFile := cli.configFile }
  return cli.override config

/-- `run_server` with `Server::listen`, up to the loop that accepts connections; nothing is returned
if it does not get there. -/
def runServer (env : ServerEnv τ) (args : List Str) : Option (RuntimeState τ) :=
  if "--help".toList ∈ args ∨ "-h".toList ∈ args ∨ "--version".toList ∈ args ∨ "-v".toList ∈ args then
    none
  else do
    let config ← (startConfig env.disk (readArgs args.tail {})).toOption
    guard (env.binds config.host config.port = true)
    -- a pool needs a worker
    guard (config.workers ≠ 0)
    let tlsAcceptor ← (buildTlsAcceptor env config).toOption
    let _ ← ConfigManager.preloadTree env.disk {} (some config.configFile) config.rootDir
    return { config, tlsAcceptor }

/-- A value equal to the default gives way to the active one. -/
def keepActive {α β : Type} [DecidableEq β] (view : α → β) (default active value : α) : α :=
  if view value = view default ∧ view active ≠ view default then active else value

/-- What the file leaves at its default is taken from the active configuration. -/
def mergeActive (active config : ServerConfig) : ServerConfig :=
  { config with
    host := if config.host = ({} : ServerConfig).host then active.host else config.host
    port := keepActive id ({} : ServerConfig).port active.port config.port
    rootDir := keepActive components ({} : ServerConfig).rootDir active.rootDir config.rootDir
    workers := keepActive id ({} : ServerConfig).workers active.workers config.workers
    maxConnections := keepActive id ({} : ServerConfig).maxConnections active.maxConnections
      config.maxConnections
    maxRequestSize := keepActive id ({} : ServerConfig).maxRequestSize active.maxRequestSize
      config.maxRequestSize }

/-- The checks of a reload before the certificates are loaded. -/
def checkReload (disk : Disk) (active config : ServerConfig) : Except RuleError Unit :=
  if config.host ≠ active.host ∨ config.port ≠ active.port then
    refuse "runtime reload cannot change the bound host or port; restart required"
  else match validateVeysruleTree disk config.rootDir (some config.configFile) with
    | none => .error .panic
    | some [] => .ok ()
    | some errors =>
      .error (.message (decimal errors.length ++ " VeyRule validation error(s)".toList))

def loadRuntimeState (env : ServerEnv τ) (active : ServerConfig) :
    Except RuleError (RuntimeState τ) := do
  let config ← rootFileConfig env.disk active.configFile
  let config := mergeActive active config
  checkReload env.disk active config
  let tlsAcceptor ← buildTlsAcceptor env config
  return { config, tlsAcceptor }

end Server

/-! ## One setting -/

/-- The option is not given, or gives what the file has, or the file has the default. -/
def Agrees {α β : Type} (view : α → β) (default : α) (option : Option α) (value : α) : Prop :=
  ∀ given, option = some given → view given = view value ∨ view value = view default

/-- **The two ways to put a setting together agree** if the option agrees with the file. -/
lemma keepActive_eq_iff {α β : Type} [DecidableEq β] (view : α → β) (default : α)
    (option : Option α) (value : α) :
    view (keepActive view default (option.getD value) value) = view (option.getD value) ↔
      Agrees view default option value := by
  cases option with
  | none => simp [keepActive, Agrees]
  | some given =>
    rw [keepActive]
    split_ifs with h
    · simp [Agrees, h.1]
    · constructor
      · rintro hs given' ⟨⟩
        exact .inl hs.symm
      · intro ha
        rcases ha given rfl with hs | hd
        · exact hs.symm
        · rw [hd]
          by_contra hne
          exact h ⟨hd, fun heq => hne heq.symm⟩

/-- A setting the file does not have is kept. -/
lemma keepActive_default {α : Type} [DecidableEq α] (default active : α) :
    keepActive id default active default = active := by
  rw [keepActive]
  split_ifs with h
  · rfl
  · by_contra hne
    exact h ⟨rfl, fun heq => hne heq.symm⟩

/-! ## What the two ways read -/

section Reload

variable {τ : Type} {env : ServerEnv τ} {args : List Str} {started : RuntimeState τ}

/-- A file that is not there has the defaults. -/
lemma rootFileConfig_of_missing {disk : Disk} {path : Str}
    (h : (disk.entryAt (components path)).any Entry.exists? ≠ true) :
    rootFileConfig disk path = .ok { configFile := path } := by
  have hr : (disk.entryAt (components path)).bind Entry.read = none := by
    cases hen : disk.entryAt (components path) with
    | none => rfl
    | some entry =>
      rw [hen] at h
      exact Entry.read_of_not_exists h
  rw [rootFileConfig, parseRootFile, hr]
  rfl

/-- The start reads the file as a reload does. -/
lemma startConfig_eq (disk : Disk) (cli : CliOptions) :
    startConfig disk cli = (rootFileConfig disk cli.configFile).map cli.override := by
  rw [startConfig]
  split_ifs with h
  · cases rootFileConfig disk cli.configFile with
    | error failure => rfl
    | ok config => rfl
  · rw [rootFileConfig_of_missing h]
    rfl

/-- **No rule file sets the host, the workers or the mode.** -/
lemma binding_rootFileConfig {disk : Disk} {path : Str} {config : ServerConfig}
    (h : rootFileConfig disk path = .ok config) :
    SameBinding config { configFile := path } := by
  rw [rootFileConfig] at h
  split at h
  · cases h
  · rename_i parsed hp
    split_ifs at h
    cases h
    rw [parseRootFile, parseVeysruleFile] at hp
    split at hp
    · cases hp
      exact ⟨rfl, rfl, rfl, rfl⟩
    · split_ifs at hp
      · cases hp
        exact ⟨rfl, rfl, rfl, rfl⟩
      · obtain ⟨hh, hw, hm, -⟩ := binding_parseVeysruleContent hp
        exact ⟨hh, hw, hm, rfl⟩

/-- What is known of a server that was started. -/
lemma runServer_eq_some (h : runServer env args = some started) : ∃ file,
    rootFileConfig env.disk (readArgs args.tail {}).configFile = .ok file ∧
      started.config = (readArgs args.tail {}).override file ∧
      buildTlsAcceptor env started.config = .ok started.tlsAcceptor := by
  rw [runServer] at h
  split_ifs at h
  simp only [startConfig_eq, Option.bind_eq_bind, Option.bind_eq_some_iff] at h
  obtain ⟨config, hc, -, -, -, -, tls, ht, -, -, hs⟩ := h
  cases hs
  cases hf : rootFileConfig env.disk (readArgs args.tail {}).configFile with
  | error failure => rw [hf] at hc; cases hc
  | ok file =>
    rw [hf] at hc
    cases hc
    refine ⟨file, rfl, rfl, ?_⟩
    cases hb : buildTlsAcceptor env ((readArgs args.tail {}).override file) with
    | error failure => rw [hb] at ht; cases ht
    | ok tls' =>
      rw [hb] at ht
      cases ht
      rfl

/-- The certificates are those of the file. -/
lemma buildTlsAcceptor_congr {config config' : ServerConfig}
    (hen : config'.tlsEnabled = config.tlsEnabled)
    (hc : config'.tlsCertificate = config.tlsCertificate)
    (hk : config'.tlsPrivateKey = config.tlsPrivateKey) (hv : config'.vhosts = config.vhosts) :
    buildTlsAcceptor env config' = buildTlsAcceptor env config := by
  rw [buildTlsAcceptor, buildTlsAcceptor, hen, hc, hk, hv]

lemma checkReload_eq_ok_iff {disk : Disk} {active config : ServerConfig} :
    checkReload disk active config = .ok () ↔ config.host = active.host ∧ config.port = active.port ∧
      validateVeysruleTree disk config.rootDir (some config.configFile) = some [] := by
  rw [checkReload]
  split_ifs with h
  · simp only [refuse, reduceCtorEq, false_iff]
    rintro ⟨hh, hp, -⟩
    exact h.elim (· hh) (· hp)
  · rw [not_or, not_not, not_not] at h
    simp only [h.1, h.2, true_and]
    split
    · rename_i hn
      simp [hn]
    · rename_i hc
      simp [hc]
    · rename_i errors hne hs
      simp only [hs, Option.some.injEq, reduceCtorEq, false_iff]
      exact hne

/-- A reload whose certificates can be loaded is decided by its checks. -/
lemma loadRuntimeState_eq_ok_iff {active file : ServerConfig} {tls : Option τ}
    {state : RuntimeState τ} (hf : rootFileConfig env.disk active.configFile = .ok file)
    (ht : buildTlsAcceptor env (mergeActive active file) = .ok tls) :
    loadRuntimeState env active = .ok state ↔
      checkReload env.disk active (mergeActive active file) = .ok () ∧
        ⟨mergeActive active file, tls⟩ = state := by
  rw [loadRuntimeState, hf, except_bind_eq_ok]
  constructor
  · rintro ⟨_, ⟨⟩, hr⟩
    obtain ⟨_, hc, hr⟩ := except_bind_eq_ok.mp hr
    obtain ⟨_, hb, hs⟩ := except_bind_eq_ok.mp hr
    cases ht.symm.trans hb
    cases hs
    exact ⟨hc, rfl⟩
  · rintro ⟨hc, rfl⟩
    exact ⟨file, rfl, except_bind_eq_ok.mpr
      ⟨(), hc, except_bind_eq_ok.mpr ⟨tls, ht, rfl⟩⟩⟩

/-! ## A reload of what is unchanged -/

/-- Equal in every field; the document roots are equal as paths. -/
def SameConfig (config config' : ServerConfig) : Prop :=
  components config.rootDir = components config'.rootDir ∧
    { config with rootDir := config'.rootDir } = config'

lemma SameConfig.host {config config' : ServerConfig} (h : SameConfig config config') :
    config.host = config'.host := by
  have hs := congrArg ServerConfig.host h.2
  exact hs

lemma SameConfig.port {config config' : ServerConfig} (h : SameConfig config config') :
    config.port = config'.port := by
  have hs := congrArg ServerConfig.port h.2
  exact hs

variable (env) in
/-- The reload succeeds with the configuration the server has. -/
def ReloadIsNoop (active : ServerConfig) : Prop :=
  ∃ state, loadRuntimeState env active = .ok state ∧ SameConfig state.config active

/-- The options agree with the file. -/
structure CliOptions.AgreesWith (cli : CliOptions) (file : ServerConfig) : Prop where
  dev : cli.dev = false
  port : Agrees id ({} : ServerConfig).port cli.port file.port
  root : Agrees components ({} : ServerConfig).rootDir cli.root file.rootDir
  maxConnections : Agrees id ({} : ServerConfig).maxConnections cli.maxConnections file.maxConnections
  maxRequestSize : Agrees id ({} : ServerConfig).maxRequestSize cli.maxRequestSize file.maxRequestSize

/-- The settings that the two ways put together. -/
def ServerConfig.rebind (config : ServerConfig) (host : Str) (port : ℕ) (rootDir : Str)
    (workers maxConnections maxRequestSize : ℕ) (devMode : Bool) : ServerConfig :=
  { config with host, port, rootDir, workers, maxConnections, maxRequestSize, devMode }

/-- What a reload makes of the file is what the server was started with. -/
lemma sameConfig_mergeActive_iff {cli : CliOptions} {file : ServerConfig} {path : Str}
    (hf : SameBinding file { configFile := path }) :
    SameConfig (mergeActive (cli.override file) file) (cli.override file) ↔ cli.AgreesWith file := by
  obtain ⟨hh, hw, hm, -⟩ := hf
  constructor
  · rintro ⟨hr, hs⟩
    refine ⟨?_, ?_, ?_, ?_, ?_⟩
    · exact (congrArg ServerConfig.devMode hs).symm.trans hm
    · exact (keepActive_eq_iff id _ _ _).mp (congrArg ServerConfig.port hs)
    · exact (keepActive_eq_iff components _ _ _).mp hr
    · exact (keepActive_eq_iff id _ _ _).mp (congrArg ServerConfig.maxConnections hs)
    · exact (keepActive_eq_iff id _ _ _).mp (congrArg ServerConfig.maxRequestSize hs)
  · intro h
    have hp := (keepActive_eq_iff id _ _ _).mpr h.port
    have hc := (keepActive_eq_iff id _ _ _).mpr h.maxConnections
    have hsi := (keepActive_eq_iff id _ _ _).mpr h.maxRequestSize
    have hk : keepActive id ({} : ServerConfig).workers (cli.workers.getD file.workers)
        file.workers = cli.workers.getD file.workers := by
      rw [hw]
      exact keepActive_default _ _
    refine ⟨(keepActive_eq_iff components _ _ _).mpr h.root, ?_⟩
    change file.rebind (if file.host = ({} : ServerConfig).host then cli.host.getD file.host
        else file.host)
      (keepActive id ({} : ServerConfig).port (cli.port.getD file.port) file.port)
      (cli.root.getD file.rootDir)
      (keepActive id ({} : ServerConfig).workers (cli.workers.getD file.workers) file.workers)
      (keepActive id ({} : ServerConfig).maxConnections
        (cli.maxConnections.getD file.maxConnections) file.maxConnections)
      (keepActive id ({} : ServerConfig).maxRequestSize
        (cli.maxRequestSize.getD file.maxRequestSize) file.maxRequestSize) file.devMode =
      file.rebind (cli.host.getD file.host) (cli.port.getD file.port) (cli.root.getD file.rootDir)
        (cli.workers.getD file.workers) (cli.maxConnections.getD file.maxConnections)
        (cli.maxRequestSize.getD file.maxRequestSize) cli.dev
    simp only [id_eq] at hp hc hsi
    rw [if_pos hh, hp, hk, hc, hsi, h.dev, hm]

/-- **A reload of what is unchanged is a no-op exactly if** the options agree with the file and the
tree validates. -/
theorem reload_noop_iff (h : runServer env args = some started) :
    ReloadIsNoop env started.config ↔ ∃ file,
      rootFileConfig env.disk (readArgs args.tail {}).configFile = .ok file ∧
        (readArgs args.tail {}).AgreesWith file ∧
        validateVeysruleTree env.disk ((readArgs args.tail {}).root.getD file.rootDir)
          (some (readArgs args.tail {}).configFile) = some [] := by
  obtain ⟨file, hfile, hconfig, htls⟩ := runServer_eq_some h
  generalize readArgs args.tail {} = cli at hfile hconfig ⊢
  have hbinding := binding_rootFileConfig hfile
  have hsame : SameConfig (mergeActive (cli.override file) file) (cli.override file) ↔
      cli.AgreesWith file := sameConfig_mergeActive_iff hbinding
  have hplace : (cli.override file).configFile = cli.configFile := hbinding.2.2.2
  rw [hconfig] at htls ⊢
  have hloads : ∀ {state : RuntimeState τ}, loadRuntimeState env (cli.override file) = .ok state ↔
      checkReload env.disk (cli.override file) (mergeActive (cli.override file) file) = .ok () ∧
        ⟨mergeActive (cli.override file) file, started.tlsAcceptor⟩ = state := by
    refine loadRuntimeState_eq_ok_iff (hplace.symm ▸ hfile) ?_
    rw [← htls]
    exact buildTlsAcceptor_congr rfl rfl rfl rfl
  constructor
  · rintro ⟨state, hstate, hstarted⟩
    obtain ⟨hcheck, rfl⟩ := hloads.mp hstate
    obtain ⟨-, -, hvalid⟩ := checkReload_eq_ok_iff.mp hcheck
    refine ⟨file, hfile, hsame.mp hstarted, ?_⟩
    rw [← hplace]
    exact (validateVeysruleTree_eq_nil_congr hstarted.1).mp hvalid
  · rintro ⟨file', hfile', hagrees, hvalid⟩
    cases hfile.symm.trans hfile'
    have hstarted := hsame.mpr hagrees
    rw [← hplace] at hvalid
    have hcheck := checkReload_eq_ok_iff.mpr ⟨hstarted.host, hstarted.port,
      (validateVeysruleTree_eq_nil_congr hstarted.1).mpr hvalid⟩
    exact ⟨_, hloads.mpr ⟨hcheck, rfl⟩, hstarted⟩

/-! ### Samples -/

/-- A document root without files, and a root rule file. -/
def rootRuleEnv (rules : String) : ServerEnv Unit where
  disk :=
    { entryAt := fun path =>
        if path = components "./.veysrule".toList then some (fileOf (utf8 rules.toList)) else none
      treeAt := fun _ => ⟨⟨[⟨[], openDir⟩], by rw [List.NodupKeys]; decide⟩, by decide⟩ }
  binds _ _ := true
  fromPemWithVhosts _ _ _ := .ok ()

/-- The options leave alone what the file sets. -/
theorem reload_noop_other_options : ∃ started,
    runServer (rootRuleEnv "MAX_CONNECTIONS = 50")
      (["veysrs", "--port", "9000", "--workers", "2"].map String.toList) = some started ∧
    started.config.port = 9000 ∧ started.config.maxConnections = 50 ∧
    ReloadIsNoop (rootRuleEnv "MAX_CONNECTIONS = 50") started.config := by
  have hstart : ((runServer (rootRuleEnv "MAX_CONNECTIONS = 50")
      (["veysrs", "--port", "9000", "--workers", "2"].map String.toList)).map
        fun started => (started.config.port, started.config.maxConnections)) = some (9000, 50) := by
    decide
  obtain ⟨started, hstarted, hvalues⟩ := Option.map_eq_some_iff.mp hstart
  rw [Prod.mk.injEq] at hvalues
  refine ⟨started, hstarted, hvalues.1, hvalues.2, (reload_noop_iff hstarted).mpr ?_⟩
  have hcli : readArgs ((["veysrs", "--port", "9000", "--workers", "2"].map String.toList).tail) {} =
      { port := some 9000, workers := some 2 } := by decide
  rw [hcli]
  refine ⟨{ maxConnections := 50 }, by decide, ⟨rfl, ?_, ?_, ?_, ?_⟩, by decide⟩
  · exact fun _ _ => .inr rfl
  · exact fun _ _ => .inr rfl
  · exact fun _ hgiven => by cases hgiven
  · exact fun _ _ => .inr rfl

/-- The limit given on the command line is lost. -/
theorem reload_loses_option : ∃ started,
    runServer (rootRuleEnv "MAX_CONNECTIONS = 50")
      (["veysrs", "--max-connections", "10"].map String.toList) = some started ∧
    started.config.maxConnections = 10 ∧
    (loadRuntimeState (rootRuleEnv "MAX_CONNECTIONS = 50") started.config).map
      (fun state => state.config.maxConnections) = .ok 50 ∧
    ¬ ReloadIsNoop (rootRuleEnv "MAX_CONNECTIONS = 50") started.config := by
  have hstart : ((runServer (rootRuleEnv "MAX_CONNECTIONS = 50")
      (["veysrs", "--max-connections", "10"].map String.toList)).map RuntimeState.config) =
        some { maxConnections := 10 } := by
    decide
  have hload : (loadRuntimeState (rootRuleEnv "MAX_CONNECTIONS = 50") { maxConnections := 10 }).map
      (fun state => state.config.maxConnections) = .ok 50 := by
    decide
  obtain ⟨started, hstarted, hconfig⟩ := Option.map_eq_some_iff.mp hstart
  refine ⟨started, hstarted, by rw [hconfig], by rw [hconfig]; exact hload, ?_⟩
  rw [hconfig]
  rintro ⟨state, hstate, -, hsame⟩
  rw [hstate] at hload
  have hlimit := congrArg ServerConfig.maxConnections hsame
  cases hload.symm.trans (congrArg Except.ok hlimit)

end Reload

end Veysrs
