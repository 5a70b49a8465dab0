import Veysrs.Core.AssocMap
import Veysrs.Core.Io
import Veysrs.Core.Runs
import Veysrs.Http.Message

/-!
# Choosing an upstream by its health

`connect_upstream_with_health` of `server/proxy.rs`, with the table of health states, the
round-robin counters and the pool of idle connections it works on.  What a probe or an attempt to
connect comes to, when it happens, and what other threads mark meanwhile is chosen from outside
(`Attempt`).

Every mark and every decision to try or to skip a candidate is also written to a log.  The table is
a function of the marks in the log (`faithful_runCalls`), and what it says about a key is how often
the key has failed since its last success and when it failed last (`recorded_replay`).  Without
probes a candidate is skipped whenever it is marked as unhealthy, however long ago: the cooldown is
a cooldown only as long as nobody looks after it has ended (`cooldown_ends_iff`).
-/

namespace Veysrs.Proxy

open Core List

/-! ## The table -/

def healthCooldown : ℕ := seconds 10

def idleUpstreamTtl : ℕ := seconds 30

structure HealthState where
  failures : ℕ := 0
  recoveries : ℕ := 0
  lastProbe : Option ℕ := none
  unhealthyUntil : Option ℕ := none
  deriving DecidableEq, Repr

structure HealthSettings where
  interval : ℕ
  timeout : ℕ
  failureThreshold : ℕ
  recoveryThreshold : ℕ
  deriving DecidableEq, Repr

/-- `Default for HealthSettings`: no probes. -/
def HealthSettings.default : HealthSettings :=
  { interval := 0, timeout := seconds 2, failureThreshold := 3, recoveryThreshold := 2 }

abbrev HealthTable := AssocMap Str HealthState

/-- `u32::saturating_add(1)`. -/
def saturatingSucc (n : ℕ) : ℕ := min (n + 1) (2 ^ 32 - 1)

/-- One more failure; at the threshold the candidate is unhealthy for the cooldown. -/
def HealthState.fail (threshold now : ℕ) (state : HealthState) : HealthState :=
  { state with
    failures := saturatingSucc state.failures
    unhealthyUntil := if threshold ≤ saturatingSucc state.failures then some (now + healthCooldown)
      else state.unhealthyUntil }

namespace HealthTable

/-- `entry(..).or_insert(..)`. -/
def entry (states : HealthTable) (key : Str) : HealthState := (states.lookup key).getD {}

def healthAvailable (states : HealthTable) (key : Str) : Bool :=
  match states.lookup key with
  | none => true
  | some state => state.unhealthyUntil.isNone

def healthProbeDue (states : HealthTable) (key : Str) (interval now : ℕ) : Bool :=
  ((states.lookup key).bind HealthState.lastProbe).all fun last => interval ≤ now - last

def markFailed (states : HealthTable) (key : Str) (now : ℕ) : HealthTable :=
  states.insert key ((states.entry key).fail 3 now)

def markHealthy (states : HealthTable) (key : Str) : HealthTable :=
  match states.lookup key with
  | some state =>
    states.insert key { state with failures := 0, recoveries := 0, unhealthyUntil := none }
  | none => states

def markProbeFailed (states : HealthTable) (key : Str) (threshold now : ℕ) : HealthTable :=
  states.insert key ({ states.entry key with recoveries := 0 }.fail (max threshold 1) now)

def markProbeHealthy (states : HealthTable) (key : Str) (threshold : ℕ) : HealthTable :=
  let state := states.entry key
  states.insert key
    (if state.unhealthyUntil.isSome then
      let state := { state with recoveries := saturatingSucc state.recoveries }
      if max threshold 1 ≤ state.recoveries then
        { state with failures := 0, recoveries := 0, unhealthyUntil := none }
      else state
    else { state with failures := 0 })

end HealthTable

/-! ## Marks and the log -/

/-- A change of the table: a failed or a successful connection, or a probe. -/
inductive Mark where
  | failed (key : Str) (now : ℕ)
  | healthy (key : Str)
  | probing (key : Str) (now : ℕ)
  | probeFailed (key : Str) (threshold now : ℕ)
  | probeHealthy (key : Str) (threshold : ℕ)
  deriving DecidableEq, Repr

def Mark.apply (states : HealthTable) : Mark → HealthTable
  | failed key now => states.markFailed key now
  | healthy key => states.markHealthy key
  | probing key now => states.insert key { states.entry key with lastProbe := some now }
  | probeFailed key threshold now => states.markProbeFailed key threshold now
  | probeHealthy key threshold => states.markProbeHealthy key threshold

inductive HealthEvent where
  | marked (mark : Mark)
  | considered (key : Str) (now : ℕ) (tried : Bool)
  deriving DecidableEq, Repr

/-- The statics of `server/proxy.rs`, and the log. -/
structure Upstreams where
  health : HealthTable
  roundRobin : AssocMap Str ℕ
  /-- When each idle connection was put into the pool. -/
  idle : AssocMap Str (List ℕ)
  log : List HealthEvent

def Upstreams.start : Upstreams := { health := ∅, roundRobin := ∅, idle := ∅, log := [] }

namespace Upstreams

def mark (s : Upstreams) (m : Mark) : Upstreams :=
  { s with health := m.apply s.health, log := s.log ++ [.marked m] }

def consider (s : Upstreams) (key : Str) (now : ℕ) (tried : Bool) : Upstreams :=
  { s with log := s.log ++ [.considered key now tried] }

end Upstreams

/-! ## Connecting -/

def healthKey (route : ProxyRoute) (upstream : Str) : Str :=
  route.host ++ '\x00' :: route.routePrefix ++ '\x00' :: upstream

def poolKey (route : ProxyRoute) (candidate : Str) : Str :=
  route.host ++ '\x00' :: route.routePrefix ++ '\x00' :: route.upstream ++ '\x00' :: candidate

/-- `take_pooled`: the oldest idle connection that is not too old. -/
def takePooled (route : ProxyRoute) (candidate : Str) (now : ℕ) (s : Upstreams) :
    Bool × Upstreams :=
  match s.idle.lookup (poolKey route candidate) with
  | none => (false, s)
  | some queue =>
    match queue.dropWhile fun inserted => idleUpstreamTtl < now - inserted with
    | [] => (false, { s with idle := s.idle.insert (poolKey route candidate) [] })
    | _ :: rest => (true, { s with idle := s.idle.insert (poolKey route candidate) rest })

/-- What happens around one candidate: marks of other threads before it is looked at, the time of
that, the answer to a probe, what others mark while it is connected to, and what comes of it. -/
structure Attempt where
  before : List Mark := []
  checked : ℕ
  probe : Bool := true
  probed : ℕ := checked
  meanwhile : List Mark := []
  connected : Except IoError Unit
  settled : ℕ := checked

/-- `connect_candidate`. -/
def connectCandidate (upstream : Str) (outcome : Except IoError Unit) : Except IoError Unit :=
  if "http://".toList.isPrefixOf upstream then outcome
  else .error ⟨.invalidInput, "unsupported proxy scheme"⟩

/-- `active_health_probe`. -/
def activeHealthProbe (settings : HealthSettings) (key : Str) (env : Attempt) (s : Upstreams) :
    Bool × Upstreams :=
  let s := s.mark (.probing key env.checked)
  if env.probe then (true, s.mark (.probeHealthy key settings.recoveryThreshold))
  else (false, s.mark (.probeFailed key settings.failureThreshold env.probed))

inductive CandidateOutcome where
  | skipped
  | connected
  | failed (error : IoError)
  deriving DecidableEq, Repr

/-- The end of the loop's body, for a candidate that is not skipped. -/
def useCandidate (settings : HealthSettings) (route : ProxyRoute) (candidate : Str) (env : Attempt)
    (s : Upstreams) : CandidateOutcome × Upstreams :=
  let key := healthKey route candidate
  let s := s.consider key env.checked true
  match takePooled route candidate env.checked s with
  | (true, s) => (.connected, s)
  | (false, s) =>
    let s := env.meanwhile.foldl Upstreams.mark s
    match connectCandidate candidate env.connected with
    | .ok () => (.connected, if settings.interval = 0 then s.mark (.healthy key) else s)
    | .error error => (.failed error, s.mark (.failed key env.settled))

/-- The body of the loop of `connect_upstream_with_health`. -/
def tryCandidate (settings : HealthSettings) (route : ProxyRoute) (candidate : Str) (env : Attempt)
    (s : Upstreams) : CandidateOutcome × Upstreams :=
  let key := healthKey route candidate
  let s := env.before.foldl Upstreams.mark s
  let probesEnabled : Bool := 0 < settings.interval
  let due := s.health.healthProbeDue key settings.interval env.checked
  if !s.health.healthAvailable key && (!probesEnabled || !due) then
    (.skipped, s.consider key env.checked false)
  else
    let (probed, s) :=
      if probesEnabled && due then activeHealthProbe settings key env s else (true, s)
    if !probed || (probesEnabled && !s.health.healthAvailable key) then
      (.skipped, s.consider key env.checked false)
    else useCandidate settings route candidate env s

def upstreamUnavailable : IoError := ⟨.connectionRefused, "upstream unavailable"⟩

/-- The loop over the candidates, each with its surroundings. -/
def tryCandidates (settings : HealthSettings) (route : ProxyRoute) :
    List (Str × Attempt) → Option IoError → Upstreams → Except IoError Str × Upstreams
  | [], last, s => (.error (last.getD upstreamUnavailable), s)
  | (candidate, env) :: rest, last, s =>
    match tryCandidate settings route candidate env s with
    | (.skipped, s) => tryCandidates settings route rest last s
    | (.connected, s) => (.ok candidate, s)
    | (.failed error, s) => tryCandidates settings route rest (some error) s

def candidatesOf (route : ProxyRoute) : List Str :=
  ((route.upstream.splitOn ',').map trim).filter fun value => !value.isEmpty

/-- `connect_upstream_with_health`, which returns the candidate it is connected to. -/
def connectUpstreamWithHealth (settings : HealthSettings) (route : ProxyRoute)
    (env : ℕ → Attempt) (s : Upstreams) : Except IoError Str × Upstreams :=
  let candidates := candidatesOf route
  if candidates.isEmpty then (.error ⟨.notFound, "upstream has no addresses"⟩, s)
  else
    let key := route.host ++ '\x00' :: route.routePrefix
    let start := (s.roundRobin.lookup key).getD 0
    let s := { s with roundRobin := s.roundRobin.insert key ((start + 1) % 2 ^ 64) }
    tryCandidates settings route ((List.range candidates.length).map fun offset =>
      (candidates.getD ((start + offset) % candidates.length) [], env offset)) none s

/-! ## Runs -/

/-- What touches the table: calls of `connect_upstream_with_health`, and the marks that other
threads make. -/
inductive HealthCall where
  | connect (route : ProxyRoute) (env : ℕ → Attempt)
  | mark (m : Mark)

def runCall (settings : HealthSettings) (s : Upstreams) : HealthCall → Upstreams
  | .connect route env => (connectUpstreamWithHealth settings route env s).2
  | .mark m => s.mark m

def runCalls (settings : HealthSettings) (calls : List HealthCall) : Upstreams :=
  calls.foldl (runCall settings) .start

/-! ## The table is a function of the log -/

/-- The marks of a log, made one after another on an empty table. -/
def replay (log : List HealthEvent) : HealthTable :=
  log.foldl (fun states e => match e with
    | .marked m => m.apply states
    | .considered _ _ _ => states) ∅

lemma replay_marked (log : List HealthEvent) (m : Mark) :
    replay (log ++ [.marked m]) = m.apply (replay log) := by
  simp [replay]

lemma replay_considered (log : List HealthEvent) (key : Str) (now : ℕ) (tried : Bool) :
    replay (log ++ [.considered key now tried]) = replay log := by
  simp [replay]

/-- Whenever a candidate was considered, it was tried exactly if the table of that moment had it as
available. -/
def DecidedByTable (log : List HealthEvent) : Prop :=
  ∀ before key now tried after, log = before ++ .considered key now tried :: after →
    tried = (replay before).healthAvailable key

/-- What every step keeps, with probes disabled. -/
structure Upstreams.Faithful (s : Upstreams) : Prop where
  replayed : s.health = replay s.log
  decided : DecidedByTable s.log

variable {settings : HealthSettings}

namespace Upstreams.Faithful

variable {s : Upstreams}

lemma mark (h : s.Faithful) (m : Mark) : (s.mark m).Faithful := by
  refine ⟨?_, ?_⟩
  · show m.apply s.health = replay (s.log ++ [.marked m])
    rw [replay_marked, h.replayed]
  · intro before key now tried after hl
    rcases append_split hl with ⟨mid, hm, -⟩ | ⟨mid, -, hm⟩
    · exact h.decided before key now tried mid hm
    · cases mid with
      | nil => cases hm
      | cons e mid => simp at hm

lemma marks (h : s.Faithful) (ms : List Mark) : (ms.foldl Upstreams.mark s).Faithful := by
  induction ms generalizing s with
  | nil => exact h
  | cons m ms ih => exact ih (h.mark m)

lemma consider (h : s.Faithful) {key : Str} (now : ℕ) {tried : Bool}
    (ht : tried = s.health.healthAvailable key) : (s.consider key now tried).Faithful := by
  refine ⟨?_, ?_⟩
  · show s.health = replay (s.log ++ [.considered key now tried])
    rw [replay_considered, h.replayed]
  · intro before key' now' tried' after hl
    rcases append_split hl with ⟨mid, hm, -⟩ | ⟨mid, hb, hm⟩
    · exact h.decided before key' now' tried' mid hm
    · cases mid with
      | nil =>
        obtain ⟨⟨rfl, rfl, rfl⟩, -⟩ : (key = key' ∧ now = now' ∧ tried = tried') ∧ [] = after := by
          simpa using hm
        rw [hb, append_nil, ← h.replayed]
        exact ht
      | cons e mid => simp at hm

/-- Nothing but the health table and the log matters. -/
lemma of_eq {t : Upstreams} (h : s.Faithful) (hh : t.health = s.health)
    (hl : t.log = s.log) : t.Faithful :=
  ⟨by rw [hh, hl, h.replayed], by rw [hl]; exact h.decided⟩

lemma takePooled (h : s.Faithful) (route : ProxyRoute) (candidate : Str) (now : ℕ) :
    (takePooled route candidate now s).2.Faithful := by
  unfold Proxy.takePooled
  split
  · exact h
  · split
    · exact h.of_eq rfl rfl
    · exact h.of_eq rfl rfl

variable {route : ProxyRoute}

lemma useCandidate {candidate : Str} {env : Attempt} (h : s.Faithful)
    (ha : s.health.healthAvailable (healthKey route candidate) = true) :
    (useCandidate settings route candidate env s).2.Faithful := by
  have hc := h.consider env.checked ha.symm
  have hp := hc.takePooled route candidate env.checked
  unfold Proxy.useCandidate
  simp only
  split
  · rename_i s' heq
    rwa [heq] at hp
  · rename_i s' heq
    rw [heq] at hp
    split
    · split_ifs
      · exact (hp.marks _).mark _
      · exact hp.marks _
    · exact (hp.marks _).mark _

lemma tryCandidate {candidate : Str} {env : Attempt} (hs : settings.interval = 0)
    (h : s.Faithful) : (tryCandidate settings route candidate env s).2.Faithful := by
  have hb := h.marks env.before
  unfold Proxy.tryCandidate
  simp only [hs]
  cases ha : (env.before.foldl Upstreams.mark s).health.healthAvailable
      (healthKey route candidate) with
  | false => exact hb.consider _ ha.symm
  | true => exact hb.useCandidate ha

lemma tryCandidates (hs : settings.interval = 0) (candidates : List (Str × Attempt)) :
    ∀ {last : Option IoError} {s : Upstreams}, s.Faithful →
      (tryCandidates settings route candidates last s).2.Faithful := by
  induction candidates with
  | nil =>
    intro last s h
    exact h
  | cons c rest ih =>
    intro last s h
    obtain ⟨candidate, env⟩ := c
    have ht : (Proxy.tryCandidate settings route candidate env s).2.Faithful :=
      h.tryCandidate hs
    unfold Proxy.tryCandidates
    split
    · rename_i s' heq
      rw [heq] at ht
      exact ih ht
    · rename_i s' heq
      rwa [heq] at ht
    · rename_i error s' heq
      rw [heq] at ht
      exact ih ht

lemma connect (hs : settings.interval = 0) (h : s.Faithful) (route : ProxyRoute)
    (env : ℕ → Attempt) : (connectUpstreamWithHealth settings route env s).2.Faithful := by
  unfold connectUpstreamWithHealth
  simp only
  split_ifs
  · exact h
  · exact tryCandidates hs _ (h.of_eq rfl rfl)

end Upstreams.Faithful

lemma faithful_runCalls (hs : settings.interval = 0) (calls : List HealthCall) :
    (runCalls settings calls).Faithful := by
  have hst : Upstreams.start.Faithful := ⟨rfl, fun _ _ _ _ _ h => by simp [Upstreams.start] at h⟩
  unfold runCalls
  induction calls using List.reverseRecOn with
  | nil => exact hst
  | append_singleton calls call ih =>
    rw [foldl_append]
    cases call with
    | connect route env => exact ih.connect hs route env
    | mark m => exact ih.mark m

/-! ## What the table says about a key -/

/-- A mark that is not of a probe. -/
def Mark.isPassive : Mark → Bool
  | failed _ _ => true
  | healthy _ => true
  | _ => false

def Passive (log : List HealthEvent) : Prop := ∀ m, HealthEvent.marked m ∈ log → m.isPassive = true

/-- How often a key has failed since its last success. -/
def failuresSince (key : Str) (log : List HealthEvent) : ℕ :=
  log.foldl (fun n e => match e with
    | .marked (.failed key' _) => if key' = key then n + 1 else n
    | .marked (.healthy key') => if key' = key then 0 else n
    | _ => n) 0

/-- When a key failed last. -/
def lastFailure (key : Str) (log : List HealthEvent) : Option ℕ :=
  log.foldl (fun last e => match e with
    | .marked (.failed key' now) => if key' = key then some now else last
    | _ => last) none

/-- What the table must say about a key after a log. -/
structure Recorded (key : Str) (log : List HealthEvent) (state : HealthState) : Prop where
  failures : state.failures = min (failuresSince key log) (2 ^ 32 - 1)
  unhealthy : state.unhealthyUntil =
    if 3 ≤ failuresSince key log then (lastFailure key log).map (· + healthCooldown) else none

section Recorded

variable {key : Str} {log : List HealthEvent}

lemma failuresSince_append (e : HealthEvent) : failuresSince key (log ++ [e]) =
    match e with
    | .marked (.failed key' _) =>
      if key' = key then failuresSince key log + 1 else failuresSince key log
    | .marked (.healthy key') => if key' = key then 0 else failuresSince key log
    | _ => failuresSince key log := by
  rw [failuresSince, foldl_append]
  rfl

lemma lastFailure_append (e : HealthEvent) : lastFailure key (log ++ [e]) =
    match e with
    | .marked (.failed key' now) => if key' = key then some now else lastFailure key log
    | _ => lastFailure key log := by
  rw [lastFailure, foldl_append]
  rfl

/-- An event that does not concern the key changes nothing. -/
lemma Recorded.of_eq {state : HealthState} {e : HealthEvent} (h : Recorded key log state)
    (hf : failuresSince key (log ++ [e]) = failuresSince key log)
    (hl : lastFailure key (log ++ [e]) = lastFailure key log) :
    Recorded key (log ++ [e]) state :=
  ⟨by rw [hf, h.failures], by rw [hf, hl, h.unhealthy]⟩

lemma Recorded.markFailed {states : HealthTable} {key' : Str} {now : ℕ}
    (h : Recorded key log (states.entry key)) :
    Recorded key (log ++ [.marked (.failed key' now)])
      ((states.markFailed key' now).entry key) := by
  by_cases hk : key' = key
  · subst hk
    have hf : failuresSince key' (log ++ [.marked (.failed key' now)]) =
        failuresSince key' log + 1 := by simp [failuresSince_append]
    have hl : lastFailure key' (log ++ [.marked (.failed key' now)]) = some now := by
      simp [lastFailure_append]
    have hc : saturatingSucc (states.entry key').failures =
        min (failuresSince key' log + 1) (2 ^ 32 - 1) := by
      rw [saturatingSucc, h.failures]
      omega
    have hb : 3 ≤ min (failuresSince key' log + 1) (2 ^ 32 - 1) ↔
        3 ≤ failuresSince key' log + 1 := by omega
    have hen : (states.markFailed key' now).entry key' = (states.entry key').fail 3 now := by
      simp only [HealthTable.markFailed, HealthTable.entry, AList.lookup_insert, Option.getD_some]
    rw [hen]
    refine ⟨?_, ?_⟩
    · rw [hf, ← hc]
      rfl
    · rw [hf, hl]
      simp only [HealthState.fail, hc, hb]
      split_ifs with hm
      · rfl
      · rw [h.unhealthy, if_neg (by omega)]
  · have hen : (states.markFailed key' now).entry key = states.entry key := by
      simp only [HealthTable.markFailed, HealthTable.entry]
      rw [AList.lookup_insert_ne (Ne.symm hk)]
    rw [hen]
    exact h.of_eq (by simp [failuresSince_append, hk])
      (by simp [lastFailure_append, hk])

lemma Recorded.markHealthy {states : HealthTable} {key' : Str}
    (h : Recorded key log (states.entry key)) :
    Recorded key (log ++ [.marked (.healthy key')]) ((states.markHealthy key').entry key) := by
  by_cases hk : key' = key
  · subst hk
    have hf : failuresSince key' (log ++ [.marked (.healthy key')]) = 0 := by
      simp [failuresSince_append]
    have hen : ((states.markHealthy key').entry key').failures = 0 ∧
        ((states.markHealthy key').entry key').unhealthyUntil = none := by
      simp only [HealthTable.markHealthy, HealthTable.entry]
      cases hs : states.lookup key' with
      | none => simp [hs]
      | some state => simp
    exact ⟨by rw [hen.1, hf]; rfl, by rw [hen.2, hf]; rfl⟩
  · have hen : (states.markHealthy key').entry key = states.entry key := by
      simp only [HealthTable.markHealthy, HealthTable.entry]
      cases states.lookup key' with
      | none => rfl
      | some state => simp only; rw [AList.lookup_insert_ne (Ne.symm hk)]
    rw [hen]
    exact h.of_eq (by simp [failuresSince_append, hk]) (by rw [lastFailure_append])

/-- Without probes, the table says how often a key has failed since its last success, and when. -/
lemma recorded_replay (key : Str) (log : List HealthEvent) (hp : Passive log) :
    Recorded key log ((replay log).entry key) := by
  induction log using List.reverseRecOn with
  | nil => exact ⟨rfl, rfl⟩
  | append_singleton log e ih =>
    have hl := ih fun m hm => hp m (mem_append_left _ hm)
    cases e with
    | considered key' now tried =>
      rw [replay_considered]
      exact hl.of_eq (by rw [failuresSince_append]) (by rw [lastFailure_append])
    | marked m =>
      have hm : m.isPassive = true := hp m (by simp)
      rw [replay_marked]
      cases m with
      | failed key' now => exact hl.markFailed
      | healthy key' => exact hl.markHealthy
      | probing _ _ => cases hm
      | probeFailed _ _ _ => cases hm
      | probeHealthy _ _ => cases hm

end Recorded

/-! ## The cooldown -/

/-- A key is in its cooldown: it has failed three times since its last success, the last time less
than `healthCooldown` ago. -/
def InCooldown (key : Str) (now : ℕ) (log : List HealthEvent) : Prop :=
  3 ≤ failuresSince key log ∧
    ∃ last, lastFailure key log = some last ∧ now - last < healthCooldown

/-- A candidate is skipped only in its cooldown, and tried again after it. -/
def CooldownEnds (log : List HealthEvent) : Prop :=
  ∀ before key now tried after, log = before ++ .considered key now tried :: after →
    (tried = false → InCooldown key now before) ∧ (¬InCooldown key now before → tried = true)

/-- Nobody looks at a candidate that is marked as unhealthy after the time it is so marked for. -/
def NeverOverdue (log : List HealthEvent) : Prop :=
  ∀ before key now tried after, log = before ++ .considered key now tried :: after →
    ∀ deadline, ((replay before).lookup key).bind HealthState.unhealthyUntil = some deadline →
      now < deadline

lemma healthAvailable_iff (states : HealthTable) (key : Str) :
    states.healthAvailable key = true ↔ (states.entry key).unhealthyUntil = none := by
  simp only [HealthTable.healthAvailable, HealthTable.entry]
  cases states.lookup key with
  | none => simp
  | some state => simp

lemma bind_unhealthyUntil (states : HealthTable) (key : Str) :
    (states.lookup key).bind HealthState.unhealthyUntil = (states.entry key).unhealthyUntil := by
  simp only [HealthTable.entry]
  cases states.lookup key <;> rfl

/-- A key marked as unhealthy is so marked until the end of its cooldown. -/
lemma Recorded.inCooldown_iff {key : Str} {log : List HealthEvent} {state : HealthState}
    {now deadline : ℕ} (h : Recorded key log state) (hs : state.unhealthyUntil = some deadline) :
    InCooldown key now log ↔ now < deadline := by
  have hu := h.unhealthy
  rw [hs] at hu
  split_ifs at hu with hm
  obtain ⟨last, hl, rfl⟩ := Option.map_eq_some_iff.mp hu.symm
  have hp : 0 < healthCooldown := by decide
  rw [InCooldown, hl]
  constructor
  · rintro ⟨-, last', ⟨⟩, hr⟩
    omega
  · intro hlt
    exact ⟨hm, last, rfl, by omega⟩

/-- With probes disabled, in every run: the cooldown of every candidate ends if and only if nobody
looks at a candidate after its cooldown has ended. -/
theorem cooldown_ends_iff {settings : HealthSettings} {calls : List HealthCall}
    (hsettings : settings.interval = 0) (hpassive : Passive (runCalls settings calls).log) :
    CooldownEnds (runCalls settings calls).log ↔ NeverOverdue (runCalls settings calls).log := by
  have hdecided := (faithful_runCalls hsettings calls).decided
  generalize (runCalls settings calls).log = log at hpassive hdecided ⊢
  have hrecorded : ∀ before key now tried after,
      log = before ++ .considered key now tried :: after →
        Recorded key before ((replay before).entry key) := by
    rintro before key now tried after rfl
    exact recorded_replay key before fun m hm => hpassive m (mem_append_left _ hm)
  constructor
  · intro h before key now tried after hlog deadline hdeadline
    rw [bind_unhealthyUntil] at hdeadline
    have htried : tried = false := by
      rw [hdecided before key now tried after hlog, ← Bool.not_eq_true, healthAvailable_iff,
        hdeadline]
      exact Option.some_ne_none _
    exact ((hrecorded before key now tried after hlog).inCooldown_iff hdeadline).mp
      ((h before key now tried after hlog).1 htried)
  · intro h before key now tried after hlog
    have hskipped : tried = false → InCooldown key now before := by
      intro htried
      rw [hdecided before key now tried after hlog, ← Bool.not_eq_true, healthAvailable_iff]
        at htried
      obtain ⟨deadline, hdeadline⟩ := Option.ne_none_iff_exists'.mp htried
      have hlt := h before key now tried after hlog deadline
        (by rw [bind_unhealthyUntil]; exact hdeadline)
      exact ((hrecorded before key now tried after hlog).inCooldown_iff hdeadline).mpr hlt
    refine ⟨hskipped, fun hout => ?_⟩
    by_contra htried
    exact hout (hskipped (Bool.not_eq_true _ ▸ htried))

/-! A candidate that refuses three connections and is asked for again. -/

def refusingRoute : ProxyRoute :=
  { host := "*".toList, routePrefix := "/api".toList, upstream := "http://127.0.0.1:1".toList }

def refusingKey : Str := healthKey refusingRoute refusingRoute.upstream

def refusedAt (now : ℕ) : HealthCall :=
  .connect refusingRoute fun _ =>
    { checked := now, connected := .error ⟨.connectionRefused, "connection refused"⟩ }

/-- Three refused connections. -/
def refusedLog : List HealthEvent :=
  [0, 1, 2].flatMap fun n =>
    [.considered refusingKey (seconds n) true, .marked (.failed refusingKey (seconds n))]

/-- The log after a fourth call: the candidate is skipped. -/
def skippedLog (now : ℕ) : List HealthEvent := refusedLog ++ [.considered refusingKey now false]

def refusedCalls (now : ℕ) : List HealthCall :=
  [refusedAt (seconds 0), refusedAt (seconds 1), refusedAt (seconds 2), refusedAt now]

lemma log_refusedCalls (now : ℕ) :
    (runCalls .default (refusedCalls now)).log = skippedLog now := by
  rfl

lemma passive_skippedLog (now : ℕ) : Passive (skippedLog now) := by
  intro m hm
  simp only [skippedLog, refusedLog, flatMap_cons, flatMap_nil, cons_append,
    nil_append, mem_cons, HealthEvent.marked.injEq, reduceCtorEq, false_or,
    not_mem_nil, or_false] at hm
  rcases hm with rfl | rfl | rfl <;> rfl

theorem cooldown_ends_sample :
    Passive (runCalls .default (refusedCalls (seconds 5))).log ∧
      (CooldownEnds (runCalls .default (refusedCalls (seconds 5))).log ↔
        NeverOverdue (runCalls .default (refusedCalls (seconds 5))).log) := by
  have hpassive : Passive (runCalls .default (refusedCalls (seconds 5))).log := by
    rw [log_refusedCalls]
    exact passive_skippedLog _
  exact ⟨hpassive, cooldown_ends_iff rfl hpassive⟩

/-- A minute after its third failure the candidate is still skipped. -/
theorem overdue_candidate_skipped :
    ¬CooldownEnds (runCalls .default (refusedCalls (seconds 60))).log := by
  rw [log_refusedCalls]
  intro h
  obtain ⟨-, last, hlast, hrecent⟩ :=
    (h refusedLog refusingKey (seconds 60) false [] rfl).1 rfl
  obtain rfl : seconds 2 = last := Option.some.inj hlast
  exact absurd hrecent (by decide)

end Veysrs.Proxy
