import Veysrs.Proxy.Health

/-!
# Probes and availability

`mark_probe_failed` and `mark_probe_healthy` of `server/proxy.rs` count failures and recoveries in
two counters that are set back in different places.  Between them they follow one rule: a candidate
that is available goes away with a run of failures as long as the failure threshold, and one that is
not comes back with a run of successes as long as the recovery threshold.

The counter that matters is always the length of the current run (`Counts`): of failures while the
candidate is available, of successes while it is not.  The other one may be anything.
-/

namespace Veysrs.Proxy

open Core List

def healthSettings (config : ServerConfig) : HealthSettings :=
  { interval := if config.upstreamHealthInterval = 0 then 0 else seconds config.upstreamHealthInterval
    timeout := seconds (max config.upstreamHealthTimeout 1)
    failureThreshold := max config.upstreamHealthFailures 1
    recoveryThreshold := max config.upstreamHealthRecovery 1 }

/-- The thresholds in use are positive `u32`s, whatever is configured. -/
lemma thresholds_healthSettings {config : ServerConfig}
    (hfailures : config.upstreamHealthFailures < 2 ^ 32)
    (hr : config.upstreamHealthRecovery < 2 ^ 32) :
    (0 < (healthSettings config).failureThreshold ∧
        (healthSettings config).failureThreshold < 2 ^ 32) ∧
      0 < (healthSettings config).recoveryThreshold ∧
        (healthSettings config).recoveryThreshold < 2 ^ 32 := by
  simp only [healthSettings]
  omega

/-! ## Sequences of probes -/

/-- What came of a probe. -/
inductive Probe where
  | failed (now : ℕ)
  | healthy
  deriving DecidableEq, Repr

namespace Probe

def isFailed : Probe → Bool
  | failed _ => true
  | healthy => false

def isHealthy (probe : Probe) : Bool := !probe.isFailed

/-- The call that records it. -/
def mark (key : Str) (failures recoveries : ℕ) : Probe → Mark
  | failed now => .probeFailed key failures now
  | healthy => .probeHealthy key recoveries

end Probe

/-- The table after some probes of one candidate. -/
def probed (key : Str) (failures recoveries : ℕ) (states : HealthTable) (probes : List Probe) :
    HealthTable :=
  probes.foldl (fun states probe => (probe.mark key failures recoveries).apply states) states

/-- The failures at the end. -/
def failureRun (probes : List Probe) : ℕ := (probes.rtakeWhile Probe.isFailed).length

/-- The successes at the end. -/
def successRun (probes : List Probe) : ℕ := (probes.rtakeWhile Probe.isHealthy).length

section Runs

variable (probes : List Probe) (now : ℕ)

@[simp] lemma failureRun_failed : failureRun (probes ++ [.failed now]) = failureRun probes + 1 := by
  rw [failureRun, rtakeWhile_concat_pos _ _ _ (by rfl), length_append,
    length_singleton, failureRun]

@[simp] lemma failureRun_healthy : failureRun (probes ++ [.healthy]) = 0 := by
  rw [failureRun, rtakeWhile_concat_neg _ _ _ (by decide), length_nil]

@[simp] lemma successRun_failed : successRun (probes ++ [.failed now]) = 0 := by
  rw [successRun, rtakeWhile_concat_neg _ _ _ (by simp [Probe.isHealthy, Probe.isFailed]),
    length_nil]

@[simp] lemma successRun_healthy : successRun (probes ++ [.healthy]) = successRun probes + 1 := by
  rw [successRun, rtakeWhile_concat_pos _ _ _ (by decide), length_append,
    length_singleton, successRun]

end Runs

/-! ## The counters -/

/-- The counter that matters is the length of the current run, and below its threshold. -/
structure Counts (failures recoveries : ℕ) (probes : List Probe) (state : HealthState) : Prop where
  available : state.unhealthyUntil = none →
    state.failures = failureRun probes ∧ failureRun probes < failures
  unavailable : state.unhealthyUntil ≠ none →
    state.recoveries = successRun probes ∧ successRun probes < recoveries

section Steps

variable {key : Str} {failures recoveries : ℕ} {states : HealthTable} {probes : List Probe}

lemma entry_insert (states : HealthTable) (key : Str) (state : HealthState) :
    HealthTable.entry (states.insert key state) key = state := by
  rw [HealthTable.entry, AList.lookup_insert, Option.getD_some]

lemma probed_append (probe : Probe) :
    probed key failures recoveries states (probes ++ [probe]) =
      (probe.mark key failures recoveries).apply
        (probed key failures recoveries states probes) := by
  rw [probed, foldl_append]
  rfl

lemma saturatingSucc_of_lt {n bound : ℕ} (h : n < bound) (hb : bound < 2 ^ 32) :
    saturatingSucc n = n + 1 := by
  rw [saturatingSucc]
  omega

/-- When a candidate is available after a failure. -/
lemma available_markProbeFailed (states : HealthTable) (now : ℕ) :
    (states.markProbeFailed key failures now).healthAvailable key = true ↔
      (states.entry key).unhealthyUntil = none ∧
        saturatingSucc (states.entry key).failures < max failures 1 := by
  rw [healthAvailable_iff, HealthTable.markProbeFailed, entry_insert, HealthState.fail]
  split_ifs with hr
  · have hn := Nat.not_lt.mpr hr
    simp only [hn, and_false]
  · have hlt := Nat.lt_of_not_le hr
    simp only [hlt, and_true]

/-- When a candidate is available after a success. -/
lemma available_markProbeHealthy (states : HealthTable) :
    (states.markProbeHealthy key recoveries).healthAvailable key = true ↔
      (states.entry key).unhealthyUntil = none ∨
        max recoveries 1 ≤ saturatingSucc (states.entry key).recoveries := by
  rw [healthAvailable_iff, HealthTable.markProbeHealthy, entry_insert]
  cases hu : (states.entry key).unhealthyUntil with
  | none => simp
  | some deadline =>
    simp only [Option.isSome_some, if_true]
    split_ifs with hr
    · simp [hr]
    · simp [hr]

lemma Counts.failed (h : Counts failures recoveries probes (states.entry key))
    (hfailures : failures < 2 ^ 32) (hrecoveries : 0 < recoveries) (now : ℕ) :
    Counts failures recoveries (probes ++ [.failed now])
      ((states.markProbeFailed key failures now).entry key) := by
  refine ⟨fun hn => ?_, fun _ => ?_⟩
  · -- only a candidate that was available, and failed too rarely, is available now
    rw [← healthAvailable_iff, available_markProbeFailed] at hn
    obtain ⟨hc, hb⟩ := h.available hn.1
    have hs := saturatingSucc_of_lt hb hfailures
    rw [hc] at hn
    rw [HealthTable.markProbeFailed, entry_insert, failureRun_failed]
    exact ⟨by rw [← hs, ← hc]; rfl, by omega⟩
  · rw [HealthTable.markProbeFailed, entry_insert, successRun_failed]
    exact ⟨rfl, hrecoveries⟩

lemma Counts.healthy (h : Counts failures recoveries probes (states.entry key))
    (hfailures : 0 < failures) (hrecoveries : recoveries < 2 ^ 32) :
    Counts failures recoveries (probes ++ [.healthy])
      ((states.markProbeHealthy key recoveries).entry key) := by
  rw [HealthTable.markProbeHealthy, entry_insert]
  dsimp only
  refine ⟨fun hn => ?_, fun hs => ?_⟩
  · -- available now: the failures have just been set to zero
    rw [failureRun_healthy]
    refine ⟨?_, hfailures⟩
    split_ifs at hn ⊢ with hw hr
    · rfl
    · rw [Option.isSome_iff_ne_none] at hw
      exact absurd hn hw
    · rfl
  · split_ifs at hs ⊢ with hw hr
    · exact absurd rfl hs
    · obtain ⟨hc, hb⟩ := h.unavailable hs
      have hsu := saturatingSucc_of_lt hb hrecoveries
      rw [hc] at hr
      rw [successRun_healthy]
      exact ⟨by rw [← hsu, ← hc], by omega⟩
    · rw [Bool.not_eq_true, Option.isSome_eq_false_iff, Option.isNone_iff_eq_none] at hw
      exact absurd hw hs

end Steps

section Hysteresis

variable {key : Str} {failures recoveries : ℕ} (hfailures : 0 < failures)
  (hfailures' : failures < 2 ^ 32) (hrecoveries : 0 < recoveries) (hrecoveries' : recoveries < 2 ^ 32)
  {states : HealthTable} (hnew : states.lookup key = none)

include hfailures hfailures' hrecoveries hrecoveries' hnew

/-- Along every sequence of probes of a candidate that is new. -/
lemma counts_probed (probes : List Probe) : Counts failures recoveries probes
    ((probed key failures recoveries states probes).entry key) := by
  induction probes using List.reverseRecOn with
  | nil =>
    have hen : states.entry key = {} := by rw [HealthTable.entry, hnew, Option.getD_none]
    show Counts _ _ _ (states.entry key)
    rw [hen]
    exact ⟨fun _ => ⟨rfl, hfailures⟩, fun h => absurd rfl h⟩
  | append_singleton probes probe ih =>
    rw [probed_append]
    cases probe with
    | failed now => exact ih.failed hfailures' hrecoveries now
    | healthy => exact ih.healthy hfailures hrecoveries'

/-- A candidate that is available goes away exactly with the failure that makes the run of failures
as long as the failure threshold, and one that is not comes back exactly with the success that makes
the run of successes as long as the recovery threshold. -/
theorem probe_hysteresis (probes : List Probe) (probe : Probe) :
    ((probed key failures recoveries states probes).healthAvailable key = true →
      ((probed key failures recoveries states (probes ++ [probe])).healthAvailable key = false ↔
        failureRun (probes ++ [probe]) = failures)) ∧
    ((probed key failures recoveries states probes).healthAvailable key = false →
      ((probed key failures recoveries states (probes ++ [probe])).healthAvailable key = true ↔
        successRun (probes ++ [probe]) = recoveries)) := by
  have hcounts := counts_probed hfailures hfailures' hrecoveries hrecoveries' hnew probes
  rw [probed_append]
  generalize probed key failures recoveries states probes = table at hcounts
  constructor
  · intro hbefore
    rw [healthAvailable_iff] at hbefore
    obtain ⟨hcount, hbelow⟩ := hcounts.available hbefore
    have hsucc := saturatingSucc_of_lt hbelow hfailures'
    rw [← Bool.not_eq_true]
    cases probe with
    | failed now =>
      show ¬(table.markProbeFailed key failures now).healthAvailable key = true ↔ _
      rw [available_markProbeFailed, hcount, hsucc, failureRun_failed, and_iff_right hbefore]
      omega
    | healthy =>
      show ¬(table.markProbeHealthy key recoveries).healthAvailable key = true ↔ _
      rw [available_markProbeHealthy, failureRun_healthy]
      simp only [hbefore, true_or, not_true_eq_false, false_iff]
      omega
  · intro hbefore
    rw [← Bool.not_eq_true, healthAvailable_iff] at hbefore
    obtain ⟨hcount, hbelow⟩ := hcounts.unavailable hbefore
    have hsucc := saturatingSucc_of_lt hbelow hrecoveries'
    cases probe with
    | failed now =>
      show (table.markProbeFailed key failures now).healthAvailable key = true ↔ _
      rw [available_markProbeFailed, successRun_failed]
      simp only [hbefore, false_and, false_iff]
      omega
    | healthy =>
      show (table.markProbeHealthy key recoveries).healthAvailable key = true ↔ _
      rw [available_markProbeHealthy, hcount, hsucc, successRun_healthy, or_iff_right hbefore]
      omega

end Hysteresis

/-- With the default thresholds the third failure in a row counts, and the second success. -/
theorem probe_hysteresis_defaults :
    (probed [] 3 2 ∅ [.failed 0, .failed 1, .failed 2]).healthAvailable [] = false ∧
      (probed [] 3 2 ∅ [.failed 0, .failed 1, .failed 2, .healthy, .healthy]).healthAvailable [] =
        true := by
  have hrule := @probe_hysteresis [] 3 2 (by decide) (by decide) (by decide) (by decide) ∅ rfl
  refine ⟨((hrule [.failed 0, .failed 1] (.failed 2)).1 (by decide)).mpr (by decide), ?_⟩
  exact ((hrule [.failed 0, .failed 1, .failed 2, .healthy] .healthy).2 (by decide)).mpr (by decide)

end Veysrs.Proxy
