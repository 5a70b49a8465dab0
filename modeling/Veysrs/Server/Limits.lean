import Veysrs.Core.AssocMap
import Veysrs.Core.Io
import Veysrs.Core.Net
import Veysrs.Core.TokenBucket

/-!
# Admission limits

`server/limits.rs`: one bucket of tokens and one count of connections for every address, kept in a
table of at most `maxEntries` buckets from which every call first drops those not seen for a while.
Token arithmetic is exact.

`Step` is what the server does with the table: requests, connections and releases at times that do
not go back, an address releasing only connections it has open.

**Requests.**  The table holds for every address a number of tokens (`levelAt`) that makes a
`Core.Meter` of it, provided an address that has been forgotten would have had a full bucket anyway.
That is so exactly when a bucket fills up in the 60 seconds after which it is dropped
(`request_rate_iff`).

**Connections.**  A bucket that still counts connections is dropped after 300 seconds without a call
for its address; the limit holds as long as that does not happen (`connections_bounded`).
-/

namespace Veysrs

open Core

/-! ## The table -/

def maxEntries : ℕ := 4096

structure Bucket where
  tokens : ℚ
  updated : ℕ
  connections : ℕ
  lastSeen : ℕ
  deriving DecidableEq, Repr

abbrev AdmissionLimiter := AssocMap IpAddr Bucket

/-- Whether `evict_old` keeps the bucket. -/
def Bucket.recent (now : ℕ) (bucket : Bucket) : Bool :=
  (0 < bucket.connections && now - bucket.lastSeen < seconds 300) ||
    now - bucket.lastSeen < seconds 60

def evictOld (buckets : AdmissionLimiter) (now : ℕ) : AdmissionLimiter :=
  retain (Bucket.recent now) buckets

/-- `Duration::as_secs_f64`, of a time in nanoseconds. -/
def asSecs (d : ℕ) : ℚ := d / 1000000000

/-- The tokens of a bucket, refilled. -/
def Bucket.refilled (rate burst : ℕ) (now : ℕ) (bucket : Bucket) : ℚ :=
  min (bucket.tokens + asSecs (now - bucket.updated) * rate) burst

/-- The part of `allow_request` that works on the bucket. -/
def Bucket.takeToken (rate burst : ℕ) (now : ℕ) (bucket : Bucket) : Bool × Bucket :=
  let tokens := bucket.refilled rate burst now
  let bucket := { bucket with tokens, updated := now, lastSeen := now }
  if tokens < 1 then (false, bucket) else (true, { bucket with tokens := tokens - 1 })

/-- The part of `try_connection` that works on the bucket. -/
def Bucket.addConnection (max : ℕ) (now : ℕ) (bucket : Bucket) : Bool × Bucket :=
  if max ≤ bucket.connections then (false, bucket)
  else (true, { bucket with connections := bucket.connections + 1, lastSeen := now })

/-- What `allow_request` and `try_connection` have in common: old buckets go, a full table takes no
new address, and the address's bucket, made if there is none, answers. -/
def serveAddress (ip : IpAddr) (fresh : Bucket) (serve : Bucket → Bool × Bucket) (now : ℕ)
    (buckets : AdmissionLimiter) : Bool × AdmissionLimiter :=
  let buckets := evictOld buckets now
  if maxEntries ≤ buckets.keys.length ∧ ip ∉ buckets then (false, buckets)
  else
    let served := serve ((buckets.lookup ip).getD fresh)
    (served.1, buckets.insert ip served.2)

def allowRequest (ip : IpAddr) (rate burst : ℕ) (now : ℕ) (buckets : AdmissionLimiter) :
    Bool × AdmissionLimiter :=
  if rate = 0 ∨ burst = 0 then (true, buckets)
  else serveAddress ip { tokens := burst, updated := now, connections := 0, lastSeen := now }
    (Bucket.takeToken rate burst now) now buckets

def tryConnection (ip : IpAddr) (max : ℕ) (now : ℕ) (buckets : AdmissionLimiter) :
    Bool × AdmissionLimiter :=
  if max = 0 then (true, buckets)
  else serveAddress ip { tokens := 0, updated := now, connections := 0, lastSeen := now }
    (Bucket.addConnection max now) now buckets

def releaseConnection (ip : IpAddr) (now : ℕ) (buckets : AdmissionLimiter) :
    AdmissionLimiter :=
  match buckets.lookup ip with
  | some bucket =>
    buckets.insert ip { bucket with connections := bucket.connections - 1, lastSeen := now }
  | none => buckets

/-! ## The server -/

/-- The table, the time of the last call, and how many connections every address has open. -/
structure Admission where
  limiter : AdmissionLimiter
  clock : ℕ
  opened : IpAddr → ℕ

def Admission.start : Admission := { limiter := ∅, clock := 0, opened := fun _ => 0 }

inductive AdmissionEvent where
  | request (now : ℕ) (ip : IpAddr) (admitted : Bool)
  | connection (now : ℕ) (ip : IpAddr) (admitted : Bool)
  | release (now : ℕ) (ip : IpAddr)
  deriving DecidableEq

namespace Admission

variable (rate burst max : ℕ)

/-- The state after `allow_request`. -/
def afterRequest (now : ℕ) (ip : IpAddr) (s : Admission) : Admission :=
  { s with limiter := (allowRequest ip rate burst now s.limiter).2, clock := now }

/-- The state after `try_connection`. -/
def afterConnection (now : ℕ) (ip : IpAddr) (s : Admission) : Admission :=
  { limiter := (tryConnection ip max now s.limiter).2
    clock := now
    opened := if (tryConnection ip max now s.limiter).1
      then Function.update s.opened ip (s.opened ip + 1) else s.opened }

/-- The state after `release_connection`, which `IpConnectionGuard` calls once for a connection. -/
def afterRelease (now : ℕ) (ip : IpAddr) (s : Admission) : Admission :=
  { limiter := releaseConnection ip now s.limiter
    clock := now
    opened := Function.update s.opened ip (s.opened ip - 1) }

inductive Step : Admission → List AdmissionEvent → Admission → Prop
  | request {s : Admission} {now : ℕ} (ip : IpAddr) : s.clock ≤ now →
      Step s [.request now ip (allowRequest ip rate burst now s.limiter).1]
        (afterRequest rate burst now ip s)
  | connection {s : Admission} {now : ℕ} (ip : IpAddr) : s.clock ≤ now →
      Step s [.connection now ip (tryConnection ip max now s.limiter).1]
        (afterConnection max now ip s)
  | release {s : Admission} {now : ℕ} {ip : IpAddr} : s.clock ≤ now → 0 < s.opened ip →
      Step s [.release now ip] (afterRelease now ip s)

end Admission

/-! ## What a call does to one address -/

section Calls

variable {rate burst max : ℕ} {ip other : IpAddr} {now : ℕ} {buckets : AdmissionLimiter}

lemma lookup_evictOld : (evictOld buckets now).lookup ip =
    (buckets.lookup ip).filter (Bucket.recent now) :=
  lookup_retain _ _ _

lemma allowRequest_pos (hr : 0 < rate) (hb : 0 < burst) :
    allowRequest ip rate burst now buckets =
      serveAddress ip { tokens := burst, updated := now, connections := 0, lastSeen := now }
        (Bucket.takeToken rate burst now) now buckets :=
  if_neg (by omega)

lemma tryConnection_pos (hm : 0 < max) : tryConnection ip max now buckets =
    serveAddress ip { tokens := 0, updated := now, connections := 0, lastSeen := now }
      (Bucket.addConnection max now) now buckets :=
  if_neg hm.ne'

/-- The two things that can happen: no place in the table, or the bucket answers. -/
lemma serveAddress_cases (ip : IpAddr) (fresh : Bucket) (serve : Bucket → Bool × Bucket) (now : ℕ)
    (buckets : AdmissionLimiter) :
    (serveAddress ip fresh serve now buckets = (false, evictOld buckets now) ∧
        (evictOld buckets now).lookup ip = none ∧
        maxEntries ≤ (evictOld buckets now).keys.length) ∨
      (((evictOld buckets now).keys.length < maxEntries ∨ ip ∈ evictOld buckets now) ∧
        serveAddress ip fresh serve now buckets =
          ((serve (((evictOld buckets now).lookup ip).getD fresh)).1, (evictOld buckets now).insert
            ip (serve (((evictOld buckets now).lookup ip).getD fresh)).2)) := by
  simp only [serveAddress]
  split_ifs with hf
  · exact .inl ⟨rfl, AList.lookup_eq_none.mpr hf.2, hf.1⟩
  · refine .inr ⟨?_, rfl⟩
    by_cases hm : ip ∈ evictOld buckets now
    · exact .inr hm
    · exact .inl (not_le.mp fun h => hf ⟨h, hm⟩)

/-- What a call for `ip` means for an address: nothing happened but the eviction, and `ip` itself
was refused, or the address is `ip` and its bucket has answered. -/
lemma serveAddress_lookup (ip other : IpAddr) (fresh : Bucket)
    (serve : Bucket → Bool × Bucket) (now : ℕ) (buckets : AdmissionLimiter) :
    ((serveAddress ip fresh serve now buckets).2.lookup other =
        (evictOld buckets now).lookup other ∧
      (other = ip → (serveAddress ip fresh serve now buckets).1 = false)) ∨
    (other = ip ∧
      (serveAddress ip fresh serve now buckets).1 =
        (serve (((evictOld buckets now).lookup ip).getD fresh)).1 ∧
      (serveAddress ip fresh serve now buckets).2.lookup other =
        some (serve (((evictOld buckets now).lookup ip).getD fresh)).2) := by
  rcases serveAddress_cases ip fresh serve now buckets with ⟨heq, -⟩ | ⟨-, heq⟩
  · rw [heq]
    exact .inl ⟨rfl, fun _ => rfl⟩
  · rw [heq]
    by_cases hip : other = ip
    · subst hip
      exact .inr ⟨rfl, rfl, AList.lookup_insert _⟩
    · exact .inl ⟨AList.lookup_insert_ne hip, fun h => absurd h hip⟩

lemma releaseConnection_self : (releaseConnection ip now buckets).lookup ip =
    (buckets.lookup ip).map fun bucket =>
      { bucket with connections := bucket.connections - 1, lastSeen := now } := by
  unfold releaseConnection
  split
  · rename_i bucket h
    rw [h, AList.lookup_insert, Option.map_some]
  · rename_i h
    rw [h, Option.map_none]

lemma releaseConnection_other (h : other ≠ ip) :
    (releaseConnection ip now buckets).lookup other = buckets.lookup other := by
  unfold releaseConnection
  split
  · exact AList.lookup_insert_ne h
  · rfl

end Calls

/-! ## The size of the table -/

section Size

variable {ip : IpAddr} {now : ℕ} {buckets : AdmissionLimiter}

lemma length_keys_serveAddress_le {fresh : Bucket} {serve : Bucket → Bool × Bucket}
    (hs : buckets.keys.length ≤ maxEntries) :
    (serveAddress ip fresh serve now buckets).2.keys.length ≤ maxEntries := by
  have hev : (evictOld buckets now).keys.length ≤ maxEntries :=
    (length_keys_retain_le _ _).trans hs
  rcases serveAddress_cases ip fresh serve now buckets with ⟨heq, -⟩ | ⟨hr | hm, heq⟩
  · rwa [heq]
  · rw [heq]
    exact (length_keys_insert_le _ _ _).trans hr
  · rwa [heq, length_keys_insert_of_mem hm]

lemma length_keys_releaseConnection :
    (releaseConnection ip now buckets).keys.length = buckets.keys.length := by
  unfold releaseConnection
  split
  · rename_i bucket h
    exact length_keys_insert_of_mem (AList.lookup_isSome.mp (by rw [h]; rfl)) _
  · rfl

variable {rate burst max : ℕ} {s t : Admission} {evs : List AdmissionEvent}

lemma Admission.Step.size (h : Admission.Step rate burst max s evs t)
    (hs : s.limiter.keys.length ≤ maxEntries) : t.limiter.keys.length ≤ maxEntries := by
  cases h with
  | request ip _ =>
    simp only [Admission.afterRequest, allowRequest]
    split_ifs
    · exact hs
    · exact length_keys_serveAddress_le hs
  | connection ip _ =>
    simp only [Admission.afterConnection, tryConnection]
    split_ifs
    · exact hs
    · exact length_keys_serveAddress_le hs
  | release _ _ => rwa [Admission.afterRelease, length_keys_releaseConnection]

end Size

/-! ## Tokens -/

section Tokens

variable {rate burst : ℕ} {now clock : ℕ}

lemma asSecs_nonneg (d : ℕ) : 0 ≤ asSecs d := by
  unfold asSecs
  positivity

lemma asSecs_sub {a b : ℕ} (h : a ≤ b) : asSecs (b - a) = asSecs b - asSecs a := by
  rw [asSecs, asSecs, asSecs, Nat.cast_sub h, sub_div]

lemma asSecs_seconds (n : ℕ) : asSecs (seconds n) = n := by
  rw [asSecs, seconds]
  norm_num

lemma asSecs_mono {a b : ℕ} (h : a ≤ b) : asSecs a ≤ asSecs b := by
  have hc : (a : ℚ) ≤ b := Nat.cast_le.mpr h
  exact div_le_div_of_nonneg_right hc (by norm_num)

/-- The tokens an address has at a time: a full bucket if the table knows nothing of it. -/
def levelAt (rate burst : ℕ) (now : ℕ) (bucket : Option Bucket) : ℚ :=
  bucket.elim (burst : ℚ) (Bucket.refilled rate burst now)

/-- A bucket as the calls leave it: no debt, and no time later than the clock's. -/
structure Bucket.Sound (clock : ℕ) (bucket : Bucket) : Prop where
  nonneg : 0 ≤ bucket.tokens
  updated : bucket.updated ≤ bucket.lastSeen
  seen : bucket.lastSeen ≤ clock

lemma Bucket.Sound.later {bucket : Bucket} (h : bucket.Sound clock) (hle : clock ≤ now) :
    bucket.Sound now :=
  ⟨h.nonneg, h.updated, h.seen.trans hle⟩

lemma levelAt_le_burst (rate burst now : ℕ) (bucket : Option Bucket) : levelAt rate burst now bucket ≤ burst := by
  cases bucket with
  | none => exact le_refl _
  | some bucket => exact min_le_right _ _

variable {bucket : Option Bucket}

lemma levelAt_nonneg (h : ∀ b ∈ bucket, b.Sound clock) : 0 ≤ levelAt rate burst now bucket := by
  cases bucket with
  | none => exact Nat.cast_nonneg _
  | some bucket =>
    refine le_min (add_nonneg (h bucket rfl).nonneg ?_) (Nat.cast_nonneg _)
    exact mul_nonneg (asSecs_nonneg _) (Nat.cast_nonneg _)

/-- Tokens come in at `rate` a second at most. -/
lemma levelAt_later (h : ∀ b ∈ bucket, b.Sound clock) (hle : clock ≤ now) :
    levelAt rate burst now bucket ≤
      levelAt rate burst clock bucket + rate * (asSecs now - asSecs clock) := by
  have hg : 0 ≤ (rate : ℚ) * (asSecs now - asSecs clock) := by
    rw [← asSecs_sub hle]
    exact mul_nonneg (Nat.cast_nonneg _) (asSecs_nonneg _)
  cases bucket with
  | none =>
    show (burst : ℚ) ≤ burst + _
    linarith
  | some bucket =>
    have hs := h bucket rfl
    have hu := hs.updated.trans hs.seen
    simp only [levelAt, Option.elim_some, Bucket.refilled]
    rw [asSecs_sub (hu.trans hle), asSecs_sub hu, min_add]
    refine min_le_min ?_ ?_ <;> linarith

/-- A bucket that is dropped after filling up is missed by no one. -/
lemma levelAt_filter_recent (h : ∀ b ∈ bucket, b.Sound clock) (hf : burst ≤ 60 * rate) :
    levelAt rate burst now (bucket.filter (Bucket.recent now)) =
      levelAt rate burst now bucket := by
  cases bucket with
  | none => rfl
  | some bucket =>
    by_cases hr : bucket.recent now
    · rw [Option.filter_some_pos hr]
    · rw [Option.filter_some_neg (Bool.not_eq_true _ ▸ hr)]
      have hs := h bucket rfl
      have hi : seconds 60 ≤ now - bucket.updated := by
        simp only [Bucket.recent, Bool.or_eq_true, decide_eq_true_eq] at hr
        have hu := hs.updated
        omega
      have hse : (60 : ℚ) ≤ asSecs (now - bucket.updated) := by
        have hm := asSecs_mono hi
        rwa [asSecs_seconds] at hm
      have hf' : (burst : ℚ) ≤ 60 * rate := by exact_mod_cast hf
      have hg : 60 * (rate : ℚ) ≤ asSecs (now - bucket.updated) * rate :=
        mul_le_mul_of_nonneg_right hse (Nat.cast_nonneg _)
      have hn := hs.nonneg
      simp only [levelAt, Option.elim_none]
      exact (min_eq_right (by linarith)).symm

/-- Refilled, a bucket is marked as updated and seen, and gives a token if it has one. -/
lemma takeToken_eq (bucket : Bucket) : bucket.takeToken rate burst now =
    (decide (1 ≤ bucket.refilled rate burst now),
      { tokens := bucket.refilled rate burst now -
          (if 1 ≤ bucket.refilled rate burst now then 1 else 0)
        updated := now
        connections := bucket.connections
        lastSeen := now }) := by
  by_cases hl : bucket.refilled rate burst now < 1
  · have hle : ¬1 ≤ bucket.refilled rate burst now := not_le.mpr hl
    simp [Bucket.takeToken, hle]
  · have hle : 1 ≤ bucket.refilled rate burst now := not_lt.mp hl
    simp [Bucket.takeToken, hle]

/-- Taking a token leaves one less. -/
lemma levelAt_takeToken (rate burst now : ℕ) (bucket : Bucket) :
    levelAt rate burst now (some (bucket.takeToken rate burst now).2) +
      (if (bucket.takeToken rate burst now).1 then 1 else 0) =
        bucket.refilled rate burst now := by
  have hle : bucket.refilled rate burst now ≤ burst := min_le_right _ _
  rw [takeToken_eq]
  generalize bucket.refilled rate burst now = tokens at hle ⊢
  by_cases ho : 1 ≤ tokens
  · have hl : tokens ≤ burst + 1 := by linarith
    simp [levelAt, Bucket.refilled, asSecs, ho, hl]
  · simp [levelAt, Bucket.refilled, asSecs, ho, hle]

lemma Bucket.Sound.takeToken {bucket : Bucket} (h : bucket.Sound now) :
    (bucket.takeToken rate burst now).2.Sound now := by
  have hs : ∀ b ∈ some bucket, b.Sound now := by simpa using h
  have hn : 0 ≤ levelAt rate burst now (some bucket) := levelAt_nonneg hs
  rw [levelAt] at hn
  rw [takeToken_eq]
  refine ⟨?_, le_refl _, le_refl _⟩
  show 0 ≤ bucket.refilled rate burst now - _
  split_ifs with ho
  · exact sub_nonneg.mpr ho
  · simpa using hn

lemma Bucket.Sound.addConnection {bucket : Bucket} {max : ℕ} (h : bucket.Sound now) :
    (bucket.addConnection max now).2.Sound now := by
  simp only [Bucket.addConnection]
  split_ifs
  · exact h
  · exact ⟨h.nonneg, h.updated.trans h.seen, le_refl _⟩

lemma levelAt_addConnection (bucket : Bucket) (max : ℕ) :
    levelAt rate burst now (some (bucket.addConnection max now).2) =
      bucket.refilled rate burst now := by
  simp only [Bucket.addConnection]
  split_ifs <;> rfl

end Tokens

/-! ## The table is a meter of every address's requests -/

namespace Admission

variable {now : ℕ}

section Meter

variable {rate burst max : ℕ} {s t : Admission} {evs : List AdmissionEvent}

/-- The time an event is at, in seconds. -/
def secondsOf : AdmissionEvent → ℚ
  | .request now _ _ => asSecs now
  | .connection now _ _ => asSecs now
  | .release now _ => asSecs now

/-- Whether the event is a request of `ip` that was admitted. -/
def isAdmitted (ip : IpAddr) : AdmissionEvent → Bool
  | .request _ ip' admitted => ip' = ip && admitted
  | _ => false

/-- What the table says about `ip` is sound. -/
def SoundAt (ip : IpAddr) (s : Admission) : Prop :=
  ∀ bucket ∈ s.limiter.lookup ip, bucket.Sound s.clock

variable {ip : IpAddr}

/-- A call at `ip` finds a sound bucket, whether it was there or is made. -/
lemma SoundAt.found (h : SoundAt ip s) (hle : s.clock ≤ now) {fresh : Bucket}
    (hf : fresh.Sound now) : (((evictOld s.limiter now).lookup ip).getD fresh).Sound now := by
  rw [lookup_evictOld]
  cases hb : (s.limiter.lookup ip).filter (Bucket.recent now) with
  | none => exact hf
  | some bucket => exact (h bucket (Option.filter_eq_some_iff.mp hb).1).later hle

/-- The buckets the eviction leaves are sound. -/
lemma SoundAt.evicted (h : SoundAt ip s) (hle : s.clock ≤ now) :
    ∀ bucket ∈ (evictOld s.limiter now).lookup ip, bucket.Sound now := by
  intro bucket hb
  rw [lookup_evictOld] at hb
  exact (h bucket (Option.filter_eq_some_iff.mp hb).1).later hle

lemma Step.soundAt (h : Step rate burst max s evs t) (hs : SoundAt ip s) : SoundAt ip t := by
  cases h with
  | @request now caller hle =>
    intro bucket hb
    simp only [afterRequest, allowRequest] at hb
    split_ifs at hb
    · exact (hs bucket hb).later hle
    · rcases serveAddress_lookup caller ip _ _ now s.limiter with ⟨heq, -⟩ | ⟨rfl, -, heq⟩
      · exact hs.evicted hle bucket (heq ▸ hb)
      · obtain rfl : _ = bucket := Option.some.inj (heq.symm.trans hb)
        exact (hs.found hle ⟨Nat.cast_nonneg _, le_refl _, le_refl _⟩).takeToken
  | @connection now caller hle =>
    intro bucket hb
    simp only [afterConnection, tryConnection] at hb
    split_ifs at hb
    · exact (hs bucket hb).later hle
    · rcases serveAddress_lookup caller ip _ _ now s.limiter with ⟨heq, -⟩ | ⟨rfl, -, heq⟩
      · exact hs.evicted hle bucket (heq ▸ hb)
      · obtain rfl : _ = bucket := Option.some.inj (heq.symm.trans hb)
        exact (hs.found hle ⟨le_refl _, le_refl _, le_refl _⟩).addConnection
  | @release now caller hle _ =>
    intro bucket hb
    simp only [afterRelease] at hb
    by_cases hip : ip = caller
    · subst hip
      rw [releaseConnection_self] at hb
      obtain ⟨old, ho, rfl⟩ := Option.map_eq_some_iff.mp hb
      have hsnd := hs old ho
      exact ⟨hsnd.nonneg, (hsnd.updated.trans hsnd.seen).trans hle, le_refl _⟩
    · rw [releaseConnection_other hip] at hb
      exact (hs bucket hb).later hle

/-- The time of a step and of its events. -/
lemma Step.timed (h : Step rate burst max s evs t) :
    s.clock ≤ t.clock ∧ ∀ e ∈ evs, secondsOf e = asSecs t.clock := by
  cases h with
  | request ip hle => exact ⟨hle, by simp [secondsOf, afterRequest]⟩
  | connection ip hle => exact ⟨hle, by simp [secondsOf, afterConnection]⟩
  | release hle ho => exact ⟨hle, by simp [secondsOf, afterRelease]⟩

/-- What a step leaves and takes at an address was there before it. -/
lemma Step.spends (hra : 0 < rate) (hb : 0 < burst) (hfi : burst ≤ 60 * rate)
    (h : Step rate burst max s evs t) (hs : SoundAt ip s) :
    levelAt rate burst t.clock (t.limiter.lookup ip) + evs.countP (isAdmitted ip) ≤
      levelAt rate burst t.clock (s.limiter.lookup ip) := by
  have hev (now : ℕ) : levelAt rate burst now ((evictOld s.limiter now).lookup ip) =
      levelAt rate burst now (s.limiter.lookup ip) := by
    rw [lookup_evictOld]
    exact levelAt_filter_recent hs hfi
  cases h with
  | @request now caller hle =>
    simp only [afterRequest, allowRequest_pos hra hb, ← hev now]
    rcases serveAddress_lookup caller ip _ _ now s.limiter with ⟨heq, hr⟩ | ⟨rfl, ha, heq⟩
    · have hc : ∀ admitted, (ip = caller → admitted = false) →
          [AdmissionEvent.request now caller admitted].countP (isAdmitted ip) = 0 := by
        intro admitted hadm
        by_cases hip : ip = caller
        · simp [isAdmitted, hadm hip]
        · simp [isAdmitted, Ne.symm hip]
      rw [heq, hc _ hr, Nat.cast_zero, add_zero]
    · have ht := levelAt_takeToken rate burst now
        (((evictOld s.limiter now).lookup ip).getD
          { tokens := burst, updated := now, connections := 0, lastSeen := now })
      have hf : (((evictOld s.limiter now).lookup ip).getD
            { tokens := burst, updated := now, connections := 0, lastSeen := now }).refilled
              rate burst now =
          levelAt rate burst now ((evictOld s.limiter now).lookup ip) := by
        cases (evictOld s.limiter now).lookup ip with
        | none => simp [Bucket.refilled, levelAt, asSecs]
        | some bucket => rfl
      rw [heq, ha, ← hf, ← ht]
      simp [isAdmitted]
  | @connection now caller hle =>
    simp only [afterConnection, tryConnection]
    have hc : ∀ admitted,
        [AdmissionEvent.connection now caller admitted].countP (isAdmitted ip) = 0 := by
      intro admitted
      rfl
    rw [hc, Nat.cast_zero, add_zero]
    split_ifs
    · exact le_refl _
    · rw [← hev now]
      rcases serveAddress_lookup caller ip _ _ now s.limiter with ⟨heq, -⟩ | ⟨rfl, -, heq⟩
      · rw [heq]
      · rw [heq, levelAt_addConnection]
        cases (evictOld s.limiter now).lookup ip with
        | none => exact min_le_right _ _
        | some bucket => exact le_refl _
  | @release now caller hle _ =>
    simp only [afterRelease]
    have hc : [AdmissionEvent.release now caller].countP (isAdmitted ip) = 0 := rfl
    rw [hc, Nat.cast_zero, add_zero]
    by_cases hip : ip = caller
    · subst hip
      rw [releaseConnection_self]
      cases s.limiter.lookup ip <;> exact le_refl _
    · rw [releaseConnection_other hip]

/-- The table as a meter of the requests of one address. -/
def meter (max : ℕ) (hrate : 0 < rate) (hburst : 0 < burst) (hfill : burst ≤ 60 * rate)
    (ip : IpAddr) : Meter (Step rate burst max) secondsOf (isAdmitted ip) rate burst where
  good := SoundAt ip
  clock s := asSecs s.clock
  level s := levelAt rate burst s.clock (s.limiter.lookup ip)
  nonneg := levelAt_nonneg
  le_burst _ := levelAt_le_burst _ _ _ _
  keeps hsound h := h.soundAt hsound
  forward _ h := asSecs_mono h.timed.1
  timed _ h := h.timed.2
  spends hsound h := (h.spends hrate hburst hfill hsound).trans
    (le_min (levelAt_le_burst _ _ _ _) (levelAt_later hsound h.timed.1))

end Meter

/-! ## A bucket that is dropped before it has filled up -/

section Forgotten

variable {rate burst max : ℕ} {ip : IpAddr} {now : ℕ} {s : Admission}

/-- Nobody but `ip` has called, it has no connection, and it has at least `n` tokens at `now`. -/
structure Holds (rate burst : ℕ) (ip : IpAddr) (now n : ℕ) (s : Admission) : Prop where
  alone : ∀ k ∈ s.limiter.keys, k = ip
  clock : s.clock ≤ now
  level : (n : ℚ) ≤ levelAt rate burst now ((evictOld s.limiter now).lookup ip)
  connections : ((evictOld s.limiter now).lookup ip).elim 0 Bucket.connections = 0

lemma keys_evictOld_subset {buckets : AdmissionLimiter} {k : IpAddr}
    (h : k ∈ (evictOld buckets now).keys) : k ∈ buckets.keys := by
  rw [← AList.mem_keys, ← AList.lookup_isSome, lookup_evictOld] at h
  obtain ⟨bucket, hb⟩ := Option.isSome_iff_exists.mp h
  rw [← AList.mem_keys, ← AList.lookup_isSome, (Option.filter_eq_some_iff.mp hb).1]
  rfl

/-- The table is not full: it has one key at most. -/
lemma Holds.room {n : ℕ} (h : Holds rate burst ip now n s)
    (hn : (evictOld s.limiter now).lookup ip = none) : (evictOld s.limiter now).keys = [] := by
  refine List.eq_nil_iff_forall_not_mem.mpr fun k hk => ?_
  obtain rfl := h.alone k (keys_evictOld_subset hk)
  rw [← AList.mem_keys, ← AList.lookup_isSome, hn] at hk
  cases hk

/-- A token at hand is taken. -/
lemma Holds.served {n : ℕ} (hr : 0 < rate) (hbu : 0 < burst)
    (h : Holds rate burst ip now (n + 1) s) :
    allowRequest ip rate burst now s.limiter = (true, (evictOld s.limiter now).insert ip
      { tokens := levelAt rate burst now ((evictOld s.limiter now).lookup ip) - 1
        updated := now
        connections := 0
        lastSeen := now }) := by
  have ho : (1 : ℚ) ≤ levelAt rate burst now ((evictOld s.limiter now).lookup ip) := by
    have hl := h.level
    push_cast at hl
    linarith
  have hc := h.connections
  rw [allowRequest_pos hr hbu]
  rcases serveAddress_cases ip { tokens := burst, updated := now, connections := 0, lastSeen := now }
    (Bucket.takeToken rate burst now) now s.limiter with ⟨-, hn, hf⟩ | ⟨-, heq⟩
  · rw [h.room hn] at hf
    cases hf
  · rw [heq, takeToken_eq]
    cases hb : (evictOld s.limiter now).lookup ip with
    | none =>
      have hf : (1 : ℚ) ≤ burst := by exact_mod_cast hbu
      simp [Bucket.refilled, levelAt, asSecs, hf]
    | some bucket =>
      rw [hb] at hc ho
      simp only [levelAt, Option.elim_some] at ho hc
      simp [levelAt, ho, hc]

/-- A token at hand is a request admitted. -/
lemma Holds.request {n : ℕ} (hra : 0 < rate) (hb : 0 < burst)
    (h : Holds rate burst ip now (n + 1) s) :
    Holds rate burst ip now n (afterRequest rate burst now ip s) := by
  have hr : ∀ tokens, Bucket.recent now
      { tokens := tokens, updated := now, connections := 0, lastSeen := now } = true := by
    intro tokens
    simp [Bucket.recent, seconds]
  have hs := h.served hra hb
  have hke : (evictOld (afterRequest rate burst now ip s).limiter now).lookup ip = some
      { tokens := levelAt rate burst now ((evictOld s.limiter now).lookup ip) - 1
        updated := now
        connections := 0
        lastSeen := now } := by
    simp only [afterRequest, hs]
    rw [lookup_evictOld, AList.lookup_insert, Option.filter_some_pos (hr _)]
  refine ⟨?_, le_refl _, ?_, ?_⟩
  · intro k hk
    simp only [afterRequest, hs] at hk
    rw [AList.keys_insert, List.mem_cons] at hk
    rcases hk with rfl | hk
    · rfl
    · exact h.alone k (keys_evictOld_subset (List.mem_of_mem_erase hk))
  · rw [hke]
    have hl := h.level
    have hle := levelAt_le_burst rate burst now
      ((evictOld s.limiter now).lookup ip)
    push_cast at hl
    generalize levelAt rate burst now ((evictOld s.limiter now).lookup ip) = level at hl hle ⊢
    simp only [levelAt, Option.elim_some, Bucket.refilled, Nat.sub_self, asSecs]
    refine le_min ?_ ?_ <;> linarith
  · rw [hke]
    rfl

/-- As many requests are admitted at one time as there are tokens. -/
lemma Holds.requests (hr : 0 < rate) (hb : 0 < burst) (max n : ℕ) :
    ∀ {s : Admission}, Holds rate burst ip now (n + 1) s →
      ∃ t, Runs (Step rate burst max) s (List.replicate (n + 1) (.request now ip true)) t ∧
        (∀ k ∈ t.limiter.keys, k = ip) ∧ t.clock = now ∧
        ∃ bucket ∈ t.limiter.lookup ip, bucket.lastSeen = now ∧ bucket.connections = 0 := by
  induction n with
  | zero =>
    intro s h
    have hse := h.served hr hb
    have hs : Step rate burst max s _ _ := Step.request ip h.clock
    rw [hse] at hs
    refine ⟨_, Runs.single hs, (h.request hr hb).alone, rfl, ?_⟩
    rw [afterRequest, hse]
    exact ⟨_, AList.lookup_insert _, rfl, rfl⟩
  | succ n ih =>
    intro s h
    obtain ⟨t, hrun, hre⟩ := ih (h.request hr hb)
    have hs : Step rate burst max s _ _ := Step.request ip h.clock
    rw [h.served hr hb] at hs
    exact ⟨t, (Runs.single hs).trans hrun, hre⟩

/-- A full burst, and another one a minute later. -/
lemma burst_twice (hr : 0 < rate) (hbu : 0 < burst) (max : ℕ) (ip : IpAddr) :
    ∃ t, Runs (Step rate burst max) start
      (List.replicate burst (.request 0 ip true) ++
        List.replicate burst (.request (seconds 60) ip true)) t := by
  obtain ⟨n, rfl⟩ : ∃ n, burst = n + 1 := ⟨burst - 1, by omega⟩
  have hst : Holds rate (n + 1) ip 0 (n + 1) start :=
    ⟨by simp [start], le_refl _, le_refl _, rfl⟩
  obtain ⟨s, hf, hal, hcl, bucket, hb, hse, hc⟩ :=
    Holds.requests hr hbu max n hst
  have hd : (evictOld s.limiter (seconds 60)).lookup ip = none := by
    rw [lookup_evictOld, Option.mem_def.mp hb]
    exact Option.filter_some_neg (by simp [Bucket.recent, hse, hc])
  have ha : Holds rate (n + 1) ip (seconds 60) (n + 1) s := by
    refine ⟨hal, by omega, ?_, ?_⟩
    · rw [hd]
      exact le_refl _
    · rw [hd]
      rfl
  obtain ⟨t, hs, -⟩ := Holds.requests hr hbu max n ha
  exact ⟨t, hf.trans hs⟩

end Forgotten

/-! ## The request rate -/

section Rate

variable {rate burst : ℕ}

/-- The requests of `ip` admitted between two times. -/
def admittedBetween (ip : IpAddr) (a b : ℚ) (evs : List AdmissionEvent) : ℕ :=
  countIn secondsOf (isAdmitted ip) a b evs

lemma admittedBetween_burst_twice (ip : IpAddr) :
    admittedBetween ip 0 (0 + 60) (List.replicate burst (.request 0 ip true) ++
      List.replicate burst (.request (seconds 60) ip true)) = 2 * burst := by
  rw [admittedBetween, countIn_append, countIn, countIn, List.countP_replicate,
    List.countP_replicate]
  simp only [secondsOf, asSecs_seconds, isAdmitted]
  norm_num [asSecs]
  omega

/-- The rate limit and the size of the table hold in every run exactly when a bucket fills up in
the 60 seconds after which an idle one is dropped. -/
theorem request_rate_iff (hrate : 0 < rate) (hburst : 0 < burst) :
    (∀ (max : ℕ) (evs : List AdmissionEvent) (s : Admission),
        Runs (Step rate burst max) start evs s →
          (∀ (ip : IpAddr) (a T : ℚ), 0 ≤ T →
            (admittedBetween ip a (a + T) evs : ℚ) ≤ burst + rate * T) ∧
          s.limiter.keys.length ≤ maxEntries) ↔
      burst ≤ 60 * rate := by
  constructor
  · intro h
    obtain ⟨s, hrun⟩ := burst_twice hrate hburst 1 (.v4 127 0 0 1)
    have hbound := (h 1 _ s hrun).1 (.v4 127 0 0 1) 0 60 (by norm_num)
    rw [admittedBetween_burst_twice] at hbound
    have hnat : 2 * burst ≤ burst + rate * 60 := by exact_mod_cast hbound
    omega
  · intro hfill max evs s hrun
    constructor
    · intro ip a T hT
      exact (meter max hrate hburst hfill ip).countIn_le (Nat.cast_nonneg _)
        (by simp [meter, SoundAt, start]) hrun a hT
    · refine hrun.invariant (I := fun _ t => t.limiter.keys.length ≤ maxEntries) ?_ ?_
      · exact Nat.zero_le _
      · exact fun _ _ _ _ hsize hstep => hstep.size hsize

theorem request_rate_sample : 20 ≤ 60 * 10 ∧
    ∀ (max : ℕ) (evs : List AdmissionEvent) (s : Admission),
      Runs (Step 10 20 max) start evs s →
        (∀ (ip : IpAddr) (a T : ℚ), 0 ≤ T →
          (admittedBetween ip a (a + T) evs : ℚ) ≤ (20 : ℕ) + (10 : ℕ) * T) ∧
        s.limiter.keys.length ≤ maxEntries :=
  ⟨by decide, (request_rate_iff (by decide) (by decide)).mpr (by decide)⟩

/-- At one request a second with bursts of 61, an address gets 122 requests in a minute. -/
theorem forgotten_burst_admitted : ∃ (evs : List AdmissionEvent) (s : Admission),
    Runs (Step 1 61 1) start evs s ∧
      ¬(admittedBetween (.v4 127 0 0 1) 0 (0 + 60) evs : ℚ) ≤ (61 : ℕ) + (1 : ℕ) * 60 := by
  obtain ⟨s, hrun⟩ : ∃ s, Runs (Step 1 61 1) start _ s :=
    burst_twice (by decide) (by decide) 1 (.v4 127 0 0 1)
  refine ⟨_, s, hrun, ?_⟩
  rw [admittedBetween_burst_twice]
  norm_num

end Rate

/-! ## The connection limit -/

section Connections

variable {rate burst max : ℕ} {ip : IpAddr} {s t : Admission} {evs : List AdmissionEvent}

/-- A call at `now` does not make the table forget a connection of `ip`. -/
def Remembers (ip : IpAddr) (s : Admission) (now : ℕ) : Prop :=
  ∀ bucket ∈ s.limiter.lookup ip, 0 < bucket.connections → now - bucket.lastSeen < seconds 300

/-- The connections the table counts for an address. -/
def countedAt (buckets : AdmissionLimiter) (ip : IpAddr) : ℕ :=
  (buckets.lookup ip).elim 0 Bucket.connections

/-- What is evicted counted no connection. -/
lemma Remembers.countedAt_evictOld (h : Remembers ip s now) :
    countedAt (evictOld s.limiter now) ip = countedAt s.limiter ip := by
  simp only [countedAt, lookup_evictOld]
  cases hb : s.limiter.lookup ip with
  | none => rfl
  | some bucket =>
    by_cases hp : 0 < bucket.connections
    · have hr : bucket.recent now = true := by
        simp [Bucket.recent, hp, h bucket hb hp]
      rw [Option.filter_some_pos hr]
    · have hz : bucket.connections = 0 := by omega
      cases hr : bucket.recent now with
      | true => rw [Option.filter_some_pos hr]
      | false => rw [Option.filter_some_neg hr, Option.elim_none, Option.elim_some, hz]

/-- The table counts the connections an address has open, and they are not too many. -/
structure Counts (max : ℕ) (ip : IpAddr) (s : Admission) : Prop where
  counted : countedAt s.limiter ip = s.opened ip
  bounded : s.opened ip ≤ max

lemma Counts.request (caller : IpAddr) (h : Counts max ip s) (hk : Remembers ip s now) :
    Counts max ip (afterRequest rate burst now caller s) := by
  refine ⟨?_, h.bounded⟩
  show countedAt (allowRequest caller rate burst now s.limiter).2 ip = s.opened ip
  rw [← h.counted, allowRequest]
  split_ifs
  · rfl
  · rw [← hk.countedAt_evictOld]
    rcases serveAddress_lookup caller ip
      { tokens := burst, updated := now, connections := 0, lastSeen := now }
      (Bucket.takeToken rate burst now) now s.limiter with ⟨heq, -⟩ | ⟨rfl, -, heq⟩
    · rw [countedAt, heq, countedAt]
    · rw [countedAt, heq, takeToken_eq, countedAt]
      cases (evictOld s.limiter now).lookup ip <;> rfl

lemma opened_afterConnection (now : ℕ) (caller : IpAddr) (s : Admission) :
    (afterConnection max now caller s).opened ip = s.opened ip +
      (if ip = caller ∧ (tryConnection caller max now s.limiter).1 = true then 1 else 0) := by
  simp only [afterConnection]
  by_cases hip : ip = caller
  · subst hip
    split_ifs <;> simp_all
  · split_ifs with ha <;> simp_all

/-- A connection that is let in is counted, and there was room for it. -/
lemma countedAt_tryConnection (ip : IpAddr) (hm : 0 < max) (now : ℕ) (caller : IpAddr)
    (buckets : AdmissionLimiter) :
    countedAt (tryConnection caller max now buckets).2 ip = countedAt (evictOld buckets now) ip +
        (if ip = caller ∧ (tryConnection caller max now buckets).1 = true then 1 else 0) ∧
      (ip = caller → (tryConnection caller max now buckets).1 = true →
        countedAt (evictOld buckets now) ip < max) := by
  rw [tryConnection_pos hm]
  rcases serveAddress_lookup caller ip
    { tokens := 0, updated := now, connections := 0, lastSeen := now }
    (Bucket.addConnection max now) now buckets with ⟨heq, hr⟩ | ⟨rfl, ha, heq⟩
  · refine ⟨?_, fun hip ha => ?_⟩
    · rw [countedAt, heq, countedAt, if_neg, add_zero]
      rintro ⟨hip, ha⟩
      rw [hr hip] at ha
      cases ha
    · rw [hr hip] at ha
      cases ha
  · have hfo : (((evictOld buckets now).lookup ip).getD
        { tokens := 0, updated := now, connections := 0, lastSeen := now }).connections =
          countedAt (evictOld buckets now) ip := by
      rw [countedAt]
      cases (evictOld buckets now).lookup ip <;> rfl
    rw [countedAt, heq, ha, Bucket.addConnection, hfo]
    by_cases hf : max ≤ countedAt (evictOld buckets now) ip
    · simp [hf, hfo]
    · simpa [hf] using not_le.mp hf

lemma Counts.connection (caller : IpAddr) (hm : 0 < max) (h : Counts max ip s)
    (hk : Remembers ip s now) : Counts max ip (afterConnection max now caller s) := by
  have hc := hk.countedAt_evictOld.trans h.counted
  have hb := h.bounded
  obtain ⟨hn, hr⟩ := countedAt_tryConnection ip hm now caller s.limiter
  constructor
  · rw [opened_afterConnection, ← hc]
    exact hn
  · rw [opened_afterConnection]
    split_ifs with ha
    · have hlt := hr ha.1 ha.2
      omega
    · exact hb

lemma Counts.release {caller : IpAddr} (h : Counts max ip s) :
    Counts max ip (afterRelease now caller s) := by
  have hc := h.counted
  have hb := h.bounded
  by_cases hip : ip = caller
  · subst hip
    refine ⟨?_, ?_⟩
    · simp only [afterRelease, countedAt, releaseConnection_self, Function.update_self]
      rw [← hc, countedAt]
      cases s.limiter.lookup ip <;> rfl
    · simp only [afterRelease, Function.update_self]
      omega
  · refine ⟨?_, ?_⟩
    · simp only [afterRelease, countedAt, releaseConnection_other hip, Function.update_of_ne hip]
      exact hc
    · simpa only [afterRelease, Function.update_of_ne hip] using hb

/-- In every run in which no call makes the table forget a connection of the address, the address
never has more than `max` connections open. -/
theorem connections_bounded (hmax : 0 < max)
    (h : Runs (fun s evs t => Step rate burst max s evs t ∧ Remembers ip s t.clock) start evs s) :
    s.opened ip ≤ max := by
  refine (h.invariant (I := fun _ t => Counts max ip t) ⟨rfl, Nat.zero_le _⟩ ?_).bounded
  rintro _ t ev u hcounts ⟨hstep, hkept⟩
  cases hstep with
  | request caller _ => exact hcounts.request caller hkept
  | connection caller _ => exact hcounts.connection caller hmax hkept
  | release _ _ => exact hcounts.release

/-- An address used in the examples. -/
def localhost : IpAddr := .v4 127 0 0 1

/-- The state after a first connection, and after a second one. -/
def firstConnection : Admission := afterConnection 1 0 localhost start

def secondConnection (now : ℕ) : Admission := afterConnection 1 now localhost firstConnection

theorem connections_bounded_sample :
    Runs (fun s evs t => Step 10 20 1 s evs t ∧ Remembers localhost s t.clock) start
        [.connection 0 localhost true, .connection (seconds 299) localhost false]
        (secondConnection (seconds 299)) ∧
      (secondConnection (seconds 299)).opened localhost ≤ 1 := by
  have hfirst : Step 10 20 1 start [.connection 0 localhost true] firstConnection :=
    Step.connection localhost (le_refl _)
  have hsecond : Step 10 20 1 firstConnection [.connection (seconds 299) localhost false]
      (secondConnection (seconds 299)) := Step.connection localhost (Nat.zero_le _)
  have hrun : Runs (fun s evs t => Step 10 20 1 s evs t ∧ Remembers localhost s t.clock) start
      ([.connection 0 localhost true] ++ [.connection (seconds 299) localhost false])
      (secondConnection (seconds 299)) := by
    have hkept : firstConnection.limiter.lookup localhost =
        some { tokens := 0, updated := 0, connections := 1, lastSeen := 0 } := by decide
    refine (Runs.single ⟨hfirst, by rintro bucket ⟨⟩⟩).tail ⟨hsecond, ?_⟩
    rintro bucket hb -
    obtain rfl := Option.some.inj (hkept.symm.trans hb)
    decide
  exact ⟨hrun, connections_bounded (by decide) hrun⟩

/-- After 300 quiet seconds the first connection is forgotten, and a second one let in. -/
theorem forgotten_connection : ∃ (evs : List AdmissionEvent) (s : Admission),
    Runs (Step 10 20 1) start evs s ∧ ¬s.opened localhost ≤ 1 := by
  have hfirst : Step 10 20 1 start [.connection 0 localhost true] firstConnection :=
    Step.connection localhost (le_refl _)
  have hsecond : Step 10 20 1 firstConnection [.connection (seconds 300) localhost true]
      (secondConnection (seconds 300)) := Step.connection localhost (Nat.zero_le _)
  exact ⟨_, _, (Runs.single hfirst).tail hsecond, by decide⟩

end Connections

end Admission

end Veysrs
