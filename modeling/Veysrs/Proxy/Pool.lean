import Veysrs.Config.Rules
import Veysrs.Proxy.Health

/-!
# The pool of idle upstream connections

`take_pooled` and `return_pooled` of `server/proxy.rs`, with the connections themselves; the model
of `connect_upstream` knows only how old they are (`forgets_takePooled` relates the two).

A queue is found under a key that joins host, prefix, upstream and candidate with `NUL`.  Only the
host may contain one, so that the four parts can be read off from the end (`poolKey_injective`), and
a queue holds connections of one candidate of one route only.  What is known of every state of a
run is `PoolRun.Sound`: what was handed out for a candidate and what is queued for it is, in this
order, a part of what was put in for it.
-/

namespace Veysrs.Proxy

open Core List

/-! ## The pool -/

def maxIdleUpstreams : ℕ := 16

def maxTotalIdleUpstreams : ℕ := 256

/-- An idle connection, of any type of connections. -/
structure IdleUpstream (σ : Type) where
  stream : σ
  inserted : ℕ
  deriving DecidableEq, Repr

abbrev UpstreamPool (σ : Type) := AssocMap Str (List (IdleUpstream σ))

variable {σ : Type}

def expired (now : ℕ) (idle : IdleUpstream σ) : Bool := idleUpstreamTtl < now - idle.inserted

/-- The loop over a queue: connections that are too old are dropped. -/
def popFresh (now : ℕ) : List (IdleUpstream σ) → Option (IdleUpstream σ) × List (IdleUpstream σ)
  | [] => (none, [])
  | idle :: queue => if expired now idle then popFresh now queue else (some idle, queue)

namespace UpstreamPool

/-- What `take_pooled` finds. -/
def takeIdle (pool : UpstreamPool σ) (route : ProxyRoute) (candidate : Str) (now : ℕ) :
    Option (IdleUpstream σ) × UpstreamPool σ :=
  match pool.lookup (poolKey route candidate) with
  | none => (none, pool)
  | some queue =>
    ((popFresh now queue).1, pool.insert (poolKey route candidate) (popFresh now queue).2)

def takePooled (pool : UpstreamPool σ) (route : ProxyRoute) (candidate : Str) (now : ℕ) :
    Option σ × UpstreamPool σ :=
  ((pool.takeIdle route candidate now).1.map IdleUpstream.stream,
    (pool.takeIdle route candidate now).2)

def totalIdle (pool : UpstreamPool σ) : ℕ := sumValues List.length pool

def returnPooled (pool : UpstreamPool σ) (route : ProxyRoute) (candidate : Str) (stream : σ)
    (now : ℕ) : UpstreamPool σ :=
  let pool : UpstreamPool σ := mapValues (fun queue => queue.filter fun idle => !expired now idle) pool
  if maxTotalIdleUpstreams ≤ pool.totalIdle then pool
  else
    let queue := (pool.lookup (poolKey route candidate)).getD []
    pool.insert (poolKey route candidate)
      (if queue.length < maxIdleUpstreams then queue ++ [{ stream, inserted := now }] else queue)

/-- The queue for a candidate. -/
def queueFor (pool : UpstreamPool σ) (route : ProxyRoute) (candidate : Str) :
    List (IdleUpstream σ) :=
  (pool.lookup (poolKey route candidate)).getD []

end UpstreamPool

/-! ## Keys -/

/-- The strings passed the validation of the configuration. -/
structure Validated (route : ProxyRoute) (candidate : Str) : Prop where
  routePrefix : validRoutePrefix route.routePrefix = true
  upstream : validUpstream route.upstream = true
  candidate : candidate ∈ candidatesOf route

section Keys

variable {route route' : ProxyRoute} {candidate candidate' : Str}

lemma nul_not_mem_of_noControl {value : Str} (h : noControl value = true) : '\x00' ∉ value := by
  intro hm
  rw [noControl, Bool.not_eq_true', any_eq_false] at h
  exact h (byteOf '\x00') ((mem_utf8_iff (by decide)).mpr hm) (by decide)

lemma nul_not_mem_of_validSingleUpstream {upstream : Str}
    (h : validSingleUpstream upstream = true) : '\x00' ∉ upstream := by
  rw [validSingleUpstream] at h
  cases hr : upstream.dropPrefix? "http://".toList with
  | none =>
    rw [hr] at h
    cases h
  | some rest =>
    rw [hr] at h
    obtain ⟨scheme, rfl, hs⟩ := List.dropPrefix?_eq_some_iff.mp hr
    rw [beq_iff_eq] at hs
    have hp : '\x00' ∉ rest := by
      intro hm
      simp only [validHostPort] at h
      cases hsp : rsplitOnce ':' rest with
      | none =>
        rw [hsp] at h
        cases h
      | some parts =>
        rw [hsp] at h
        simp only [Bool.and_eq_true, Bool.not_eq_true', any_eq_false] at h
        exact h.1.2 _ hm (by decide)
    rw [hs, mem_append, not_or]
    exact ⟨by decide, hp⟩

lemma nul_not_mem_of_validUpstream {upstream : Str} (h : validUpstream upstream = true) :
    '\x00' ∉ upstream := by
  rw [validUpstream] at h
  split_ifs at h
  · rw [← mem_splitOn_iff (show '\x00' ≠ ',' by decide)]
    rintro ⟨piece, hp, hm⟩
    have hv := all_eq_true.mp h piece hp
    exact nul_not_mem_of_validSingleUpstream hv (mem_trim hm (by decide))
  · exact nul_not_mem_of_validSingleUpstream h

lemma nul_not_mem_candidate (h : Validated route candidate) : '\x00' ∉ candidate := by
  intro hm
  have hp := h.candidate
  rw [candidatesOf, mem_filter, mem_map] at hp
  obtain ⟨⟨piece, hpi, rfl⟩, -⟩ := hp
  exact nul_not_mem_of_validUpstream h.upstream
    ((mem_splitOn_iff (by decide) _).mp ⟨piece, hpi, mem_of_mem_trim hm⟩)

lemma nul_not_mem_routePrefix (h : validRoutePrefix route.routePrefix = true) :
    '\x00' ∉ route.routePrefix := by
  simp only [validRoutePrefix, Bool.and_eq_true] at h
  exact nul_not_mem_of_noControl h.1.2

/-- From the end of a key its four parts can be read off: only the host may contain a `NUL`. -/
lemma poolKey_injective (h : Validated route candidate) (h' : Validated route' candidate')
    (heq : poolKey route candidate = poolKey route' candidate') :
    route = route' ∧ candidate = candidate' := by
  have hcut := congrArg (rsplitOnce '\x00') heq
  rw [poolKey, poolKey, rsplitOnce_append (nul_not_mem_candidate h),
    rsplitOnce_append (nul_not_mem_candidate h'), Option.some.injEq, Prod.mk.injEq] at hcut
  obtain ⟨hf, hc⟩ := hcut
  have hcut := congrArg (rsplitOnce '\x00') hf
  rw [rsplitOnce_append (nul_not_mem_of_validUpstream h.upstream),
    rsplitOnce_append (nul_not_mem_of_validUpstream h'.upstream), Option.some.injEq,
    Prod.mk.injEq] at hcut
  obtain ⟨hf, hu⟩ := hcut
  have hcut := congrArg (rsplitOnce '\x00') hf
  rw [rsplitOnce_append (nul_not_mem_routePrefix h.routePrefix),
    rsplitOnce_append (nul_not_mem_routePrefix h'.routePrefix), Option.some.injEq] at hcut
  obtain ⟨host, routePrefix, upstream⟩ := route
  obtain ⟨host', routePrefix', upstream'⟩ := route'
  obtain ⟨rfl, rfl⟩ := hcut
  obtain rfl : upstream = upstream' := hu
  exact ⟨rfl, hc⟩

end Keys

/-! ## Runs -/

/-- A call, with the time of it. -/
inductive PoolCall (σ : Type) where
  | take (route : ProxyRoute) (candidate : Str) (now : ℕ)
  | give (route : ProxyRoute) (candidate : Str) (stream : σ) (now : ℕ)

namespace PoolCall

def now : PoolCall σ → ℕ
  | take _ _ now => now
  | give _ _ _ now => now

/-- What a call puts in for a candidate of a route. -/
def givenFor (route : ProxyRoute) (candidate : Str) : PoolCall σ → List (IdleUpstream σ)
  | take _ _ _ => []
  | give route' candidate' stream now =>
    if route' = route ∧ candidate' = candidate then [{ stream, inserted := now }] else []

end PoolCall

/-- A connection that was handed out, to whom and when. -/
structure Handout (σ : Type) where
  route : ProxyRoute
  candidate : Str
  idle : IdleUpstream σ
  now : ℕ

/-- The pool after some calls, and what they handed out. -/
structure PoolRun (σ : Type) where
  pool : UpstreamPool σ
  handedOut : List (Handout σ)

namespace PoolRun

def step (s : PoolRun σ) : PoolCall σ → PoolRun σ
  | .take route candidate now =>
    let (idle, pool) := s.pool.takeIdle route candidate now
    { pool
      handedOut := s.handedOut ++ (idle.map fun idle => ⟨route, candidate, idle, now⟩).toList }
  | .give route candidate stream now =>
    { s with pool := s.pool.returnPooled route candidate stream now }

def handedFor (s : PoolRun σ) (route : ProxyRoute) (candidate : Str) : List (IdleUpstream σ) :=
  (s.handedOut.filter fun h => h.route = route ∧ h.candidate = candidate).map Handout.idle

end PoolRun

/-- What is known after some calls. -/
structure PoolRun.Sound (s : PoolRun σ) (calls : List (PoolCall σ)) : Prop where
  /-- Handed out and still there: in this order, a part of what was put in for the candidate. -/
  order : ∀ route candidate, Validated route candidate →
    (s.handedFor route candidate ++ s.pool.queueFor route candidate).Sublist
      (calls.flatMap (PoolCall.givenFor route candidate))
  fresh : ∀ h ∈ s.handedOut, h.idle.inserted ≤ h.now ∧ h.now ≤ h.idle.inserted + idleUpstreamTtl
  past : ∀ key queue, s.pool.lookup key = some queue → ∀ idle ∈ queue,
    ∃ call ∈ calls, idle.inserted = call.now
  perQueue : ∀ key queue, s.pool.lookup key = some queue → queue.length ≤ maxIdleUpstreams
  total : s.pool.totalIdle ≤ maxTotalIdleUpstreams

/-- What is popped, and the rest: what is left without the old ones at the front. -/
lemma dropWhile_expired (now : ℕ) (queue : List (IdleUpstream σ)) :
    queue.dropWhile (expired now) = (popFresh now queue).1.toList ++ (popFresh now queue).2 := by
  induction queue with
  | nil => rfl
  | cons idle queue ih =>
    rw [dropWhile_cons, popFresh]
    split_ifs
    · exact ih
    · rfl

lemma popFresh_suffix (now : ℕ) (queue : List (IdleUpstream σ)) :
    (popFresh now queue).1.toList ++ (popFresh now queue).2 <:+ queue :=
  dropWhile_expired now queue ▸ dropWhile_suffix _

variable {queue : List (IdleUpstream σ)} {pool : UpstreamPool σ}

lemma not_expired_of_popFresh {now : ℕ} {idle : IdleUpstream σ}
    (h : (popFresh now queue).1 = some idle) : expired now idle = false := by
  induction queue with
  | nil => cases h
  | cons first queue ih =>
    rw [popFresh] at h
    split_ifs at h with ho
    · exact ih h
    · cases h
      exact Bool.not_eq_true _ ▸ ho

/-- A queue replaced: what holds of it and of the queues there were holds of all. -/
lemma forall_lookup_insert {P : List (IdleUpstream σ) → Prop} {key : Str} (hn : P queue)
    (ho : ∀ key queue, pool.lookup key = some queue → P queue) :
    ∀ key' queue', (pool.insert key queue).lookup key' = some queue' → P queue' := by
  intro key' queue' hl
  by_cases hk : key' = key
  · rw [hk, AList.lookup_insert, Option.some.injEq] at hl
    exact hl ▸ hn
  · rw [AList.lookup_insert_ne hk] at hl
    exact ho key' queue' hl

/-- The queue for a candidate is one of the queues, or empty. -/
lemma forall_queueFor {P : List (IdleUpstream σ) → Prop} (hn : P [])
    (h : ∀ key queue, pool.lookup key = some queue → P queue) (route : ProxyRoute) (candidate : Str) :
    P (pool.queueFor route candidate) := by
  rw [UpstreamPool.queueFor]
  cases hl : pool.lookup (poolKey route candidate) with
  | none => exact hn
  | some queue => exact h _ queue hl

section Steps

variable {s : PoolRun σ} {calls : List (PoolCall σ)} {route route' : ProxyRoute}
  {candidate candidate' : Str} {now : ℕ} {stream : σ}

lemma queueFor_insert (h : Validated route candidate) (h' : Validated route' candidate')
    (pool : UpstreamPool σ) (queue : List (IdleUpstream σ)) :
    UpstreamPool.queueFor (pool.insert (poolKey route candidate) queue) route' candidate' =
      if route = route' ∧ candidate = candidate' then queue
      else pool.queueFor route' candidate' := by
  rw [UpstreamPool.queueFor]
  split_ifs with hs
  · rw [hs.1, hs.2, AList.lookup_insert, Option.getD_some]
  · have hk : poolKey route' candidate' ≠ poolKey route candidate := fun heq =>
      hs ⟨(poolKey_injective h' h heq).1.symm, (poolKey_injective h' h heq).2.symm⟩
    rw [AList.lookup_insert_ne hk, UpstreamPool.queueFor]

/-- More calls change nothing that is known. -/
lemma PoolRun.Sound.snoc (h : s.Sound calls) (call : PoolCall σ) : s.Sound (calls ++ [call]) := by
  refine ⟨fun route candidate hv => ?_, h.fresh, fun key queue hl idle hi => ?_,
    h.perQueue, h.total⟩
  · rw [flatMap_append]
    exact (h.order route candidate hv).trans (sublist_append_left _ _)
  · obtain ⟨call, hc, heq⟩ := h.past key queue hl idle hi
    exact ⟨call, mem_append_left _ hc, heq⟩

/-- The end of a queue is left, its first connection, if any, handed out. -/
lemma PoolRun.Sound.pop {rest : List (IdleUpstream σ)} {idle : Option (IdleUpstream σ)}
    (h : s.Sound calls) (hv : Validated route candidate)
    (hl : s.pool.lookup (poolKey route candidate) = some queue)
    (hs : idle.toList ++ rest <:+ queue)
    (hf : ∀ i, idle = some i → i.inserted ≤ now ∧ now ≤ i.inserted + idleUpstreamTtl) :
    PoolRun.Sound
      { pool := s.pool.insert (poolKey route candidate) rest
        handedOut := s.handedOut ++ (idle.map fun i => ⟨route, candidate, i, now⟩).toList }
      calls := by
  have hr : rest.Sublist queue := (sublist_append_right _ _).trans hs.sublist
  refine ⟨fun route' candidate' hv' => ?_, fun handout hm => ?_, ?_, ?_, ?_⟩
  · have ho := h.order route' candidate' hv'
    rw [queueFor_insert hv hv', PoolRun.handedFor, filter_append, map_append]
    by_cases hsa : route = route' ∧ candidate = candidate'
    · obtain ⟨rfl, rfl⟩ := hsa
      have hnew : (((idle.map fun i => (⟨route, candidate, i, now⟩ : Handout σ)).toList.filter
          fun h => h.route = route ∧ h.candidate = candidate).map Handout.idle) = idle.toList := by
        cases idle <;> simp
      rw [if_pos ⟨rfl, rfl⟩, hnew, append_assoc]
      rw [UpstreamPool.queueFor, hl] at ho
      exact (List.Sublist.append_left hs.sublist _).trans ho
    · have hn : (((idle.map fun i => (⟨route, candidate, i, now⟩ : Handout σ)).toList.filter
          fun h => h.route = route' ∧ h.candidate = candidate').map Handout.idle) = [] := by
        cases idle <;> simp [hsa]
      rwa [if_neg hsa, hn, append_nil]
  · rcases mem_append.mp hm with hm | hm
    · exact h.fresh handout hm
    · cases hid : idle with
      | none => simp [hid] at hm
      | some i =>
        simp only [hid, Option.map_some, Option.toList_some, mem_singleton] at hm
        rw [hm]
        exact hf i hid
  · exact forall_lookup_insert (fun i hi => h.past _ _ hl i (hr.subset hi)) h.past
  · exact forall_lookup_insert (hr.length_le.trans (h.perQueue _ _ hl)) h.perQueue
  · have hsum := sumValues_insert List.length s.pool (poolKey route candidate) rest
    rw [hl, Option.map_some, Option.getD_some] at hsum
    have ht := h.total
    have hlen := hr.length_le
    rw [UpstreamPool.totalIdle] at ht ⊢
    dsimp only
    omega

lemma PoolRun.Sound.take (h : s.Sound calls) (hv : Validated route candidate)
    (hla : ∀ call ∈ calls, call.now ≤ now) :
    (s.step (.take route candidate now)).Sound (calls ++ [.take route candidate now]) := by
  refine PoolRun.Sound.snoc ?_ _
  rw [PoolRun.step, UpstreamPool.takeIdle]
  cases hl : s.pool.lookup (poolKey route candidate) with
  | none => simpa using h
  | some queue =>
    have hs := popFresh_suffix now queue
    refine h.pop hv hl hs fun idle hi => ?_
    have hm : idle ∈ queue := hs.subset (by simp [hi])
    obtain ⟨call, hc, hin⟩ := h.past _ _ hl idle hm
    have hn := hla call hc
    have ha := not_expired_of_popFresh hi
    rw [expired, decide_eq_false_iff_not] at ha
    omega

/-- Dropping the connections that are too old. -/
lemma PoolRun.Sound.prune (h : s.Sound calls) (keep : IdleUpstream σ → Bool) :
    PoolRun.Sound { s with pool := mapValues (fun queue => queue.filter keep) s.pool } calls := by
  have hl : ∀ {key queue},
      (mapValues (fun queue => queue.filter keep) s.pool).lookup key = some queue →
        ∃ whole, s.pool.lookup key = some whole ∧ queue = whole.filter keep := by
    intro key queue hf
    rw [lookup_mapValues, Option.map_eq_some_iff] at hf
    obtain ⟨whole, hw, heq⟩ := hf
    exact ⟨whole, hw, heq.symm⟩
  refine ⟨fun route candidate hv => ?_, h.fresh, fun key queue hf idle hi => ?_,
    fun key queue hf => ?_, ?_⟩
  · refine List.Sublist.trans (List.Sublist.append_left ?_ _) (h.order route candidate hv)
    rw [UpstreamPool.queueFor, lookup_mapValues, UpstreamPool.queueFor]
    cases s.pool.lookup (poolKey route candidate) with
    | none => exact List.Sublist.refl _
    | some queue => exact filter_sublist
  · obtain ⟨whole, hw, rfl⟩ := hl hf
    exact h.past key whole hw idle (mem_filter.mp hi).1
  · obtain ⟨whole, hw, rfl⟩ := hl hf
    exact (length_filter_le _ _).trans (h.perQueue key whole hw)
  · exact (sumValues_mapValues_le (fun queue => length_filter_le _ queue) _).trans h.total

/-- One more connection, if there is room for it. -/
lemma PoolRun.Sound.push (h : s.Sound calls) (hv : Validated route candidate)
    (hr : s.pool.totalIdle < maxTotalIdleUpstreams) :
    PoolRun.Sound
      { s with
        pool := s.pool.insert (poolKey route candidate)
          (if (s.pool.queueFor route candidate).length < maxIdleUpstreams then
            s.pool.queueFor route candidate ++ [{ stream, inserted := now }]
          else s.pool.queueFor route candidate) }
      (calls ++ [.give route candidate stream now]) := by
  refine ⟨fun route' candidate' hv' => ?_, h.fresh, ?_, ?_, ?_⟩
  · have ho := h.order route' candidate' hv'
    rw [queueFor_insert hv hv', flatMap_append, flatMap_singleton,
      PoolCall.givenFor]
    by_cases hs : route = route' ∧ candidate = candidate'
    · rw [if_pos hs, if_pos hs]
      obtain ⟨rfl, rfl⟩ := hs
      split_ifs
      · rw [← append_assoc]
        exact ho.append_right _
      · exact ho.trans (sublist_append_left _ _)
    · rwa [if_neg hs, if_neg hs, append_nil]
  · have hp := (h.snoc (.give route candidate stream now)).past
    have hq : ∀ idle ∈ s.pool.queueFor route candidate, ∃ call ∈ calls ++ _, _ :=
      forall_queueFor (by simp) hp route candidate
    refine forall_lookup_insert (fun idle hi => ?_) hp
    split_ifs at hi
    · rcases mem_append.mp hi with hi | hi
      · exact hq idle hi
      · rw [mem_singleton] at hi
        exact ⟨.give route candidate stream now, by simp, by rw [hi]; rfl⟩
    · exact hq idle hi
  · refine forall_lookup_insert ?_ h.perQueue
    split_ifs with hsh
    · rw [length_append]
      exact hsh
    · exact forall_queueFor (Nat.zero_le _) h.perQueue route candidate
  · have hsum := sumValues_insert List.length s.pool (poolKey route candidate)
      (if (s.pool.queueFor route candidate).length < maxIdleUpstreams then
        s.pool.queueFor route candidate ++ [{ stream, inserted := now }]
      else s.pool.queueFor route candidate)
    have hq : ((s.pool.lookup (poolKey route candidate)).map List.length).getD 0 =
        (s.pool.queueFor route candidate).length := by
      rw [UpstreamPool.queueFor]
      cases s.pool.lookup (poolKey route candidate) <;> rfl
    rw [UpstreamPool.totalIdle] at hr ⊢
    split_ifs at hsum ⊢
    · rw [length_append, length_singleton] at hsum
      dsimp only
      omega
    · dsimp only
      omega

lemma PoolRun.Sound.give (h : s.Sound calls) (hv : Validated route candidate) :
    (s.step (.give route candidate stream now)).Sound
      (calls ++ [.give route candidate stream now]) := by
  have hp := h.prune fun idle => !expired now idle
  rw [PoolRun.step, UpstreamPool.returnPooled]
  by_cases hf : maxTotalIdleUpstreams ≤
      UpstreamPool.totalIdle (mapValues (fun queue => queue.filter fun idle => !expired now idle) s.pool)
  · rw [if_pos hf]
    exact hp.snoc _
  · rw [if_neg hf]
    exact hp.push hv (Nat.lt_of_not_le hf)

end Steps

end Veysrs.Proxy
