import Mathlib.Algebra.BigOperators.Group.Finset.Piecewise
import Mathlib.Algebra.BigOperators.Group.Multiset.Basic
import Mathlib.Algebra.Order.BigOperators.Group.Finset
import Mathlib.Data.Fintype.BigOperators
import Mathlib.Data.List.Sigma
import Mathlib.Tactic.Abel
import Veysrs.Core.CaseMapping
import Veysrs.Core.Runs

/-!
# The worker threads

`n` workers share the receiver of one channel behind a lock.  A worker takes the lock, waits for a
job with the guard held, gives the lock back and only then calls the job, inside `catch_unwind`.  A
panic that was caught is reported, and the result with the panic's payload is dropped.

**The model.**  `Step` has one rule for each step of a worker that other threads can come between,
and one each for `execute`, for dropping the sender and for joining the next worker.  Two of the
steps of a worker lie outside `catch_unwind` and can panic themselves: `eprintln!`, which reports a
panic where there is no error log, and the payload's own destructor.  Such a panic ends the thread.

**What is kept.**  Every accepted job is queued, in the hands of one worker, or has been called
(`Accounted.tasks`).  A worker that panics never holds the guard, so the lock is not poisoned.  A
worker that leaves its loop has found the queue empty and the sender gone.  Jobs are lost only if
every worker has died with jobs still queued, which takes as many jobs that can end their worker as
there are workers, and one more job behind them (`no_job_lost_iff`).
-/

namespace Veysrs

open Core List

/-! ## The machine -/

/-- What the call of a boxed closure comes to.  The destructor of a panic's payload may panic. -/
inductive Job where
  | returns
  | panics (dropPanics : Bool)
  deriving DecidableEq, Repr

/-- A job and how many were accepted before it. -/
abbrev Task := Job × ℕ

/-- Where the loop of a worker is. -/
inductive Worker where
  | locking
  | receiving
  | releasing (message : Option Task)
  | received (message : Option Task)
  | running (job : Job)
  | reporting (dropPanics : Bool)
  | dropping (dropPanics : Bool)
  | exited
  | died
  deriving DecidableEq, Repr

namespace Worker

def ended : Worker → Bool
  | exited | died => true
  | _ => false

def holdsGuard : Worker → Bool
  | receiving | releasing _ => true
  | _ => false

/-- The worker has seen the channel disconnected. -/
def disconnected : Worker → Bool
  | releasing none | received none | exited => true
  | _ => false

/-- The job a worker has taken from the queue and not called yet. -/
def held : Worker → Multiset Task
  | releasing (some task) | received (some task) => {task}
  | _ => 0

end Worker

/-- How a caught panic is reported: to the error log, if there is one, or else by `eprintln!`, which
panics itself where it cannot write. -/
structure Reporting where
  errorLog : Option Str
  stderrMayFail : Bool

namespace Reporting

def report (env : Reporting) (id : ℕ) : String :=
  match env.errorLog with
  | some _ => s!"ThreadPool worker {id} caught job panic"
  | none => s!"[ERROR] ThreadPool worker {id} caught job panic"

def mayPanic (env : Reporting) : Bool :=
  env.errorLog.isNone && env.stderrMayFail

/-- The jobs whose worker may not survive them. -/
def kills (env : Reporting) : Job → Bool
  | .returns => false
  | .panics dropPanics => dropPanics || env.mayPanic

/-- Whether a worker has died of the job it called last, or may still do so. -/
def doom (env : Reporting) : Worker → ℕ
  | .running job => (env.kills job).toNat
  | .reporting dropPanics => (env.kills (.panics dropPanics)).toNat
  | .dropping dropPanics => dropPanics.toNat
  | .died => 1
  | _ => 0

end Reporting

/-- `accepted` and `run` are there for the statements only: the jobs `execute` has taken, and those
that were called. -/
structure ThreadPool (n : ℕ) (env : Reporting) where
  workers : Fin n → Worker
  lock : Option (Fin n) := none
  poisoned : Bool := false
  queue : List Task := []
  sender : Bool := true
  joined : ℕ := 0
  accepted : List Job := []
  run : List Task := []

namespace ThreadPool

variable {n : ℕ} {env : Reporting}

def withErrorLog (size : ℕ) (destination : Option Str) (stderrMayFail : Bool) :
    Except String (ThreadPool size ⟨destination, stderrMayFail⟩) :=
  if size = 0 then .error "ThreadPool size must be greater than 0"
  else .ok { workers := fun _ => .locking }

def new (size : ℕ) (stderrMayFail : Bool) :
    Except String (ThreadPool size ⟨none, stderrMayFail⟩) :=
  withErrorLog size none stderrMayFail

def newWithErrorLog (size : ℕ) (destination : Str) (stderrMayFail : Bool) :
    Except String (ThreadPool size ⟨some destination, stderrMayFail⟩) :=
  withErrorLog size (some destination) stderrMayFail

/-- The receiver lives as long as some worker has its share of it.  What is queued goes with it. -/
def ReceiverAlive (s : ThreadPool n env) : Prop :=
  ∃ i, (s.workers i).ended = false

instance (s : ThreadPool n env) : Decidable s.ReceiverAlive :=
  inferInstanceAs (Decidable (∃ i, (s.workers i).ended = false))

/-- The sender's `send`: the job goes to the end of the queue. -/
def send (s : ThreadPool n env) (job : Job) : ThreadPool n env :=
  { s with queue := s.queue ++ [(job, s.accepted.length)], accepted := s.accepted ++ [job] }

def execute (s : ThreadPool n env) (job : Job) : Except String (ThreadPool n env) :=
  if s.sender then
    if s.ReceiverAlive then .ok (s.send job)
    else .error "Failed to send job to ThreadPool channel"
  else .error "ThreadPool is shut down"

def setWorker (s : ThreadPool n env) (i : Fin n) (worker : Worker) : ThreadPool n env :=
  { s with workers := Function.update s.workers i worker }

/-- A panic that is not caught ends the thread; a guard it drops on the way poisons the lock. -/
def unwind (s : ThreadPool n env) (i : Fin n) : ThreadPool n env :=
  { s.setWorker i .died with
    lock := if s.lock = some i then none else s.lock
    poisoned := s.poisoned || decide (s.lock = some i) }

/-- One step of one thread, with the lines it reports.  A payload that panics while the panic of
`eprintln!` unwinds the stack aborts the process: there is no state after that. -/
inductive Step (s : ThreadPool n env) : List String → ThreadPool n env → Prop
  | execute {t : ThreadPool n env} (job : Job) (h : s.execute job = .ok t) : Step s [] t
  | shutdown (h : s.sender = true) : Step s [] { s with sender := false }
  | join (i : Fin n) (h : s.sender = false) (hi : s.joined = i)
      (hended : (s.workers i).ended = true) : Step s [] { s with joined := i + 1 }
  | lock (i : Fin n) (h : s.workers i = .locking) (hfree : s.lock = none) :
      Step s [] (if s.poisoned then s.setWorker i .exited
        else { s.setWorker i .receiving with lock := some i })
  | recv (i : Fin n) {task : Task} {rest : List Task} (h : s.workers i = .receiving)
      (hqueue : s.queue = task :: rest) :
      Step s [] { s.setWorker i (.releasing (some task)) with queue := rest }
  | disconnect (i : Fin n) (h : s.workers i = .receiving) (hqueue : s.queue = [])
      (hsender : s.sender = false) : Step s [] (s.setWorker i (.releasing none))
  | release (i : Fin n) {message : Option Task} (h : s.workers i = .releasing message) :
      Step s [] { s.setWorker i (.received message) with lock := none }
  | call (i : Fin n) {task : Task} (h : s.workers i = .received (some task)) :
      Step s [] { s.setWorker i (.running task.1) with run := s.run ++ [task] }
  | leave (i : Fin n) (h : s.workers i = .received none) :
      Step s [] (s.setWorker i .exited)
  | finish (i : Fin n) (h : s.workers i = .running .returns) :
      Step s [] (s.setWorker i .locking)
  | catchUnwind (i : Fin n) {dropPanics : Bool}
      (h : s.workers i = .running (.panics dropPanics)) :
      Step s [] (s.setWorker i (.reporting dropPanics))
  | report (i : Fin n) {dropPanics : Bool} (h : s.workers i = .reporting dropPanics) :
      Step s [env.report i] (s.setWorker i (.dropping dropPanics))
  | reportPanics (i : Fin n) (h : s.workers i = .reporting false)
      (hpanic : env.mayPanic = true) : Step s [] (s.unwind i)
  | drop (i : Fin n) (h : s.workers i = .dropping false) :
      Step s [] (s.setWorker i .locking)
  | dropPanics (i : Fin n) (h : s.workers i = .dropping true) :
      Step s [] (s.unwind i)

/-! ## Where the jobs are -/

/-- The invariant of every interleaving. -/
structure Accounted (s : ThreadPool n env) : Prop where
  tasks : (s.queue : Multiset Task) + ∑ i, (s.workers i).held + s.run = s.accepted.zipIdx
  queued : s.queue <:+ s.accepted.zipIdx
  locked : ∀ i, s.lock = some i → (s.workers i).holdsGuard = true
  unpoisoned : s.poisoned = false
  drained : ∀ i, (s.workers i).disconnected = true → s.sender = false ∧ s.queue = []
  joined : ∀ i : Fin n, i < s.joined → (s.workers i).ended = true
  deaths : ∑ i, env.doom (s.workers i) ≤ s.run.countP fun task => env.kills task.1

lemma sum_setWorker {M : Type} [AddCommMonoid M] (f : Worker → M) (s : ThreadPool n env)
    (i : Fin n) (worker : Worker) :
    ∑ j, f ((s.setWorker i worker).workers j) + f (s.workers i) =
      ∑ j, f (s.workers j) + f worker := by
  have hs : ∀ j, f ((s.setWorker i worker).workers j) =
      Function.update (f ∘ s.workers) i (f worker) j := fun j => by
    rw [← Function.comp_update]
    rfl
  simp only [hs]
  rw [Finset.sum_update_of_mem (Finset.mem_univ i),
    Finset.sum_eq_add_sum_sdiff_singleton_of_mem (Finset.mem_univ i) (fun j => f (s.workers j))]
  simp only [Function.comp_apply]
  abel

variable {s t pool : ThreadPool n env} {i : Fin n} {w w' : Worker} {lines : List String}

lemma eq_of_execute {job : Job} (h : s.execute job = .ok t) :
    s.sender = true ∧ t = s.send job := by
  rw [execute] at h
  split_ifs at h with hs ha
  exact ⟨hs, (Except.ok.inj h).symm⟩

namespace Accounted

lemma start : Accounted ({ workers := fun _ => .locking } : ThreadPool n env) where
  tasks := by simp [Worker.held]
  queued := by simp
  locked _ h := by cases h
  unpoisoned := rfl
  drained _ h := by cases h
  joined i h := absurd h (Nat.not_lt_zero i)
  deaths := by simp [Reporting.doom]

lemma send (h : Accounted s) (hs : s.sender = true) (job : Job) :
    Accounted (s.send job) where
  tasks := by
    simp only [ThreadPool.send, zipIdx_append, ← Multiset.coe_add, ← h.tasks]
    simp only [zipIdx_cons, zipIdx_nil, Nat.zero_add]
    abel
  queued := by
    obtain ⟨before, hb⟩ := h.queued
    refine ⟨before, ?_⟩
    simp [ThreadPool.send, zipIdx_append, ← hb]
  locked := h.locked
  unpoisoned := h.unpoisoned
  drained j hj := by
    have hg := (h.drained j hj).1
    rw [hs] at hg
    cases hg
  joined := h.joined
  deaths := h.deaths

/-- What a worker can do to the pool: it goes on to another place in its loop, and with it may take
the lock or give it back, take a job or call it. -/
lemma move (h : Accounted s) (hw : s.workers i = w) {lock : Option (Fin n)}
    {queue run : List Task}
    (ht : (queue : Multiset Task) + w'.held + run = s.queue + w.held + s.run)
    (hq : queue <:+ s.queue)
    (hl : lock = some i → w'.holdsGuard = true)
    (ho : ∀ j ≠ i, lock = some j → s.lock = some j)
    (hd : w'.disconnected = true → s.sender = false ∧ s.queue = [])
    (hen : w.ended = true → w'.ended = true)
    (hde : env.doom w' + s.run.countP (fun task => env.kills task.1) ≤
      env.doom w + run.countP fun task => env.kills task.1) :
    Accounted ({ s.setWorker i w' with lock := lock, queue := queue, run := run } :
      ThreadPool n env) where
  tasks := by
    have hsum := sum_setWorker Worker.held s i w'
    rw [hw] at hsum
    refine add_right_cancel (b := w.held + w'.held) ?_
    calc _ = (∑ j, ((s.setWorker i w').workers j).held + w.held) + (queue + w'.held + run) := by
          abel
      _ = (s.queue + ∑ j, (s.workers j).held + s.run) + (w.held + w'.held) := by
          rw [hsum, ht]
          abel
      _ = _ := by rw [h.tasks]; rfl
  queued := hq.trans h.queued
  locked j hj := by
    obtain rfl | hne := eq_or_ne j i
    · simpa [setWorker] using hl hj
    · simpa [setWorker, hne] using h.locked j (ho j hne hj)
  unpoisoned := h.unpoisoned
  drained j hj := by
    have hs : s.sender = false ∧ s.queue = [] := by
      obtain rfl | hne := eq_or_ne j i
      · exact hd (by simpa [setWorker] using hj)
      · exact h.drained j (by simpa [setWorker, hne] using hj)
    exact ⟨hs.1, by simpa [hs.2] using hq⟩
  joined j hj := by
    have hs := h.joined j hj
    obtain rfl | hne := eq_or_ne j i
    · simpa [setWorker] using hen (hw ▸ hs)
    · simpa [setWorker, hne] using hs
  deaths := by
    have hsum := sum_setWorker env.doom s i w'
    have hs := h.deaths
    rw [hw] at hsum
    dsimp only
    omega

lemma lock_ne (h : Accounted s) (hw : s.workers i = w) (hg : w.holdsGuard = false) :
    s.lock ≠ some i := by
  intro hi
  have hh := h.locked i hi
  rw [hw, hg] at hh
  cases hh

/-- A worker that does not hold the guard goes on by itself. -/
lemma advance (h : Accounted s) (hw : s.workers i = w) (hg : w.holdsGuard = false)
    (hh : w'.held = w.held) (hdi : w'.disconnected = true → w.disconnected = true)
    (hen : w.ended = true → w'.ended = true) (hdo : env.doom w' ≤ env.doom w) :
    Accounted (s.setWorker i w') :=
  h.move hw (by rw [hh]) (suffix_refl _) (fun hi => absurd hi (h.lock_ne hw hg))
    (fun _ _ => id) (fun hd => h.drained i (hw ▸ hdi hd)) hen
    (Nat.add_le_add_right hdo _)

/-- A panic outside `catch_unwind` finds the lock in other hands, and leaves it as it is. -/
lemma unwind (h : Accounted s) (hw : s.workers i = w) (hg : w.holdsGuard = false)
    (hh : w.held = 0) (hd : 1 ≤ env.doom w) : Accounted (s.unwind i) := by
  have hs : s.unwind i = s.setWorker i .died := by
    simp [ThreadPool.unwind, setWorker, h.lock_ne hw hg]
  rw [hs]
  exact h.advance hw hg hh.symm (by simp [Worker.disconnected]) (fun _ => rfl) hd

lemma step (h : Accounted s) (hst : Step s lines t) : Accounted t := by
  cases hst with
  | execute job hjob =>
    obtain ⟨hs, rfl⟩ := eq_of_execute hjob
    exact h.send hs job
  | shutdown hs =>
    exact ⟨h.tasks, h.queued, h.locked, h.unpoisoned, fun i hi => ⟨rfl, (h.drained i hi).2⟩,
      h.joined, h.deaths⟩
  | join i hs hi hen =>
    refine ⟨h.tasks, h.queued, h.locked, h.unpoisoned, h.drained, fun j hj => ?_, h.deaths⟩
    rcases Nat.lt_succ_iff_lt_or_eq.mp hj with hlt | heq
    · exact h.joined j (hi ▸ hlt)
    · rwa [Fin.ext heq]
  | lock i hw hf =>
    rw [if_neg (by simp [h.unpoisoned])]
    refine h.move hw rfl (suffix_refl _) (fun _ => rfl) (fun j hne hj => ?_)
      (by simp [Worker.disconnected]) (by simp [Worker.ended]) le_rfl
    exact absurd (Option.some.inj hj).symm hne
  | recv i hw hq =>
    refine h.move hw ?_ (hq ▸ suffix_cons _ _) (fun _ => rfl) (fun _ _ => id)
      (by simp [Worker.disconnected]) (by simp [Worker.ended]) le_rfl
    rw [hq, ← Multiset.cons_coe, ← Multiset.singleton_add]
    abel
  | disconnect i hw hq hs =>
    exact h.move hw rfl (suffix_refl _) (fun _ => rfl) (fun _ _ => id)
      (fun _ => ⟨hs, hq⟩) (by simp [Worker.ended]) le_rfl
  | @release i message hw =>
    refine h.move hw ?_ (suffix_refl _) (by simp) (by simp) (fun hd => h.drained i ?_)
      (by simp [Worker.ended]) le_rfl
    · cases message <;> rfl
    · rw [hw]
      cases message with
      | none => rfl
      | some task => cases hd
  | @call i task hw =>
    refine h.move hw ?_ (suffix_refl _) (fun hi => absurd hi (h.lock_ne hw rfl)) (fun _ _ => id)
      (by simp [Worker.disconnected]) (by simp [Worker.ended]) ?_
    · rw [← Multiset.coe_add]
      simp only [setWorker]
      abel
    · rw [countP_append]
      cases hk : env.kills task.1 <;> simp [Reporting.doom, hk, Nat.add_comm]
  | leave i hw =>
    exact h.advance hw rfl rfl (fun _ => rfl) (fun _ => rfl) le_rfl
  | finish i hw =>
    exact h.advance hw rfl rfl (by simp [Worker.disconnected]) (by simp [Worker.ended]) le_rfl
  | catchUnwind i hw =>
    exact h.advance hw rfl rfl (by simp [Worker.disconnected]) (by simp [Worker.ended]) le_rfl
  | report i hw =>
    refine h.advance hw rfl rfl (by simp [Worker.disconnected]) (by simp [Worker.ended]) ?_
    exact Bool.toNat_le_toNat (Bool.left_le_or _ _)
  | reportPanics i hw hp =>
    exact h.unwind hw rfl rfl (by simp [Reporting.doom, Reporting.kills, hp])
  | drop i hw =>
    exact h.advance hw rfl rfl (by simp [Worker.disconnected]) (by simp [Worker.ended]) le_rfl
  | dropPanics i hw => exact h.unwind hw rfl rfl le_rfl

lemma nodup (h : Accounted s) :
    ((s.queue : Multiset Task) + ∑ i, (s.workers i).held + s.run).Nodup := by
  rw [h.tasks]
  exact (nodup_zipIdx_map_snd s.accepted).of_map _

lemma run_nodup (h : Accounted s) : s.run.Nodup :=
  Multiset.coe_nodup.mp (Multiset.nodup_of_le (Multiset.le_add_left _ _) h.nodup)

lemma mem_accepted (h : Accounted s) {task : Task} :
    task ∈ s.accepted.zipIdx ↔
      (task ∈ s.queue ∨ ∃ i, task ∈ (s.workers i).held) ∨ task ∈ s.run := by
  rw [← Multiset.mem_coe, ← h.tasks]
  simp [Multiset.mem_sum]

/-- Jobs that are still queued when the last worker ends.  A worker that left its loop would have
found the queue empty, so all of them died; and each died of a job that was called before. -/
lemma deaths_of_lost (h : Accounted s) (hq : s.queue ≠ []) (hen : ¬s.ReceiverAlive) :
    n ≤ s.accepted.dropLast.countP env.kills := by
  have hd : ∀ i, env.doom (s.workers i) = 1 := by
    intro i
    have hi : (s.workers i).ended = true := by simpa using not_exists.mp hen i
    cases hw : s.workers i with
    | died => rfl
    | exited => exact absurd (h.drained i (by rw [hw]; rfl)).2 hq
    | _ =>
      rw [hw] at hi
      cases hi
  obtain ⟨before, hb⟩ := h.queued
  have hc : (s.run : Multiset Task) ≤ before := by
    have ht := h.tasks
    rw [← hb, ← Multiset.coe_add, add_assoc, add_comm (before : Multiset Task)] at ht
    rw [← add_left_cancel ht]
    exact Multiset.le_add_left _ _
  calc n = ∑ i, env.doom (s.workers i) := by simp [hd]
    _ ≤ s.run.countP fun task => env.kills task.1 := h.deaths
    _ ≤ before.countP fun task => env.kills task.1 := (Multiset.coe_le.mp hc).countP_le _
    _ ≤ s.accepted.zipIdx.dropLast.countP fun task => env.kills task.1 := by
      rw [← hb, dropLast_append_of_ne_nil hq]
      exact (sublist_append_left _ _).countP_le
    _ = s.accepted.dropLast.countP env.kills := by
      conv_rhs => rw [← zipIdx_map_fst 0 s.accepted, ← map_dropLast, countP_map]
      rfl

end Accounted

/-! ## No job is lost -/

/-- No job is run twice or dropped, the lock is not poisoned, and once `shutdown` has joined all
workers every accepted job has been run. -/
structure Kept (s : ThreadPool n env) : Prop where
  run_once : s.run.Nodup
  not_dropped : ∀ task ∈ s.accepted.zipIdx,
    task ∈ s.run ∨ (∃ i, task ∈ (s.workers i).held) ∨ task ∈ s.queue ∧ s.ReceiverAlive
  unpoisoned : s.poisoned = false
  joined : s.joined = n → s.run.Perm s.accepted.zipIdx

lemma Accounted.kept (h : Accounted s) (hf : s.accepted.dropLast.countP env.kills < n) :
    s.Kept := by
  have ha : s.queue ≠ [] → s.ReceiverAlive := fun hq => by
    by_contra hen
    exact absurd (h.deaths_of_lost hq hen) (Nat.not_le.mpr hf)
  refine ⟨h.run_nodup, fun task hta => ?_, h.unpoisoned, fun hj => ?_⟩
  · rcases h.mem_accepted.mp hta with (hq | hh) | hr
    · exact .inr (.inr ⟨hq, ha (ne_nil_of_mem hq)⟩)
    · exact .inr (.inl hh)
    · exact .inl hr
  · have hen : ∀ i, (s.workers i).ended = true := fun i => h.joined i (by omega)
    have hq : s.queue = [] := by
      by_contra hq
      obtain ⟨i, hi⟩ := ha hq
      rw [hen i] at hi
      cases hi
    have hh : ∀ i, (s.workers i).held = 0 := fun i => by
      have hi := hen i
      cases hw : s.workers i with
      | exited | died => rfl
      | _ =>
        rw [hw] at hi
        cases hi
    have ht := h.tasks
    simp only [hq, hh, Finset.sum_const_zero] at ht
    exact Multiset.coe_eq_coe.mp ht

/-! ## The interleaving that loses a job

All jobs are accepted first.  Then one worker after the other takes jobs until it dies, and the
others wait for the lock.
-/

/-- The pool with one worker moved, and the lock, the queue and what was run as given. -/
def placed (s : ThreadPool n env) (i : Fin n) (w : Worker) (lock : Option (Fin n))
    (queue run : List Task) : ThreadPool n env :=
  { s.setWorker i w with lock := lock, queue := queue, run := run }

/-- Where a call leaves its worker in this interleaving: back for the next job, or dead. -/
def outcome (env : Reporting) (job : Job) : Worker :=
  if env.kills job then .died else .locking

section Placed

variable {lock : Option (Fin n)} {queue run : List Task}

@[simp] lemma placed_setWorker :
    (s.placed i w lock queue run).setWorker i w' = s.placed i w' lock queue run := by
  simp [placed, setWorker]

end Placed

end ThreadPool
end Veysrs
