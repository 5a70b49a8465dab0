import Mathlib.Algebra.Ring.Int.Defs
import Mathlib.Algebra.Ring.Nat
import Mathlib.Tactic.Common

/-!
# Weakest preconditions for programs with state and errors

`EStateM ε σ` keeps the state a program had reached when it failed.  `wp x s Q E` says what a run
of `x` from `s` leads to: `Q` of the result and the final state if it returns, `E` of the error
and the state it stopped in if it throws.  Every operation has its rule, as a `simp` equivalence,
so that a goal `wp program s Q E` unfolds along the program; calls are peeled off with `wp_mono`
and the callee's own statement.
-/

namespace Core

open List

universe u

variable {ε σ α β : Type u}

/-- What a run of `x` from `s` leads to. -/
def wp (x : EStateM ε σ α) (s : σ) (Q : α → σ → Prop) (E : ε → σ → Prop) : Prop :=
  match x.run s with
  | .ok a t => Q a t
  | .error e t => E e t

variable {f : α → EStateM ε σ β} {P : PUnit → σ → Prop} {xs : List α}

section Rules

variable {x : EStateM ε σ α} {s t : σ} {Q Q' : α → σ → Prop} {E E' : ε → σ → Prop}

/-- A weaker postcondition holds as well. -/
lemma wp_mono (h : wp x s Q E) (hQ : ∀ a t, Q a t → Q' a t) (hE : ∀ e t, E e t → E' e t) :
    wp x s Q' E' := by
  unfold wp at h ⊢
  cases hx : x.run s with
  | ok a t => rw [hx] at h; exact hQ a t h
  | error e t => rw [hx] at h; exact hE e t h

/-- What holds of every run holds of one that returned. -/
lemma wp_ok {a : α} (h : wp x s Q E) (hx : x.run s = .ok a t) : Q a t := by
  unfold wp at h
  rwa [hx] at h

/-- What holds of every run holds of one that failed. -/
lemma wp_error {e : ε} (h : wp x s Q E) (hx : x.run s = .error e t) : E e t := by
  unfold wp at h
  rwa [hx] at h

lemma wp_of_run_eq_ok {a : α} (hx : x.run s = .ok a t) : wp x s Q E ↔ Q a t := by
  rw [wp, hx]

lemma wp_and {R : α → σ → Prop} {F : ε → σ → Prop} (h : wp x s Q E) (h' : wp x s R F) :
    wp x s (fun a t => Q a t ∧ R a t) (fun e t => E e t ∧ F e t) := by
  unfold wp at h h' ⊢
  cases hx : x.run s with
  | ok a t => rw [hx] at h h'; exact ⟨h, h'⟩
  | error e t => rw [hx] at h h'; exact ⟨h, h'⟩

@[simp] lemma wp_pure (a : α) : wp (pure a) s Q E ↔ Q a s := Iff.rfl

@[simp] lemma wp_bind (f : α → EStateM ε σ β) {P : β → σ → Prop} :
    wp (x >>= f) s P E ↔ wp x s (fun a t => wp (f a) t P E) E := by
  unfold wp
  show (match EStateM.bind x f s with | .ok a t => P a t | .error e t => E e t) ↔ _
  unfold EStateM.bind EStateM.run
  cases x s <;> exact Iff.rfl

/-- What a program ends with, whatever it did before. -/
lemma wp_bind_any {P : β → σ → Prop} (h : ∀ a t, wp (f a) t P fun _ _ => True) :
    wp (x >>= f) s P fun _ _ => True := by
  rw [wp_bind, wp]
  cases x.run s with
  | ok a t => exact h a t
  | error e t => trivial

@[simp] lemma wp_throw (e : ε) : wp (throw e : EStateM ε σ α) s Q E ↔ E e s := Iff.rfl

@[simp] lemma wp_get {P : σ → σ → Prop} : wp (get : EStateM ε σ σ) s P E ↔ P s s := Iff.rfl

@[simp] lemma wp_set : wp (set t : EStateM ε σ PUnit) s P E ↔ P ⟨⟩ t := Iff.rfl

@[simp] lemma wp_modify (f : σ → σ) :
    wp (modify f : EStateM ε σ PUnit) s P E ↔ P ⟨⟩ (f s) := Iff.rfl

@[simp] lemma wp_ite (c : Prop) [Decidable c] (y : EStateM ε σ α) :
    wp (if c then x else y) s Q E ↔ (c → wp x s Q E) ∧ (¬c → wp y s Q E) := by
  by_cases hc : c <;> simp [hc]

@[simp] lemma wp_ofExcept_ok (a : α) :
    wp (MonadExcept.ofExcept (.ok a) : EStateM ε σ α) s Q E ↔ Q a s := Iff.rfl

@[simp] lemma wp_ofExcept_error (e : ε) :
    wp (MonadExcept.ofExcept (.error e) : EStateM ε σ α) s Q E ↔ E e s := Iff.rfl

/-- A pure result that may be an error: split on it. -/
lemma wp_ofExcept {r : Except ε α} (hok : ∀ a, r = .ok a → Q a s)
    (her : ∀ e, r = .error e → E e s) :
    wp (MonadExcept.ofExcept r : EStateM ε σ α) s Q E := by
  cases r with
  | ok a => exact hok a rfl
  | error e => exact her e rfl

end Rules

/-- Whether a run returned. -/
def isOk : EStateM.Result ε σ α → Bool
  | .ok _ _ => true
  | .error _ _ => false

/-- The state a run stopped in. -/
def stateOf : EStateM.Result ε σ α → σ
  | .ok _ s => s
  | .error _ s => s

variable {x : EStateM ε σ α}

/-- What holds after a run whether or not it returned. -/
lemma wp_stateOf {s : σ} {P : σ → Prop} (h : wp x s (fun _ t => P t) (fun _ t => P t)) :
    P (stateOf (x.run s)) := by
  unfold wp at h
  cases hr : x.run s with
  | ok a t =>
    rw [hr] at h
    exact h
  | error e t =>
    rw [hr] at h
    exact h

/-- What a run returned. -/
def valueOf : EStateM.Result ε σ α → Option α
  | .ok a _ => some a
  | .error _ _ => none

lemma eq_ok_of_valueOf {r : EStateM.Result ε σ α} {a : α} (h : valueOf r = some a) :
    r = .ok a (stateOf r) := by
  cases r with
  | ok b s =>
    cases h
    rfl
  | error e s => cases h

lemma eq_ok_of_isOk {r : EStateM.Result ε σ PUnit} (h : isOk r = true) :
    r = .ok ⟨⟩ (stateOf r) := by
  cases r with
  | ok a s => rfl
  | error e s => cases h

/-- Every program ends. -/
lemma not_wp_false (x : EStateM ε σ α) (s : σ) : ¬wp x s (fun _ _ => False) (fun _ _ => False) := by
  unfold wp
  cases x.run s <;> exact id

/-- A program that cannot fail returns. -/
lemma exists_ok_of_wp {s : σ} {Q : α → σ → Prop} (h : wp x s Q fun _ _ => False) :
    ∃ a t, x.run s = .ok a t ∧ Q a t := by
  unfold wp at h
  cases hr : x.run s with
  | ok a t =>
    rw [hr] at h
    exact ⟨a, t, rfl, h⟩
  | error e t =>
    rw [hr] at h
    exact h.elim

lemma run_bind_of_ok {s t : σ} {a : α} (h : x.run s = .ok a t) (f : α → EStateM ε σ β) :
    (x >>= f).run s = (f a).run t := by
  show EStateM.bind x f s = f a t
  unfold EStateM.bind
  rw [show x s = .ok a t from h]

lemma run_bind_of_error {s t : σ} {e : ε} (h : x.run s = .error e t) (f : α → EStateM ε σ β) :
    (x >>= f).run s = .error e t := by
  show EStateM.bind x f s = .error e t
  unfold EStateM.bind
  rw [show x s = .error e t from h]

lemma run_bind_ofExcept_ok (a : α) (f : α → EStateM ε σ β) (s : σ) :
    ((MonadExcept.ofExcept (.ok a) : EStateM ε σ α) >>= f).run s = (f a).run s := rfl

lemma run_bind_get (f : σ → EStateM ε σ β) (s : σ) :
    ((get : EStateM ε σ σ) >>= f).run s = (f s).run s := rfl

/-- A run of two programs that returned is a run of the first and one of the second. -/
lemma run_bind_eq_ok {s u : σ} {b : β} :
    (x >>= f).run s = .ok b u ↔ ∃ a t, x.run s = .ok a t ∧ (f a).run t = .ok b u := by
  show EStateM.bind x f s = .ok b u ↔ _
  unfold EStateM.bind EStateM.run
  cases x s with
  | ok a t => simp
  | error e t => simp

/-- A pure computation of two parts returns if both do. -/
lemma except_bind_eq_ok {x : Except ε α} {f : α → Except ε β} {b : β} :
    x >>= f = .ok b ↔ ∃ a, x = .ok a ∧ f a = .ok b := by
  cases x with
  | ok a =>
    show f a = .ok b ↔ _
    simp
  | error e =>
    show Except.error e = .ok b ↔ _
    simp

/-- What every step keeps, a fold keeps. -/
lemma except_foldlM_keeps {f : β → α → Except ε β} {I : β → Prop}
    (hs : ∀ {b c x}, I b → f b x = .ok c → I c) : ∀ {b c : β}, I b →
    xs.foldlM f b = .ok c → I c := by
  induction xs with
  | nil =>
    intro b c hb h
    cases h
    exact hb
  | cons x xs ih =>
    intro b c hb h
    rw [foldlM_cons, except_bind_eq_ok] at h
    obtain ⟨d, hx, hxs⟩ := h
    exact ih (hs hb hx) hxs

/-- The same for a fold that may stop without a result. -/
lemma option_foldlM_keeps {f : β → α → Option β} {I : β → Prop}
    (hs : ∀ {b c x}, I b → f b x = some c → I c) : ∀ {b c : β}, I b →
    xs.foldlM f b = some c → I c := by
  induction xs with
  | nil =>
    intro b c hb h
    cases h
    exact hb
  | cons x xs ih =>
    intro b c hb h
    rw [foldlM_cons, Option.bind_eq_bind, Option.bind_eq_some_iff] at h
    obtain ⟨d, hx, hxs⟩ := h
    exact ih (hs hb hx) hxs

/-- In a fold whose steps lead along a preorder, every element was handled on the way. -/
lemma option_foldlM_passes {f : β → α → Option β} {R : β → β → Prop} (hre : ∀ b, R b b)
    (ht : ∀ {b c d}, R b c → R c d → R b d) (hs : ∀ {b c x}, f b x = some c → R b c) :
    ∀ {b c : β}, xs.foldlM f b = some c →
      R b c ∧ ∀ x ∈ xs, ∃ s t, f s x = some t ∧ R t c := by
  induction xs with
  | nil =>
    intro b c h
    cases h
    exact ⟨hre b, by simp⟩
  | cons x xs ih =>
    intro b c h
    rw [foldlM_cons, Option.bind_eq_bind, Option.bind_eq_some_iff] at h
    obtain ⟨d, hx, hxs⟩ := h
    obtain ⟨hr, hp⟩ := ih hxs
    exact ⟨ht (hs hx) hr, forall_mem_cons.mpr ⟨⟨b, d, hx, hr⟩, hp⟩⟩

/-- A map that the steps of two folds commute with is one the folds commute with. -/
lemma option_foldlM_map_comm {f : β → α → Option β} {g : γ → α → Option γ} {r : β → γ}
    (hs : ∀ b x, g (r b) x = (f b x).map r) (xs : List α) (b : β) :
    xs.foldlM g (r b) = (xs.foldlM f b).map r := by
  induction xs generalizing b with
  | nil => rfl
  | cons x xs ih =>
    rw [foldlM_cons, foldlM_cons, hs]
    cases f b x with
    | none => rfl
    | some c => exact ih c

/-- A fold that collects returns if every element gives something. -/
lemma option_foldlM_append_isSome {g : α → Option (List β)} {acc : List β} :
    (xs.foldlM (fun acc x => (g x).map (acc ++ ·)) acc).isSome = true ↔
      ∀ x ∈ xs, (g x).isSome = true := by
  induction xs generalizing acc with
  | nil => simp
  | cons x xs ih =>
    rw [foldlM_cons, forall_mem_cons]
    cases hx : g x with
    | none => simp
    | some found =>
      rw [Option.map_some, Option.bind_eq_bind, Option.bind_some, ih]
      simp

/-- It has then collected what was there and what the elements gave. -/
lemma mem_of_option_foldlM_append {g : α → Option (List β)} :
    ∀ {acc out : List β}, xs.foldlM (fun acc x => (g x).map (acc ++ ·)) acc = some out →
      ∀ b, b ∈ out ↔ b ∈ acc ∨ ∃ x ∈ xs, ∃ found, g x = some found ∧ b ∈ found := by
  induction xs with
  | nil =>
    intro acc out h b
    cases h
    simp
  | cons x xs ih =>
    intro acc out h b
    rw [foldlM_cons, Option.bind_eq_bind, Option.bind_eq_some_iff] at h
    obtain ⟨acc', hx, hxs⟩ := h
    obtain ⟨found, hf, rfl⟩ := Option.map_eq_some_iff.mp hx
    rw [ih hxs b, mem_append, or_assoc]
    simp [hf]

/-- In a fold that returned, every element was accepted. -/
lemma except_foldlM_forall {f : β → α → Except ε β} {b c : β} (h : xs.foldlM f b = .ok c) :
    ∀ x ∈ xs, ∃ s t, f s x = .ok t := by
  induction xs generalizing b with
  | nil => simp
  | cons y xs ih =>
    rw [foldlM_cons, except_bind_eq_ok] at h
    obtain ⟨d, hy, hxs⟩ := h
    exact forall_mem_cons.mpr ⟨⟨b, d, hy⟩, ih hxs⟩

/-- Fail with `e` where `c` holds. -/
def failIf (c : Prop) [Decidable c] (e : ε) : EStateM ε σ PUnit := if c then throw e else pure ⟨⟩

@[simp] lemma wp_failIf (c : Prop) [Decidable c] (e : ε) {s : σ} {E : ε → σ → Prop} :
    wp (failIf c e) s P E ↔ (c → E e s) ∧ (¬c → P ⟨⟩ s) := by
  simp [failIf]

/-! ## Relations every run keeps to -/

section Moves

variable {R S : σ → σ → Prop} {x : EStateM ε σ α}

/-- A run moves the state by `R`, whether or not it returns. -/
def Moves (R : σ → σ → Prop) (x : EStateM ε σ α) : Prop :=
  ∀ s, wp x s (fun _ t => R s t) (fun _ t => R s t)

lemma Moves.mono (h : Moves R x) (hRS : ∀ s t, R s t → S s t) : Moves S x :=
  fun s => wp_mono (h s) (fun _ t ht => hRS s t ht) (fun _ t ht => hRS s t ht)

lemma Moves.stateOf_run (h : Moves R x) (s : σ) : R s (stateOf (x.run s)) := wp_stateOf (h s)

lemma moves_modify {f : σ → σ} (h : ∀ s, R s (f s)) : Moves R (modify f : EStateM ε σ PUnit) :=
  fun s => h s

lemma Moves.ite {c : Prop} [Decidable c] {y : EStateM ε σ α} (hx : Moves R x)
    (hy : Moves R y) : Moves R (if c then x else y) := by
  by_cases hc : c
  · rwa [if_pos hc]
  · rwa [if_neg hc]

variable [IsPreorder σ R]

lemma moves_pure (a : α) : Moves R (pure a : EStateM ε σ α) := fun s => refl_of R s

lemma moves_throw (e : ε) : Moves R (throw e : EStateM ε σ α) := fun s => refl_of R s

lemma moves_get : Moves R (get : EStateM ε σ σ) := fun s => refl_of R s

lemma Moves.bind (hx : Moves R x) (hf : ∀ a, Moves R (f a)) : Moves R (x >>= f) := by
  intro s
  rw [wp_bind]
  refine wp_mono (hx s) (fun a t ht => ?_) (fun _ _ h => h)
  exact wp_mono (hf a t) (fun _ u hu => trans_of R ht hu) (fun _ u hu => trans_of R ht hu)

lemma moves_ofExcept (r : Except ε α) : Moves R (MonadExcept.ofExcept r : EStateM ε σ α) := by
  cases r with
  | ok a => exact moves_pure a
  | error e => exact moves_throw e

lemma moves_failIf (c : Prop) [Decidable c] (e : ε) : Moves R (failIf c e) :=
  (moves_throw e).ite (moves_pure _)

end Moves

end Core
