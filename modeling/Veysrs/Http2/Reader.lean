import Veysrs.Core.Io
import Veysrs.Http.Response
import Veysrs.Http2.Body

/-!
# Bodies read from an upstream

`PendingBody::Reader` holds a reader, not bytes.  Here `read_chunk` works on the reader itself,
which is any `Read::read`: `Drains` is what the chunks of a body come to when the connection sends it
to its end, however much it asks for each time and however often it has to wait.

A reader that hands out some bytes in order and nothing else (`HandsOut`) drains to these bytes, or
to as many of them as are to be sent (`drains_eq`).
-/

namespace Veysrs

open Core

section Reader

variable {σ : Type}

/-- `read_chunk`, with what is left to be sent and the reader afterwards. -/
def readChunkFrom (read : ℕ → EStateM IoError σ Bytes) (max : ℕ) (remaining : Option ℕ) (s : σ) :
    Except Http2ErrorCode BodyRead × Option ℕ × σ :=
  let want := PendingBody.wanted max remaining
  if want = 0 then (.ok .done, remaining, s)
  else match (read want).run s with
    | .ok data t =>
      if data.isEmpty then
        (if remaining.any (· ≠ 0) then .error .internalError else .ok .done, remaining, t)
      else if remaining.any (· < data.length) then (.error .internalError, remaining, t)
      else
        let remaining := remaining.map (· - data.length)
        (.ok (.data data (remaining = some 0)), remaining, t)
    | .error e t => (if e.waits then .ok .pending else .error .internalError, remaining, t)

/-- The chunks that are sent until the stream is ended, put together. -/
inductive Drains (read : ℕ → EStateM IoError σ Bytes) : Option ℕ → σ → Bytes → Prop
  | done {max : ℕ} {remaining left : Option ℕ} {s t : σ} : 0 < max →
      readChunkFrom read max remaining s = (.ok .done, left, t) → Drains read remaining s []
  | last {max : ℕ} {remaining left : Option ℕ} {s t : σ} {data : Bytes} : 0 < max →
      readChunkFrom read max remaining s = (.ok (.data data true), left, t) →
      Drains read remaining s data
  | more {max : ℕ} {remaining left : Option ℕ} {s t : σ} {data rest : Bytes} : 0 < max →
      readChunkFrom read max remaining s = (.ok (.data data false), left, t) →
      Drains read left t rest → Drains read remaining s (data ++ rest)
  | wait {max : ℕ} {remaining left : Option ℕ} {s t : σ} {rest : Bytes} : 0 < max →
      readChunkFrom read max remaining s = (.ok .pending, left, t) →
      Drains read left t rest → Drains read remaining s rest

/-- `owes s bytes` is kept by reading: what is read is the next of the bytes, none only at their
end, and a reader that has to wait still owes them all. -/
def HandsOut (read : ℕ → EStateM IoError σ Bytes) (owes : σ → Bytes → Prop) : Prop :=
  ∀ s bytes want, owes s bytes → 0 < want →
    wp (read want) s
      (fun data t => ∃ rest, bytes = data ++ rest ∧ owes t rest ∧ data.length ≤ want ∧
        (data = [] → bytes = []))
      (fun e t => e.waits = true → owes t bytes)

/-- What a chunk read comes to. -/
lemma readChunkFrom_cases {read : ℕ → EStateM IoError σ Bytes} {owes : σ → Bytes → Prop}
    (hr : HandsOut read owes) {max : ℕ} (hm : 0 < max) {remaining left : Option ℕ} {s t : σ}
    {bytes : Bytes} (how : owes s bytes) {result : BodyRead}
    (h : readChunkFrom read max remaining s = (.ok result, left, t)) :
    match result with
    | .done => remaining = some 0 ∨ remaining = none ∧ bytes = []
    | .pending => left = remaining ∧ owes t bytes
    | .data data last => ∃ rest, bytes = data ++ rest ∧ owes t rest ∧
        (∀ n, remaining = some n → data.length ≤ n) ∧
        left = remaining.map (· - data.length) ∧ last = decide (left = some 0) := by
  rw [readChunkFrom] at h
  by_cases hw : PendingBody.wanted max remaining = 0
  · simp only [if_pos hw] at h
    obtain ⟨rfl, -, -⟩ := h
    cases remaining with
    | none => exact absurd hw hm.ne'
    | some n =>
      refine .inl (congrArg some ?_)
      rw [PendingBody.wanted] at hw
      omega
  · have hs := hr s bytes _ how (Nat.pos_of_ne_zero hw)
    simp only [if_neg hw] at h
    cases hrun : (read (PendingBody.wanted max remaining)).run s with
    | error e u =>
      rw [hrun] at h
      cases hwa : e.waits with
      | false => simp [hwa] at h
      | true =>
        simp only [hwa, if_true] at h
        obtain ⟨rfl, rfl, rfl⟩ := h
        exact ⟨rfl, wp_error hs hrun hwa⟩
    | ok data u =>
      obtain ⟨rest, hb, hre, hl, hend⟩ := wp_ok hs hrun
      rw [hrun] at h
      simp only [List.isEmpty_iff] at h
      by_cases hd : data = []
      · simp only [if_pos hd, Prod.mk.injEq] at h
        obtain ⟨h, -, -⟩ := h
        cases remaining with
        | none =>
          cases h
          exact .inr ⟨rfl, hend hd⟩
        | some n =>
          by_cases hn : n = 0
          · simp only [hn] at h
            cases h
            exact .inl (congrArg some hn)
          · simp [hn] at h
      · simp only [if_neg hd] at h
        by_cases ho : remaining.any (· < data.length) = true
        · simp [ho] at h
        · simp only [if_neg ho] at h
          obtain ⟨rfl, rfl, rfl⟩ := h
          refine ⟨rest, hb, hre, fun n hn => ?_, rfl, rfl⟩
          rw [hn, Option.any_some, decide_eq_true_eq] at ho
          omega

/-- A body that is sent to its end is what the reader owes, up to what remains to be sent. -/
lemma drains_eq {read : ℕ → EStateM IoError σ Bytes} {owes : σ → Bytes → Prop}
    (hr : HandsOut read owes) {remaining : Option ℕ} {s : σ} {body : Bytes}
    (h : Drains read remaining s body) : ∀ bytes, owes s bytes → body = bodyIn remaining bytes := by
  induction h with
  | done hmax h =>
    intro bytes ho
    rcases readChunkFrom_cases hr hmax ho h with rfl | ⟨rfl, rfl⟩
    · rfl
    · rfl
  | @last max remaining left s t data hmax h =>
    intro bytes ho
    obtain ⟨rest, rfl, -, hle, rfl, hl⟩ := readChunkFrom_cases hr hmax ho h
    have hz : remaining.map (· - data.length) = some 0 := of_decide_eq_true hl.symm
    cases remaining with
    | none => cases hz
    | some n =>
      have hn := hle n rfl
      rw [Option.map_some, Option.some.injEq] at hz
      obtain rfl : n = data.length := by omega
      exact List.take_left.symm
  | @more max remaining left s t data rest hmax h _ ih =>
    intro bytes ho
    obtain ⟨more, rfl, hm, hle, rfl, -⟩ := readChunkFrom_cases hr hmax ho h
    rw [ih more hm]
    cases remaining with
    | none => rfl
    | some n => rw [Option.map_some, bodyIn, bodyIn, List.take_append,
        List.take_of_length_le (hle n rfl)]
  | wait hmax h _ ih =>
    intro bytes ho
    obtain ⟨rfl, ho⟩ := readChunkFrom_cases hr hmax ho h
    exact ih bytes ho

/-- A pending response that is polled until it is ready. -/
inductive Polls {α : Type} (poll : EStateM IoError σ (Option α)) : σ → α → Prop
  | ready {s t : σ} {response : α} : poll.run s = .ok (some response) t → Polls poll s response
  | again {s t : σ} {response : α} : poll.run s = .ok none t → Polls poll t response →
      Polls poll s response

end Reader

end Veysrs
