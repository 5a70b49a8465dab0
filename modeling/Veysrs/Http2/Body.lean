import Veysrs.Http2.Stream

/-!
# Response bodies waiting to be sent

`PendingBody::read_chunk` of `server/http2/connection.rs`.  A body is the bytes its source still
holds, with the counter the source code keeps for it; a read of a file or of an upstream may come
back short, block, time out or fail, and which of these happens is chosen from outside
(`ReadChoice`).

What the rest of the development knows about reading a body is `readChunk_delivers` and the lemmas
after it.
-/

namespace Veysrs

open Core List

/-! ## Reading a source -/

/-- What the operating system does with one `read`: deliver at most so many bytes, or not. -/
inductive ReadChoice where
  | upTo (n : ℕ)
  | wouldBlock
  | timedOut
  | fail
  deriving DecidableEq, Repr

/-- What one `read` returned; no bytes at all means end of file. -/
inductive ReadOutcome where
  | got (bytes : Bytes)
  | wouldBlock
  | timedOut
  | failed
  deriving DecidableEq, Repr

/-- `Read::read` into a buffer of `want` bytes: at least one byte comes back unless the source is
at its end or the buffer is empty. -/
def readSource (choice : ReadChoice) (want : ℕ) (source : Bytes) : ReadOutcome × Bytes :=
  match choice with
  | .upTo n => (.got (source.take (min want (max n 1))), source.drop (min want (max n 1)))
  | .wouldBlock => (.wouldBlock, source)
  | .timedOut => (.timedOut, source)
  | .fail => (.failed, source)

/-! ## Pending bodies -/

inductive BodyRead where
  | data (data : Bytes) (done : Bool)
  | pending
  | done
  deriving DecidableEq, Repr

/-- The offset of a body of bytes never passes its end: `data[offset..end]` cannot be out of
range. -/
inductive PendingBody where
  | bytes (data : Bytes) (offset : ℕ) (inside : offset ≤ data.length)
  | file (source : Bytes) (remaining : ℕ)
  | reader (source : Bytes) (remaining : Option ℕ)
  deriving DecidableEq, Repr

namespace PendingBody

/-- The bytes the body has still to deliver. -/
def source : PendingBody → Bytes
  | bytes data offset _ => data.drop offset
  | file source _ => source
  | reader source _ => source

/-- The number of bytes the body has still to deliver, where it is declared. -/
def declared : PendingBody → Option ℕ
  | bytes data offset _ => some (data.length - offset)
  | file _ remaining => some remaining
  | reader _ remaining => remaining

def isFile : PendingBody → Bool
  | file _ _ => true
  | _ => false

/-- A chunk read: what the underlying `read` returned (if there was one), what `read_chunk`
returned, and the body afterwards. -/
structure Chunk where
  outcome : Option ReadOutcome
  result : Except Http2ErrorCode BodyRead
  body : PendingBody

def readFile (choice : ReadChoice) (max : ℕ) (source : Bytes) (remaining : ℕ) : Chunk :=
  match readSource choice (min remaining max) source with
  | (.got [], rest) =>
    { outcome := some (.got []), result := .error .internalError, body := file rest remaining }
  | (.got buf, rest) =>
    { outcome := some (.got buf)
      result := .ok (.data buf (remaining - buf.length = 0))
      body := file rest (remaining - buf.length) }
  | (outcome, rest) =>
    { outcome := some outcome, result := .error .internalError, body := file rest remaining }

/-- The size of the buffer a reader is given. -/
def wanted (max : ℕ) : Option ℕ → ℕ
  | some left => min left max
  | none => max

def readReader (choice : ReadChoice) (max : ℕ) (source : Bytes) (remaining : Option ℕ) : Chunk :=
  if wanted max remaining = 0 then
    { outcome := none, result := .ok .done, body := reader source remaining }
  else match readSource choice (wanted max remaining) source with
    | (.got [], rest) =>
      { outcome := some (.got [])
        result := if remaining.any (· ≠ 0) then .error .internalError else .ok .done
        body := reader rest remaining }
    | (.got buf, rest) =>
      { outcome := some (.got buf)
        result := .ok (.data buf (remaining.any (· - buf.length = 0)))
        body := reader rest (remaining.map (· - buf.length)) }
    | (.failed, rest) =>
      { outcome := some .failed, result := .error .internalError, body := reader rest remaining }
    | (blocked, rest) =>
      { outcome := some blocked, result := .ok .pending, body := reader rest remaining }

/-- `PendingBody::read_chunk`. -/
def readChunk (choice : ReadChoice) (max : ℕ) : PendingBody → Chunk
  | bytes data offset _ =>
    { outcome := none
      result := .ok (.data ((data.take (min (offset + max) data.length)).drop offset)
        (min (offset + max) data.length = data.length))
      body := bytes data (min (offset + max) data.length) (Nat.min_le_right _ _) }
  | file source remaining => readFile choice max source remaining
  | reader source remaining => readReader choice max source remaining

/-! ## What a chunk read does -/

section Spec

variable {body : PendingBody} {choice : ReadChoice} {max : ℕ}

lemma readSource_got {want : ℕ} {source buf rest : Bytes}
    (h : readSource choice want source = (.got buf, rest)) :
    source = buf ++ rest ∧ buf.length ≤ want ∧ (buf = [] → want = 0 ∨ source = []) := by
  cases choice with
  | upTo n =>
    obtain ⟨rfl, rfl⟩ := h
    refine ⟨(take_append_drop _ _).symm, ?_, fun hn => ?_⟩
    · rw [length_take]
      omega
    · rcases take_eq_nil_iff.mp hn with h0 | h0
      · exact .inl (by omega)
      · exact .inr h0
  | wouldBlock => simp [readSource] at h
  | timedOut => simp [readSource] at h
  | fail => simp [readSource] at h

/-- The bytes of a chunk are the next of the source; the chunk is the last exactly if it brings
what was declared to nothing. -/
structure Delivers (body : PendingBody) (max : ℕ) (data : Bytes) (done : Bool)
    (rest : PendingBody) : Prop where
  bounded : data.length ≤ max
  source : body.source = data ++ rest.source
  within : ∀ n, body.declared = some n → data.length ≤ n
  declared : rest.declared = body.declared.map (· - data.length)
  done_iff : done = true ↔ body.declared = some data.length

variable {done : Bool}

lemma readFile_delivers {source : Bytes} {remaining : ℕ} {data : Bytes}
    (h : (readFile choice max source remaining).result = .ok (.data data done)) :
    Delivers (file source remaining) max data done (readFile choice max source remaining).body := by
  unfold readFile at h ⊢
  split at h
  · cases h
  · rename_i buf rest hne hr
    obtain ⟨hs, hl, _⟩ := readSource_got hr
    cases h
    refine ⟨by omega, hs, fun n hn => ?_, rfl, ?_⟩
    · cases hn
      omega
    · simp only [declared, decide_eq_true_eq, Option.some.injEq]
      omega
  · cases h

lemma readReader_delivers {source : Bytes} {remaining : Option ℕ} {data : Bytes}
    (h : (readReader choice max source remaining).result = .ok (.data data done)) :
    Delivers (reader source remaining) max data done
      (readReader choice max source remaining).body := by
  unfold readReader at h ⊢
  by_cases hw : wanted max remaining = 0
  · rw [if_pos hw] at h
    cases h
  rw [if_neg hw] at h ⊢
  split at h
  · simp only at h
    split_ifs at h
    all_goals cases h
  · rename_i buf rest hne hr
    obtain ⟨hs, hl, _⟩ := readSource_got hr
    cases h
    refine ⟨?_, hs, ?_, rfl, ?_⟩
    · cases remaining <;> simp only [wanted] at hl <;> omega
    · intro n hn
      cases hn
      simp only [wanted] at hl
      omega
    · cases remaining with
      | none => simp [declared]
      | some left =>
        simp only [wanted] at hl
        simp only [declared, Option.any_some, decide_eq_true_eq, Option.some.injEq]
        omega
  · cases h
  · cases h

/-- **A chunk delivers the next bytes of its source.** -/
lemma readChunk_delivers {data : Bytes}
    (h : (body.readChunk choice max).result = .ok (.data data done)) :
    Delivers body max data done (body.readChunk choice max).body := by
  cases body with
  | bytes all offset inside =>
    obtain ⟨rfl, rfl⟩ := h
    have hl : ((all.take (min (offset + max) all.length)).drop offset).length =
        min (offset + max) all.length - offset := by
      rw [length_drop, length_take]
      omega
    refine ⟨by omega, ?_, fun n hn => ?_, ?_, ?_⟩
    · simp only [source, readChunk]
      conv_lhs => rw [← take_append_drop (min (offset + max) all.length) all]
      rw [drop_append_of_le_length (by rw [length_take]; omega)]
    · cases hn
      omega
    · simp only [declared, readChunk, Option.map_some, Option.some.injEq]
      omega
    · simp only [declared, decide_eq_true_eq, Option.some.injEq]
      omega
  | file source remaining => exact readFile_delivers h
  | reader source remaining => exact readReader_delivers h

@[simp] lemma readChunk_isFile : (body.readChunk choice max).body.isFile = body.isFile := by
  cases body with
  | bytes all offset inside => rfl
  | file source remaining =>
    simp only [readChunk, readFile]
    split <;> rfl
  | reader source remaining =>
    simp only [readChunk, readReader]
    by_cases hw : wanted max remaining = 0
    · rw [if_pos hw]
    · rw [if_neg hw]
      split <;> rfl

/-- Data comes from a read that returned it, or from no read. -/
lemma readChunk_outcome {data : Bytes}
    (h : (body.readChunk choice max).result = .ok (.data data done)) :
    (body.readChunk choice max).outcome = none ∨
      (body.readChunk choice max).outcome = some (.got data) ∧ data ≠ [] := by
  cases body with
  | bytes all offset inside => exact .inl rfl
  | file source remaining =>
    simp only [readChunk, readFile] at h ⊢
    split at h
    · cases h
    · rename_i buf rest hne hr
      cases h
      exact .inr ⟨rfl, hne⟩
    · cases h
  | reader source remaining =>
    simp only [readChunk, readReader] at h ⊢
    by_cases hw : wanted max remaining = 0
    · rw [if_pos hw] at h
      cases h
    rw [if_neg hw] at h ⊢
    split at h
    · simp only at h
      split_ifs at h
      all_goals cases h
    · rename_i buf rest hne hr
      cases h
      exact .inr ⟨rfl, hne⟩
    · cases h
    · cases h

/-- A reader that has nothing yet is left as it was. -/
lemma readChunk_pending (h : (body.readChunk choice max).result = .ok .pending) :
    (body.readChunk choice max).body = body ∧ body.isFile = false ∧
      ((body.readChunk choice max).outcome = some .wouldBlock ∨
        (body.readChunk choice max).outcome = some .timedOut) := by
  cases body with
  | bytes all offset inside => cases h
  | file source remaining =>
    simp only [readChunk, readFile] at h
    split at h <;> cases h
  | reader source remaining =>
    simp only [readChunk, readReader] at h ⊢
    by_cases hw : wanted max remaining = 0
    · rw [if_pos hw] at h
      cases h
    rw [if_neg hw] at h ⊢
    cases choice with
    | upTo n =>
      split at h
      · simp only at h
        split_ifs at h
        all_goals cases h
      · cases h
      · cases h
      · rename_i hg _ hr
        exact absurd (congrArg Prod.fst hr).symm (hg _)
    | wouldBlock => exact ⟨rfl, rfl, .inl rfl⟩
    | timedOut => exact ⟨rfl, rfl, .inr rfl⟩
    | fail => cases h

/-- A reader is done when nothing is left of what it declared, or at the end of file. -/
lemma readChunk_done (hm : 0 < max) (h : (body.readChunk choice max).result = .ok .done) :
    (body.declared = some 0 ∨ body.declared = none ∧ body.source = []) ∧
      ((body.readChunk choice max).outcome = none ∨
        (body.readChunk choice max).outcome = some (.got [])) := by
  cases body with
  | bytes all offset inside => cases h
  | file source remaining =>
    simp only [readChunk, readFile] at h
    split at h <;> cases h
  | reader source remaining =>
    simp only [readChunk, readReader] at h ⊢
    by_cases hw : wanted max remaining = 0
    · rw [if_pos hw]
      refine ⟨.inl ?_, .inl rfl⟩
      cases remaining with
      | none =>
        simp only [wanted] at hw
        omega
      | some left =>
        simp only [wanted] at hw
        simp only [declared, Option.some.injEq]
        omega
    rw [if_neg hw] at h ⊢
    split at h
    · rename_i rest hr
      refine ⟨?_, .inr rfl⟩
      obtain ⟨_, _, hend⟩ := readSource_got hr
      have hs : source = [] := (hend rfl).resolve_left hw
      cases remaining with
      | none => exact .inr ⟨rfl, hs⟩
      | some left =>
        simp only [Option.any_some] at h
        split_ifs at h with hl
        · simp only [wanted] at hw
          simp only [decide_eq_true_eq] at hl
          omega
    · cases h
    · cases h
    · cases h

end Spec

end PendingBody

end Veysrs
