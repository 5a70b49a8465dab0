import Veysrs.Core.Fitting
import Veysrs.Http2.HpackSync

/-!
# The size of the dynamic table

The table counts its size as entries come and go, and evicts the oldest while it is too large.

**One operation.**  If the count is right, eviction leaves the longest beginning of the entries that
fits (`evictToSize_eq`).  Insertion and a new maximum both end with an eviction, so the count stays
right and within the maximum (`Sound.insert`, `Sound.setMaxSize`).

**Whole runs.**  The decoder touches its table through these two operations only, and lowers or
raises the maximum up to its own limit.  A block that fails has made some of them, so the table is
as sound after it as after one that succeeds (`decodeHeaderBlock_bounded`).
-/

namespace Veysrs

open Core List

namespace DynamicTable

/-- The count is right and within the maximum. -/
structure Sound (t : DynamicTable) : Prop where
  counted : t.size = weigh entrySize t.entries
  bounded : t.size ≤ t.maxSize

/-- **Eviction leaves the longest beginning that fits.** -/
lemma evictLoop_eq (target maxSize fuel : ℕ) : ∀ {entries : Headers}, entries.length ≤ fuel →
    evictLoop fuel target { entries, size := weigh entrySize entries, maxSize } =
      { entries := fit entrySize target entries
        size := weigh entrySize (fit entrySize target entries)
        maxSize } := by
  induction fuel with
  | zero =>
    intro entries hf
    rw [eq_nil_of_length_eq_zero (Nat.le_zero.mp hf)]
    rfl
  | succ fuel ih =>
    intro entries hf
    rw [evictLoop]
    by_cases hl : weigh entrySize entries > target
    · rw [if_pos hl]
      -- a table that is too large has a last entry
      rcases eq_nil_or_concat entries with rfl | ⟨older, e, rfl⟩
      · exact absurd hl (Nat.not_lt_zero _)
      · rw [concat_eq_append] at hl hf ⊢
        have hsi : weigh entrySize (older ++ [e]) - entrySize e = weigh entrySize older := by
          simp only [weigh_append, weigh_cons, weigh_nil]
          omega
        have hs : older.length ≤ fuel := by
          rw [length_append, length_singleton] at hf
          omega
        simp only [List.getLast?_concat, dropLast_concat, hsi]
        rw [ih hs, fit_concat_of_lt hl]
    · rw [if_neg hl, fit_of_le (Nat.not_lt.mp hl)]

variable {t : DynamicTable}

lemma evictToSize_eq (h : t.size = weigh entrySize t.entries) (target : ℕ) :
    t.evictToSize target = { t with
      entries := fit entrySize target t.entries
      size := weigh entrySize (fit entrySize target t.entries) } := by
  obtain ⟨entries, size, maxSize⟩ := t
  simp only at h
  rw [h]
  exact evictLoop_eq target maxSize entries.length le_rfl

section Operations

variable {t : DynamicTable}

lemma sound_new (maxSize : ℕ) : (new maxSize).Sound := ⟨rfl, Nat.zero_le _⟩

/-- After an insertion the entries are those that fit, the newest first. -/
lemma Sound.insert_eq (h : t.Sound) (name value : Str) :
    t.insert name value = { t with
      entries := fit entrySize t.maxSize ((name, value) :: t.entries)
      size := weigh entrySize (fit entrySize t.maxSize ((name, value) :: t.entries)) } := by
  rw [DynamicTable.insert, evictToSize_eq]
  rw [weigh_cons, h.counted, Nat.add_comm]

lemma Sound.setMaxSize_eq (h : t.Sound) (newMax : ℕ) :
    t.setMaxSize newMax =
      { entries := fit entrySize newMax t.entries
        size := weigh entrySize (fit entrySize newMax t.entries)
        maxSize := newMax } := by
  exact evictToSize_eq (show { t with maxSize := newMax }.size = _ from h.counted) newMax

lemma Sound.insert (h : t.Sound) (name value : Str) : (t.insert name value).Sound := by
  rw [h.insert_eq]
  exact ⟨rfl, (fit_longest _ _ _).fits⟩

lemma Sound.setMaxSize (h : t.Sound) (newMax : ℕ) : (t.setMaxSize newMax).Sound := by
  rw [h.setMaxSize_eq]
  exact ⟨rfl, (fit_longest _ _ _).fits⟩

lemma Sound.maxSize_insert (h : t.Sound) (name value : Str) :
    (t.insert name value).maxSize = t.maxSize := by
  rw [h.insert_eq]

lemma Sound.maxSize_setMaxSize (h : t.Sound) (newMax : ℕ) :
    (t.setMaxSize newMax).maxSize = newMax := by
  rw [h.setMaxSize_eq]

/-- What an insertion does to the entries: the longest beginning of the new and the old ones that
fits is kept, which is nothing if the new one does not fit by itself. -/
def InsertsFitting (t : DynamicTable) : Prop :=
  ∀ name value,
    LongestFitting entrySize t.maxSize ((name, value) :: t.entries)
      (t.insert name value).entries ∧
    (t.maxSize < entrySize (name, value) → (t.insert name value).entries = [])

lemma Sound.insertsFitting (h : t.Sound) : t.InsertsFitting := by
  intro name value
  rw [h.insert_eq]
  exact ⟨fit_longest _ _ _, fun hl => fit_cons_of_lt hl⟩

end Operations

/-! ## Operations in any order -/

/-- The two ways to change a table. -/
inductive Op where
  | insert (name value : Str)
  | setMaxSize (newMax : ℕ)

def apply (t : DynamicTable) : Op → DynamicTable
  | .insert name value => t.insert name value
  | .setMaxSize newMax => t.setMaxSize newMax

def applyAll (t : DynamicTable) (ops : List Op) : DynamicTable := ops.foldl apply t

/-- No new maximum is above the limit. -/
def WithinLimit (limit : ℕ) : Op → Prop
  | .insert _ _ => True
  | .setMaxSize newMax => newMax ≤ limit

lemma Sound.apply (h : t.Sound) (op : Op) : (t.apply op).Sound := by
  cases op with
  | insert name value => exact h.insert name value
  | setMaxSize newMax => exact h.setMaxSize newMax

lemma Sound.maxSize_apply_le {limit : ℕ} (h : t.Sound) (hm : t.maxSize ≤ limit) {op : Op}
    (hop : WithinLimit limit op) : (t.apply op).maxSize ≤ limit := by
  cases op with
  | insert name value => exact (h.maxSize_insert name value).trans_le hm
  | setMaxSize newMax => exact (h.maxSize_setMaxSize newMax).trans_le hop

lemma Sound.applyAll (h : t.Sound) (ops : List Op) : (t.applyAll ops).Sound := by
  induction ops generalizing t with
  | nil => exact h
  | cons op ops ih => exact ih (h.apply op)

lemma Sound.maxSize_applyAll_le {limit : ℕ} (h : t.Sound) (hm : t.maxSize ≤ limit) {ops : List Op}
    (hops : ∀ op ∈ ops, WithinLimit limit op) : (t.applyAll ops).maxSize ≤ limit := by
  induction ops generalizing t with
  | nil => exact hm
  | cons op ops ih =>
    have hop := hops op mem_cons_self
    exact ih (h.apply op) (h.maxSize_apply_le hm hop)
      fun o ho => hops o (mem_cons_of_mem _ ho)

end DynamicTable

/-! ## The decoder -/

namespace HpackDecoder

/-- The decoder's table is sound and its maximum within the decoder's limit. -/
structure Bounded (d : HpackDecoder) : Prop where
  sound : d.dynamicTable.Sound
  limited : d.dynamicTable.maxSize ≤ d.maxDynamicTableSize

instance : IsPreorder HpackDecoder (fun d d' => Bounded d → Bounded d') where
  refl _ := id
  trans _ _ _ h h' := h' ∘ h

/-- **A block keeps the table bounded, whether it is decoded or fails half-way.** -/
lemma decodeHeaderBlock_bounded (block : Bytes) :
    Moves (fun d d' => Bounded d → Bounded d') (decodeHeaderBlock block) := by
  refine Decodes.decodeHeaderBlock ⟨fun d name value hd => ⟨hd.sound.insert _ _, ?_⟩,
    fun d n hn hd => ⟨hd.sound.setMaxSize n, ?_⟩⟩ block
  · exact (hd.sound.maxSize_insert _ _).trans_le hd.limited
  · exact (hd.sound.maxSize_setMaxSize n).trans_le hn

lemma Bounded.after {d : HpackDecoder} (h : d.Bounded) (block : Bytes) : (d.after block).Bounded :=
  (decodeHeaderBlock_bounded block).stateOf_run d h

lemma Bounded.decodeAll {d : HpackDecoder} (h : d.Bounded) (blocks : List Bytes) :
    (d.decodeAll blocks).Bounded := by
  induction blocks generalizing d with
  | nil => exact h
  | cons block blocks ih => exact ih (h.after block)

lemma decodeAll_limits (d : HpackDecoder) (blocks : List Bytes) :
    SameLimits d (d.decodeAll blocks) := by
  induction blocks generalizing d with
  | nil => exact refl_of SameLimits d
  | cons block blocks ih =>
    exact trans_of SameLimits ((decodeHeaderBlock_limits block).stateOf_run d) (ih _)

lemma bounded_new (maxTable maxBlock : ℕ) : (HpackDecoder.new maxTable maxBlock).Bounded :=
  ⟨DynamicTable.sound_new _, le_rfl⟩

end HpackDecoder

/-- **The dynamic table.**  After any operations on a table, and after any header blocks a decoder
was given, well formed or not, the size is that of the entries and within the maximum, the maximum
is within the limit, and an insertion keeps the longest beginning that fits. -/
theorem dynamic_table_bounded :
    (∀ (maxSize : ℕ) (ops : List DynamicTable.Op),
      ((DynamicTable.new maxSize).applyAll ops).Sound ∧
      ((DynamicTable.new maxSize).applyAll ops).InsertsFitting ∧
      ∀ limit, maxSize ≤ limit → (∀ op ∈ ops, DynamicTable.WithinLimit limit op) →
        ((DynamicTable.new maxSize).applyAll ops).maxSize ≤ limit) ∧
    ∀ (maxTable maxBlock : ℕ) (blocks : List Bytes),
      let d := (HpackDecoder.new maxTable maxBlock).decodeAll blocks
      d.dynamicTable.Sound ∧ d.dynamicTable.InsertsFitting ∧
        d.dynamicTable.maxSize ≤ d.maxDynamicTableSize ∧ d.maxDynamicTableSize = maxTable := by
  constructor
  · intro maxSize ops
    have hnew := DynamicTable.sound_new maxSize
    have hsound := hnew.applyAll ops
    exact ⟨hsound, hsound.insertsFitting, fun limit hmax hops => hnew.maxSize_applyAll_le hmax hops⟩
  · intro maxTable maxBlock blocks
    have hbounded := (HpackDecoder.bounded_new maxTable maxBlock).decodeAll blocks
    exact ⟨hbounded.sound, hbounded.sound.insertsFitting, hbounded.limited,
      (HpackDecoder.decodeAll_limits _ blocks).1⟩

end Veysrs
