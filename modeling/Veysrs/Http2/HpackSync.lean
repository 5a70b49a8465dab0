import Veysrs.Http2.Receiver

/-!
# HPACK synchronisation

The decoder's dynamic table mirrors the peer's as long as every header block is decoded, in the
order in which the blocks are completed.  `headerBlocks` reads the blocks off the frames of a run,
`decodeAll` is the decoder that has read them all, and `Synchronised` says that the connection's
table is that decoder's.

A stream that is refused has its header block thrown away.  A run stays synchronised exactly if the
blocks thrown away would not have changed the table.
-/

namespace Veysrs

open Core

/-! ## What decoding may do -/

namespace HpackDecoder

/-- The relation holds for the two ways of changing a decoder: an entry goes into its table, or the
table gets a size within the decoder's limit. -/
structure Decodes (R : HpackDecoder → HpackDecoder → Prop) : Prop where
  insert : ∀ d name value, R d { d with dynamicTable := d.dynamicTable.insert name value }
  resize : ∀ d n, n ≤ d.maxDynamicTableSize →
    R d { d with dynamicTable := d.dynamicTable.setMaxSize n }

section Decoding

variable {R : HpackDecoder → HpackDecoder → Prop} [IsPreorder HpackDecoder R]

lemma moves_lookupIndex (index : ℕ) : Moves R (lookupIndex index) := by
  refine (moves_throw _).ite (Moves.ite ?_ (moves_get.bind fun d => ?_))
  · split
    · exact moves_pure _
    · exact moves_throw _
  · split
    · exact moves_pure _
    · exact moves_throw _

lemma moves_decodeLiteral (buf : Bytes) (prefixBits : ℕ) :
    Moves R (decodeLiteral buf prefixBits) := by
  refine (moves_ofExcept _).bind fun idx => Moves.bind ?_ fun name => ?_
  · exact (moves_ofExcept _).ite ((moves_lookupIndex _).bind fun _ => moves_pure _)
  · exact (moves_ofExcept _).bind fun value => moves_pure _

/-- A size update beyond the decoder's limit fails. -/
lemma Decodes.sizeUpdate (h : Decodes R) (newMax bytesRead : ℕ) :
    Moves R (do
      let d ← get
      failIf (newMax > d.maxDynamicTableSize) .compressionError
      modify fun d => { d with dynamicTable := d.dynamicTable.setMaxSize newMax }
      return (none, bytesRead) : DecodeM (Option (Str × Str) × ℕ)) := by
  intro d
  simp only [wp_bind, wp_failIf]
  exact ⟨fun _ => refl_of R d, fun hm => h.resize d newMax (Nat.not_lt.mp hm)⟩

lemma Decodes.decodeField (h : Decodes R) (buf : Bytes) : Moves R (decodeField buf) := by
  refine Moves.ite ?_ (Moves.ite ?_ (Moves.ite ?_ ?_))
  · exact (moves_ofExcept _).bind fun idx => (moves_lookupIndex _).bind fun _ => moves_pure _
  · refine (moves_decodeLiteral _ _).bind fun field => Moves.bind ?_ fun _ => moves_pure _
    exact moves_modify fun d => h.insert d _ _
  · exact (moves_ofExcept _).bind fun newMax => h.sizeUpdate newMax.1 newMax.2
  · exact (moves_decodeLiteral _ _).bind fun field => moves_pure _

lemma Decodes.decodeFields (h : Decodes R) (fuel : ℕ) (buf : Bytes) :
    Moves R (decodeFields fuel buf) := by
  induction fuel generalizing buf with
  | zero => exact moves_pure _
  | succ fuel ih =>
    cases buf with
    | nil => exact moves_pure _
    | cons b buf => exact (h.decodeField _).bind fun field => (ih _).bind fun rest => moves_pure _

lemma Decodes.decodeHeaderBlock (h : Decodes R) (block : Bytes) :
    Moves R (decodeHeaderBlock block) :=
  moves_get.bind fun _ => (moves_failIf _ _).bind fun _ => h.decodeFields _ _

end Decoding

/-- The limits a decoder was made with. -/
def SameLimits (d d' : HpackDecoder) : Prop :=
  d'.maxDynamicTableSize = d.maxDynamicTableSize ∧ d'.maxHeaderBlockSize = d.maxHeaderBlockSize

instance : IsPreorder HpackDecoder SameLimits where
  refl _ := ⟨rfl, rfl⟩
  trans _ _ _ h h' := ⟨h'.1.trans h.1, h'.2.trans h.2⟩

/-- Decoding changes nothing but the table. -/
lemma decodeHeaderBlock_limits (block : Bytes) : Moves SameLimits (decodeHeaderBlock block) :=
  Decodes.decodeHeaderBlock ⟨fun _ _ _ => ⟨rfl, rfl⟩, fun _ _ _ => ⟨rfl, rfl⟩⟩ block

/-- The decoder after a block, whether or not the block was well formed. -/
def after (d : HpackDecoder) (block : Bytes) : HpackDecoder :=
  stateOf ((decodeHeaderBlock block).run d)

lemma after_eq_self_iff (d : HpackDecoder) (block : Bytes) :
    d.after block = d ↔ (d.after block).dynamicTable = d.dynamicTable := by
  constructor
  · intro h
    rw [h]
  · intro h
    have hl : SameLimits d (d.after block) := (decodeHeaderBlock_limits block).stateOf_run d
    cases hd : d.after block with
    | mk table maxTable maxBlock =>
      rw [hd] at h hl
      obtain ⟨h1, h2⟩ := hl
      simp only at h h1 h2
      rw [h, h1, h2]

def decodeAll (d : HpackDecoder) (blocks : List Bytes) : HpackDecoder := blocks.foldl after d

@[simp] lemma decodeAll_concat (d : HpackDecoder) (blocks : List Bytes) (block : Bytes) :
    d.decodeAll (blocks ++ [block]) = (d.decodeAll blocks).after block := by
  simp [decodeAll]

end HpackDecoder

/-! ## Header blocks -/

/-- The header blocks read so far, and the beginning of the next. -/
structure Collector where
  blocks : List Bytes
  pending : Bytes

/-- HEADERS begins a block and CONTINUATION carries it on; END_HEADERS completes it. -/
def Collector.next (k : Collector) (f : Frame) : Collector :=
  match f.payload with
  | .headers block _ eh =>
    if eh then ⟨k.blocks ++ [block], []⟩ else ⟨k.blocks, block⟩
  | .continuation block eh =>
    if eh then ⟨k.blocks ++ [k.pending ++ block], []⟩ else ⟨k.blocks, k.pending ++ block⟩
  | _ => k

/-- The frames among the calls. -/
def framesOf (calls : List (Env × Call)) : List Frame :=
  calls.filterMap fun
    | (_, .frame f) => some f.1
    | _ => none

def collect (calls : List (Env × Call)) : Collector :=
  (framesOf calls).foldl Collector.next ⟨[], []⟩

/-- The complete header blocks received, whatever became of their streams. -/
def headerBlocks (calls : List (Env × Call)) : List Bytes := (collect calls).blocks

/-- The connection's table is that of a decoder that has read every header block. -/
def Synchronised (config : ServerConfig) (secure : Bool) (calls : List (Env × Call)) : Prop :=
  (stateAfter config secure calls).conn.hpackDecoder.dynamicTable =
    ((Http2Connection.new config secure).hpackDecoder.decodeAll (headerBlocks calls)).dynamicTable

/-- If the frame carries a whole header block and its stream is refused, the block would not have
changed the table. -/
def Harmless (c : Http2Connection) (f : Frame) : Prop :=
  ∀ block es, f.payload = .headers block es true → c.canAcceptNewStream = false →
    (c.hpackDecoder.after block).dynamicTable = c.hpackDecoder.dynamicTable

lemma collect_frame (calls : List (Env × Call)) (env : Env) (f : ParsedFrame) :
    collect (calls ++ [(env, .frame f)]) = (collect calls).next f.1 := by
  simp [collect, framesOf]

lemma collect_pollHeaders (calls : List (Env × Call)) (env : Env) :
    collect (calls ++ [(env, .pollHeaders)]) = collect calls := by
  simp [collect, framesOf]

lemma collect_schedule (calls : List (Env × Call)) (env : Env) :
    collect (calls ++ [(env, .schedule)]) = collect calls := by
  simp [collect, framesOf]

/-! ## Steps -/

/-- The decoder has read the blocks collected, and the connection has the beginning of the block it
waits for. -/
structure Mirrors (c : Http2Connection) (start : HpackDecoder) (k : Collector) : Prop where
  decoder : c.hpackDecoder = start.decodeAll k.blocks
  pending : ∀ sid, c.pendingHeadersStreamId = some sid → k.pending = c.pendingHeaderBlock

section Steps

variable {c c' : Http2Connection} {start : HpackDecoder} {k : Collector} {f : Frame}

lemma Mirrors.same (h : Mirrors c start k) (hs : SameReceiver c c') : Mirrors c' start k where
  decoder := hs.decoder.trans h.decoder
  pending := by
    intro sid hsid
    rw [hs.pendingSid] at hsid
    rw [hs.pendingBlock, h.pending sid hsid]

lemma after_of_ok {d d' : HpackDecoder} {block : Bytes} {headers : Headers}
    (h : (HpackDecoder.decodeHeaderBlock block).run d = .ok headers d') : d.after block = d' := by
  rw [HpackDecoder.after, h, stateOf]

/-- HEADERS only comes while no block is being collected. -/
lemma Mirrors.headers {sid : ℕ} {block : Bytes} {eh : Bool} (h : Mirrors c start k)
    (hi : c.pendingHeadersStreamId = none) (ha : AfterHeaders c c' sid block eh)
    (hh : eh = true → c.canAcceptNewStream = false →
      (c.hpackDecoder.after block).dynamicTable = c.hpackDecoder.dynamicTable) :
    Mirrors c' start (if eh then ⟨k.blocks ++ [block], []⟩ else ⟨k.blocks, block⟩) := by
  unfold AfterHeaders at ha
  by_cases hc : c.canAcceptNewStream = true
  · rw [if_pos hc] at ha
    cases eh with
    | true =>
      obtain ⟨⟨headers, hde⟩, hsid, _⟩ := ha
      refine ⟨?_, fun sid hsid' => ?_⟩
      · simp only [if_true, HpackDecoder.decodeAll_concat]
        rw [← h.decoder, after_of_ok hde]
      · rw [hsid, hi] at hsid'
        cases hsid'
    | false =>
      obtain ⟨hd, _, hb⟩ := ha
      exact ⟨hd.trans h.decoder, fun _ _ => hb.symm⟩
  · rw [if_neg hc] at ha
    have hn : c'.pendingHeadersStreamId = none := ha.pendingSid.trans hi
    refine ⟨?_, fun sid hsid => by rw [hn] at hsid; cases hsid⟩
    cases eh with
    | true =>
      have hs := (c.hpackDecoder.after_eq_self_iff block).mpr
        (hh rfl (by simpa using hc))
      simp only [if_true, HpackDecoder.decodeAll_concat]
      rw [← h.decoder, hs, ha.decoder]
    | false => exact ha.decoder.trans h.decoder

lemma Mirrors.continuation {sid : ℕ} {block : Bytes} {eh : Bool} (h : Mirrors c start k)
    (hs : c.pendingHeadersStreamId = some sid) (ha : AfterContinuation c c' block eh) :
    Mirrors c' start
      (if eh then ⟨k.blocks ++ [k.pending ++ block], []⟩ else ⟨k.blocks, k.pending ++ block⟩) := by
  have hp := h.pending sid hs
  cases eh with
  | true =>
    obtain ⟨⟨headers, hde⟩, hn, _⟩ := ha
    refine ⟨?_, fun sid hs => by rw [hn] at hs; cases hs⟩
    simp only [if_true, HpackDecoder.decodeAll_concat]
    rw [← h.decoder, hp, after_of_ok hde]
  | false =>
    obtain ⟨hd, _, hb⟩ := ha
    exact ⟨hd.trans h.decoder, fun _ _ => by rw [hb]; simp [hp]⟩

/-- While no block is collected a frame off the wire is no CONTINUATION, and otherwise it is. -/
lemma Expected.payload (h : Expected c f) (hp : f.Parsed) :
    (∀ block es eh, f.payload = .headers block es eh → c.pendingHeadersStreamId = none) ∧
      ∀ block eh, f.payload = .continuation block eh →
        ∃ sid, c.pendingHeadersStreamId = some sid := by
  have hfi := hp.fits
  unfold Expected at h
  constructor
  · intro block es eh hf
    rw [hf] at hfi
    cases hs : c.pendingHeadersStreamId with
    | none => rfl
    | some sid =>
      rw [hs] at h
      rw [hfi.1] at h
      cases h.2
  · intro block eh hf
    rw [hf] at hfi
    cases hs : c.pendingHeadersStreamId with
    | some sid => exact ⟨sid, rfl⟩
    | none =>
      rw [hs] at h
      exact absurd hfi.1 h

/-- **A frame keeps the decoder a mirror, unless a block that matters is thrown away.** -/
lemma Mirrors.frame (h : Mirrors c start k) (hp : f.Parsed) (hex : Expected c f)
    (ha : AfterFrame c c' f) (hh : Harmless c f) : Mirrors c' start (k.next f) := by
  obtain ⟨hhe, hc⟩ := hex.payload hp
  unfold AfterFrame at ha
  unfold Collector.next
  cases hf : f.payload with
  | headers block es eh =>
    rw [hf] at ha
    refine h.headers (hhe block es eh hf) ha ?_
    rintro rfl hcap
    exact hh block es hf hcap
  | continuation block eh =>
    rw [hf] at ha
    obtain ⟨sid, hs⟩ := hc block eh hf
    exact h.continuation hs ha
  | _ =>
    rw [hf] at ha
    exact h.same ha

/-- Where the table is right before and after, a block thrown away did not matter. -/
lemma Mirrors.harmless (h : Mirrors c start k) (ha : AfterFrame c c' f)
    (ht : c'.hpackDecoder.dynamicTable =
      (start.decodeAll (k.next f).blocks).dynamicTable) : Harmless c f := by
  intro block es hf hc
  rw [AfterFrame, hf] at ha
  simp only [AfterHeaders, hc] at ha
  rw [Collector.next, hf] at ht
  simp only [if_true, HpackDecoder.decodeAll_concat] at ht
  rw [← h.decoder, ha.decoder] at ht
  exact ht.symm

end Steps

/-! ## Runs -/

section Runs

variable {config : ServerConfig} {secure : Bool} {calls : List (Env × Call)} {s : ConnState}

/-- If no block that matters is thrown away, the decoder mirrors all blocks. -/
lemma mirrors_of_run (hr : (runCalls calls).run (ConnState.start config secure) = .ok () s)
    (hh : ∀ before env f after, calls = before ++ (env, .frame f) :: after →
      Harmless (stateAfter config secure before).conn f.1) :
    Mirrors s.conn (Http2Connection.new config secure).hpackDecoder (collect calls) := by
  induction calls using List.reverseRecOn generalizing s with
  | nil =>
    cases hr
    exact ⟨rfl, fun sid hs => by cases hs⟩
  | append_singleton calls last ih =>
    obtain ⟨env, c⟩ := last
    obtain ⟨t, hb, hl⟩ := runCalls_append.mp hr
    have hm := ih hb fun before env' f after hc =>
      hh before env' f (after ++ [(env, c)]) (by simp [hc])
    have hd := callDone_of_ok (runCalls_single.mp hl)
    cases c with
    | frame f =>
      obtain ⟨_, hex, ha, _⟩ := hd
      rw [collect_frame]
      refine hm.frame f.2 hex ha ?_
      have hl := hh calls env f [] rfl
      rwa [stateAfter_of_run hb] at hl
    | pollHeaders =>
      rw [collect_pollHeaders]
      exact hm.same hd.receiver
    | schedule =>
      rw [collect_schedule]
      exact hm.same hd.receiver

/-- In a run that stays synchronised no block that matters is thrown away: by induction on the
calls, since up to a refusal the decoder mirrors all blocks. -/
lemma harmless_of_synchronised
    (hr : (runCalls calls).run (ConnState.start config secure) = .ok () s)
    (hs : ∀ cs, cs <+: calls → Synchronised config secure cs) :
    ∀ before env f after, calls = before ++ (env, .frame f) :: after →
      Harmless (stateAfter config secure before).conn f.1 := by
  induction calls using List.reverseRecOn generalizing s with
  | nil =>
    intro before env f after hc
    simp at hc
  | append_singleton calls last ih =>
    obtain ⟨env', c⟩ := last
    obtain ⟨t, hb, hl⟩ := runCalls_append.mp hr
    have hea := ih hb fun cs hcs => hs cs (hcs.trans (List.prefix_append _ _))
    intro before env f after hc
    rcases append_split hc with ⟨mid, hm, _⟩ | ⟨mid, rfl, hm⟩
    · exact hea before env f mid hm
    · cases mid with
      | cons x mid => simp at hm
      | nil =>
        obtain ⟨⟨rfl, rfl⟩, _⟩ := hm
        rw [List.append_nil, stateAfter_of_run hb]
        obtain ⟨_, _, ha, _⟩ := callDone_of_ok (runCalls_single.mp hl)
        refine (mirrors_of_run hb hea).harmless ha ?_
        have ht := hs _ List.prefix_rfl
        rwa [Synchronised, stateAfter_of_run hr, headerBlocks, collect_frame] at ht

/-- **A run stays synchronised exactly if no header block that matters is thrown away.** -/
theorem hpack_synchronised_iff
    (hrun : (runCalls calls).run (ConnState.start config secure) = .ok () s) :
    (∀ cs, cs <+: calls → Synchronised config secure cs) ↔
      ∀ before env f after, calls = before ++ (env, .frame f) :: after →
        Harmless (stateAfter config secure before).conn f.1 := by
  refine ⟨harmless_of_synchronised hrun, ?_⟩
  rintro hharmless cs ⟨later, rfl⟩
  obtain ⟨t, hcs, _⟩ := runCalls_append.mp hrun
  have hmirrors := mirrors_of_run hcs fun before env f after hsplit =>
    hharmless before env f (after ++ later) (by simp [hsplit])
  rw [Synchronised, stateAfter_of_run hcs, hmirrors.decoder, headerBlocks]

end Runs

/-- HEADERS on stream 5 whose one field, `a: b`, goes into the table. -/
def sampleIndexed : ParsedFrame :=
  ⟨{ header := { length := 5, frameType := .headers, flags := 5, streamId := 5 }
     payload := .headers [0x40, 0x01, 0x61, 0x01, 0x62] true true },
    [0, 0, 5, 1, 5, 0, 0, 0, 5], [0x40, 0x01, 0x61, 0x01, 0x62], rfl, rfl⟩

/-- The second stream is refused, but its block is all from the static table. -/
theorem hpack_synchronised_sample :
    isOk ((runCalls [(sampleOutside, .frame samplePost),
      (sampleOutside, .frame sampleSecond)]).run (ConnState.start sampleNarrow false)) = true ∧
    ∀ cs, cs <+: [(sampleOutside, .frame samplePost), (sampleOutside, .frame sampleSecond)] →
      Synchronised sampleNarrow false cs := by
  have hok : isOk ((runCalls [(sampleOutside, .frame samplePost),
      (sampleOutside, .frame sampleSecond)]).run (ConnState.start sampleNarrow false)) = true := by
    decide
  refine ⟨hok, (hpack_synchronised_iff (eq_ok_of_isOk hok)).mpr ?_⟩
  intro before env f after hcalls block es hf hcap
  rcases before with _ | ⟨first, _ | ⟨second, before⟩⟩
  · rw [List.nil_append, List.cons.injEq, Prod.mk.injEq, Call.frame.injEq] at hcalls
    obtain ⟨⟨_, rfl⟩, _⟩ := hcalls
    exact absurd hcap (by decide)
  · simp only [List.cons_append, List.nil_append, List.cons.injEq, Prod.mk.injEq,
      Call.frame.injEq] at hcalls
    obtain ⟨rfl, ⟨_, rfl⟩, _⟩ := hcalls
    cases hf
    decide
  · simp at hcalls

/-- A refused stream's block would have entered a field in the table; it is lost. -/
theorem refused_block_lost :
    isOk ((runCalls [(sampleOutside, .frame samplePost),
      (sampleOutside, .frame sampleIndexed)]).run (ConnState.start sampleNarrow false)) = true ∧
    ¬ Synchronised sampleNarrow false
      [(sampleOutside, .frame samplePost), (sampleOutside, .frame sampleIndexed)] := by
  refine ⟨by decide, ?_⟩
  unfold Synchronised
  decide

end Veysrs
