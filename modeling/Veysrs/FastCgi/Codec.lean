import Veysrs.FastCgi.BodyReader
import Veysrs.FastCgi.Request

/-!
# The FastCGI encodings read back

Name-value pairs are read back by the length rule of the protocol (`decodeLen`): one byte for a
length below 128, and four bytes with the top bit set otherwise.  The records of `send_records` are
read back by `FastCgiH2Reader::read_record`, however their bytes are cut into reads.

Both are stated with more bytes after what is read (`decodePair_appendParam`,
`readRecords_wireOf`), so that nothing but what was written, padding included, is consumed.
-/

namespace Veysrs

open Core List

namespace FastCgi

/-! ## Name-value pairs -/

/-- A length by the rule of the protocol, and the bytes after it. -/
def decodeLen : Bytes → Option (ℕ × Bytes)
  | b3 :: b2 :: b1 :: b0 :: rest =>
    if b3 < 128 then some (b3.toNat, b2 :: b1 :: b0 :: rest)
    else some ((b3.toNat - 128) * 2 ^ 24 + b2.toNat * 2 ^ 16 + b1.toNat * 2 ^ 8 + b0.toNat, rest)
  | b :: rest => if b < 128 then some (b.toNat, rest) else none
  | [] => none

/-- A name and a value, and the bytes after them. -/
def decodePair (bytes : Bytes) : Option ((Bytes × Bytes) × Bytes) := do
  let (nameLength, bytes) ← decodeLen bytes
  let (valueLength, bytes) ← decodeLen bytes
  if bytes.length < nameLength + valueLength then none
  else
    let rest := bytes.drop nameLength
    some ((bytes.take nameLength, rest.take valueLength), rest.drop valueLength)

/-- A pair takes a byte at least. -/
def decodePairsFuel : ℕ → Bytes → Option (List (Bytes × Bytes))
  | _, [] => some []
  | 0, _ :: _ => none
  | fuel + 1, b :: bytes => do
      let (pair, rest) ← decodePair (b :: bytes)
      return pair :: (← decodePairsFuel fuel rest)

def decodePairs (bytes : Bytes) : Option (List (Bytes × Bytes)) :=
  decodePairsFuel bytes.length bytes

/-- With a first byte below 128 the length is that byte. -/
lemma decodeLen_short {b : UInt8} (h : b < 128) (rest : Bytes) :
    decodeLen (b :: rest) = some (b.toNat, rest) := by
  rcases rest with _ | ⟨b2, _ | ⟨b1, _ | ⟨b0, rest⟩⟩⟩ <;> simp [decodeLen, h]

lemma decodeLen_encodeLen {len : ℕ} (h : len < 2 ^ 31) (rest : Bytes) :
    decodeLen (encodeLen len ++ rest) = some (len, rest) := by
  rw [encodeLen]
  split_ifs with hs
  · have hb : (UInt8.ofNat len).toNat = len := by
      rw [UInt8.toNat_ofNat']
      omega
    rw [singleton_append, decodeLen_short, hb]
    rw [UInt8.lt_iff_toNat_lt, hb]
    exact hs
  · -- the top bit is free
    have hbi : (len % 2 ^ 32) ||| 0x80000000 = 2 ^ 31 + len := by
      rw [Nat.mod_eq_of_lt (by omega), Nat.or_comm]
      exact (Nat.two_pow_add_eq_or_of_lt h 1).symm
    have ht : ¬UInt8.ofNat ((2 ^ 31 + len) / 2 ^ 24) < 128 := by
      show ¬(2 ^ 31 + len) / 2 ^ 24 % 2 ^ 8 < 128
      omega
    simp only [hbi, cons_append, nil_append, decodeLen, if_neg ht,
      UInt8.toNat_ofNat', Option.some.injEq, Prod.mk.injEq, and_true]
    omega

lemma decodePair_appendParam {name value : Bytes} (hn : name.length < 2 ^ 31)
    (hv : value.length < 2 ^ 31) (rest : Bytes) :
    decodePair (appendParam name value ++ rest) = some ((name, value), rest) := by
  have hl : ¬(name ++ (value ++ rest)).length < name.length + value.length := by
    simp only [length_append]
    omega
  simp only [decodePair, appendParam, append_assoc, decodeLen_encodeLen hn,
    decodeLen_encodeLen hv, Option.bind_eq_bind, Option.bind_some, if_neg hl, take_left,
    drop_left]

lemma length_appendParam_pos (name value : Bytes) : 0 < (appendParam name value).length := by
  have hp : 0 < (encodeLen name.length).length := by
    rw [encodeLen]
    split_ifs
    · exact Nat.one_pos
    · exact Nat.succ_pos 3
  simp only [appendParam, length_append]
  omega

lemma decodePairs_appendParam {params : List (Bytes × Bytes)}
    (h : ∀ param ∈ params, param.1.length < 2 ^ 31 ∧ param.2.length < 2 ^ 31) :
    decodePairs (params.flatMap fun param => appendParam param.1 param.2) = some params := by
  suffices hf : ∀ fuel, (params.flatMap fun param => appendParam param.1 param.2).length ≤ fuel →
      decodePairsFuel fuel (params.flatMap fun param => appendParam param.1 param.2) =
        some params from hf _ le_rfl
  induction params with
  | nil =>
    intro fuel _
    cases fuel <;> rfl
  | cons param params ih =>
    intro fuel hlen
    obtain ⟨hn, hv⟩ := h param mem_cons_self
    have hpa := decodePair_appendParam hn hv
      (params.flatMap fun param => appendParam param.1 param.2)
    have hpos := length_appendParam_pos param.1 param.2
    rw [flatMap_cons] at hlen ⊢
    rw [length_append] at hlen
    obtain ⟨fuel, rfl⟩ : ∃ m, fuel = m + 1 := ⟨fuel - 1, by omega⟩
    have hl := ih (fun p hp => h p (mem_cons_of_mem _ hp)) fuel (by omega)
    cases hb : appendParam param.1 param.2 with
    | nil =>
      rw [hb] at hpos
      exact absurd hpos (Nat.lt_irrefl 0)
    | cons b bytes =>
      rw [hb] at hpa
      simp only [cons_append] at hpa ⊢
      simp only [decodePairsFuel, hpa, hl, Option.bind_eq_bind, Option.bind_some,
        Option.pure_def]

/-! ## Records -/

/-- As many records as there are, and no more than `n`. -/
def readRecords : ℕ → H2ReaderM (List (UInt8 × Bytes))
  | 0 => return []
  | n + 1 => do
      match ← FastCgiH2Reader.readRecord with
      | none => return []
      | some item => return item :: (← readRecords n)

/-- Of the bytes of a record and whatever follows, the record is taken off. -/
lemma readRecord_encode {r : FastCgiH2Reader} {record : Core.FastCgi.Record} {rest : Bytes}
    (hd : r.upstream.Delivers) (h : r.rest = record.encode ++ rest) :
    ∃ t, FastCgiH2Reader.readRecord.run r = .ok (some record.item) t ∧ t.upstream.Delivers ∧
      t.rest = rest := by
  have hpa := Core.FastCgi.parse_encode record rest
  rw [← h] at hpa
  obtain ⟨item, t, hrun, hto⟩ := exists_ok_of_wp (wp_mono (FastCgiH2Reader.readRecord_front r)
    (fun _ _ ht => ht) fun _ _ ht => ht.2.2 hd _ _ _ hpa)
  have hp := hto.parsed
  rw [hpa] at hp
  rcases item with _ | ⟨kind, content⟩
  · cases hp
  · simp only [Core.FastCgi.Parsed.record.injEq] at hp
    obtain ⟨rfl, rfl, hr⟩ := hp
    exact ⟨t, hrun, fun choice hc => hd choice (hto.choices.subset hc),
      hr.symm⟩

lemma readRecords_wireOf {items : List (UInt8 × Bytes)}
    (hf : ∀ item ∈ items, item.2.length < 65536) : ∀ (r : FastCgiH2Reader) (rest : Bytes),
    r.upstream.Delivers → r.rest = wireOf items ++ rest →
      ∃ t, (readRecords items.length).run r = .ok items t ∧ t.rest = rest := by
  induction items with
  | nil => exact fun r rest _ h => ⟨r, rfl, h⟩
  | cons item items ih =>
    intro r rest hd h
    have hfi := hf item mem_cons_self
    rw [wireOf, flatMap_cons, recordBytes, dif_pos hfi, append_assoc] at h
    obtain ⟨t, hrun, ht, hr⟩ := readRecord_encode hd h
    obtain ⟨u, hl, hle⟩ := ih (fun i hi => hf i (mem_cons_of_mem _ hi)) t rest ht
      hr
    refine ⟨u, ?_, hle⟩
    rw [length_cons, readRecords, run_bind_of_ok hrun]
    show (readRecords items.length >>= fun later => pure (item :: later)).run t = _
    rw [run_bind_of_ok hl]
    rfl

/-- Pairs shorter than 2^31 bytes are read back, and so are the records of any data, however their
bytes are cut into reads and whatever bytes follow; those are left as they are. -/
theorem codec_round_trip {params : List (Bytes × Bytes)}
    (hparams : ∀ param ∈ params, param.1.length < 2 ^ 31 ∧ param.2.length < 2 ^ 31)
    (kind : UInt8) (data : Bytes) (s : Exchange) :
    decodePairs (params.flatMap fun param => appendParam param.1 param.2) = some params ∧
      ∃ wire, (sendRecords kind data).run s = .ok () { s with written := s.written ++ wire } ∧
        ∀ (r : FastCgiH2Reader) (rest : Bytes), r.upstream.Delivers → r.rest = wire ++ rest →
          ∃ n items t, (readRecords n).run r = .ok items t ∧ items.length = n ∧
            (∀ item ∈ items, item.1 = kind) ∧ (items.map Prod.snd).flatten = data ∧
            t.rest = rest := by
  refine ⟨decodePairs_appendParam hparams, _, run_sendRecords kind data s,
    fun r rest hdelivers hrest => ?_⟩
  obtain ⟨t, hrun, hleft⟩ := readRecords_wireOf
    (fun item hitem => Nat.lt_succ_of_le (chunk_fits (mem_ofKind hitem).2).2) r rest hdelivers hrest
  refine ⟨_, _, t, hrun, rfl, fun item hitem => (mem_ofKind hitem).1, ?_, hleft⟩
  have hcontents : (ofKind kind (chunks maxRecord data)).map Prod.snd = chunks maxRecord data := by
    rw [ofKind, map_map]
    exact map_id _
  rw [hcontents, flatten_chunks]

/-- One byte of a body as a record with its padding, read in two parts, and a byte after it. -/
def oneByte : FastCgiH2Reader where
  upstream := ⟨[1, 5, 0, 1, 0, 1, 7, 0, 42, 0, 0, 0, 0, 0, 0, 0, 99], [.upTo 9, .upTo 8], true⟩

theorem codec_round_trip_one_byte :
    decodePairs (appendParam [65] (List.replicate 128 66)) = some [([65], List.replicate 128 66)] ∧
      ∃ n items t, (readRecords n).run oneByte = .ok items t ∧ items.length = n ∧
        (∀ item ∈ items, item.1 = 5) ∧ (items.map Prod.snd).flatten = [42] ∧ t.rest = [99] := by
  obtain ⟨hpairs, wire, hrun, hread⟩ := @codec_round_trip [([65], List.replicate 128 66)]
    (by simp) 5 [42] (exchangeWith [])
  rw [flatMap_singleton] at hpairs
  have hsent : (stateOf ((sendRecords 5 [42]).run (exchangeWith []))).written =
      [1, 5, 0, 1, 0, 1, 7, 0, 42, 0, 0, 0, 0, 0, 0, 0] := by
    decide
  have hwire : wire = [1, 5, 0, 1, 0, 1, 7, 0, 42, 0, 0, 0, 0, 0, 0, 0] := by
    rw [hrun] at hsent
    exact hsent
  refine ⟨hpairs, hread oneByte [99] ?_ ?_⟩
  · simp [Source.Delivers, oneByte]
  · rw [hwire]
    rfl

end FastCgi

end Veysrs
