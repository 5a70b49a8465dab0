import Mathlib.Data.Nat.Bitwise
import Mathlib.Data.Nat.Digits.Defs
import Veysrs.Http2.Hpack

/-!
# Header lists on the wire and back

What `HpackEncoder::encode_headers` writes, `HpackDecoder::decode_header_block` reads back: the same
list in the same order, with every name in lower case, and the dynamic table is not touched.

The decoder is handed the encoder's bytes with anything behind them, so each part of the codec has
its lemma over an arbitrary suffix: integers (`decodeInt_encodeInt`), strings
(`decodeString_encodeString`), one field in each of its three encodings
(`decodeField_encodeHeader`).  The list is then an induction over the fields.
-/

namespace Veysrs

open Core List

/-! ## Integers -/

lemma toNat_ofNat_of_lt {n : ℕ} (h : n < 256) : (UInt8.ofNat n).toNat = n := by
  rw [UInt8.toNat_ofNat', Nat.mod_eq_of_lt h]

/-- The low seven bits and the continuation bit of a continuation byte. -/
lemma continuation_byte (rem : ℕ) :
    (UInt8.ofNat (rem &&& 0x7f) ||| 0x80).toNat &&& 0x7f = rem % 128 ∧
      (UInt8.ofNat (rem &&& 0x7f) ||| 0x80) &&& 0x80 ≠ 0 := by
  have hr : rem &&& 0x7f = rem % 128 := Nat.and_two_pow_sub_one_eq_mod rem 7
  have hlt : rem % 128 < 128 := Nat.mod_lt _ (by decide)
  have key : ∀ i : Fin 128, (UInt8.ofNat i.val ||| 0x80).toNat &&& 0x7f = i.val ∧
      (UInt8.ofNat i.val ||| 0x80) &&& 0x80 ≠ 0 := by
    decide
  rw [hr]
  exact key ⟨rem % 128, hlt⟩

lemma last_byte {rem : ℕ} (h : rem < 128) :
    (UInt8.ofNat rem).toNat &&& 0x7f = rem ∧ UInt8.ofNat rem &&& 0x80 = 0 := by
  have key : ∀ i : Fin 128, (UInt8.ofNat i.val).toNat &&& 0x7f = i.val ∧
      UInt8.ofNat i.val &&& 0x80 = 0 := by
    decide
  exact key ⟨rem, h⟩

/-- The continuation bytes, read with `val` decoded so far and `m` bits already shifted out. -/
lemma decodeIntTail_encodeIntTail (suffix : Bytes) (fuel : ℕ) : ∀ {rem val m pos : ℕ},
    rem < 2 ^ (7 * (fuel + 1)) → rem * 2 ^ m < 2 ^ 63 → m < 63 → val + rem * 2 ^ m < 2 ^ 64 →
    decodeIntTail (encodeIntTail fuel rem ++ suffix) val m pos =
      .ok (val + rem * 2 ^ m, pos + (encodeIntTail fuel rem).length) := by
  -- the byte that ends the integer, with or without fuel left
  have hl : ∀ {rem val m pos : ℕ}, rem < 128 → rem * 2 ^ m < 2 ^ 63 → m < 63 →
      val + rem * 2 ^ m < 2 ^ 64 →
      decodeIntTail (UInt8.ofNat rem :: suffix) val m pos = .ok (val + rem * 2 ^ m, pos + 1) := by
    intro rem val m pos hrem hs hm hv
    obtain ⟨hlow, hb⟩ := last_byte hrem
    rw [decodeIntTail, if_neg (Nat.not_le.mpr hm)]
    rw [hlow, Nat.shiftLeft_eq, Nat.mod_eq_of_lt (by omega), if_neg (Nat.not_le.mpr hv),
      if_pos hb]
  induction fuel with
  | zero =>
    intro rem val m pos hrem hs hm hv
    exact hl hrem hs hm hv
  | succ fuel ih =>
    intro rem val m pos hrem hs hm hv
    rw [encodeIntTail]
    by_cases hmo : rem ≥ 128
    · rw [if_pos hmo]
      obtain ⟨hlow, hb⟩ := continuation_byte rem
      have hsp : rem * 2 ^ m = rem % 128 * 2 ^ m + rem / 128 * 2 ^ (m + 7) := by
        rw [Nat.pow_add, Nat.mul_comm (2 ^ m), ← Nat.mul_assoc, ← Nat.add_mul]
        congr 1
        omega
      have hr : rem / 128 < 2 ^ (7 * (fuel + 1)) := by
        rw [Nat.div_lt_iff_lt_mul (by decide)]
        exact hrem.trans_eq (by rw [show 7 * (fuel + 1 + 1) = 7 * (fuel + 1) + 7 by omega,
          Nat.pow_add])
      -- a further byte is written only if it carries a bit, so its shift is in range
      have hm' : m + 7 < 63 := by
        have ho : 1 ≤ rem / 128 := Nat.div_pos hmo (by decide)
        have hp : 2 ^ (m + 7) < 2 ^ 63 := by
          calc 2 ^ (m + 7) = 1 * 2 ^ (m + 7) := (Nat.one_mul _).symm
            _ ≤ rem / 128 * 2 ^ (m + 7) := Nat.mul_le_mul_right _ ho
            _ < 2 ^ 63 := by omega
        exact (Nat.pow_lt_pow_iff_right (by decide)).mp hp
      rw [cons_append, decodeIntTail, if_neg (Nat.not_le.mpr hm)]
      rw [hlow, if_neg (by omega), if_neg hb, show rem >>> 7 = rem / 128 from
          Nat.shiftRight_eq_div_pow rem 7, ih hr (by omega) hm' (by omega), length_cons]
      congr 2
      · omega
      · omega
    · rw [if_neg hmo]
      exact hl (by omega) hs hm hv

/-- With nine bytes read and a bit left over the tenth byte is one too many. -/
lemma decodeIntTail_too_long (suffix : Bytes) (fuel : ℕ) : ∀ {rem val k pos : ℕ}, k ≤ 9 →
    9 - k ≤ fuel → 128 ^ (9 - k) ≤ rem →
    decodeIntTail (encodeIntTail fuel rem ++ suffix) val (7 * k) pos =
      .error .compressionError := by
  have ht : ∀ (b : UInt8) (rest : Bytes) (val pos : ℕ),
      decodeIntTail (b :: rest) val (7 * 9) pos = .error .compressionError := by
    intro b rest val pos
    rw [decodeIntTail, if_pos (by decide)]
  induction fuel with
  | zero =>
    intro rem val k pos hk hf hrem
    obtain rfl : k = 9 := by omega
    exact ht _ suffix val pos
  | succ fuel ih =>
    intro rem val k pos hk hf hrem
    by_cases hl : k = 9
    · subst hl
      rw [encodeIntTail]
      split_ifs
      · exact ht _ _ val pos
      · exact ht _ suffix val pos
    · have hp : 128 ^ (9 - k) = 128 ^ (9 - (k + 1)) * 128 := by
        rw [← Nat.pow_succ, show (9 - (k + 1)).succ = 9 - k by omega]
      have hm : 128 ≤ rem := (Nat.le_mul_of_pos_left 128 (Nat.pow_pos (by decide))).trans
        (hp ▸ hrem)
      have hr : 128 ^ (9 - (k + 1)) ≤ rem / 128 := by
        rw [Nat.le_div_iff_mul_le (by decide), ← hp]
        exact hrem
      obtain ⟨-, hb⟩ := continuation_byte rem
      rw [encodeIntTail, if_pos hm, cons_append, decodeIntTail, if_neg (by omega)]
      simp only
      split_ifs
      · rfl
      · rw [show rem >>> 7 = rem / 128 from Nat.shiftRight_eq_div_pow rem 7]
        exact ih (by omega) (by omega) hr

/-- The prefix bits hold the number itself. -/
lemma and_mask_or {mask : UInt8} {n k : ℕ} (hn : n ≤ 7) (hm : mask.toNat &&& (2 ^ n - 1) = 0)
    (hk : k < 2 ^ n) : (mask ||| UInt8.ofNat k).toNat &&& (2 ^ n - 1) = k := by
  have hp : 2 ^ n ≤ 2 ^ 7 := Nat.pow_le_pow_right (by decide) hn
  rw [UInt8.toNat_or, toNat_ofNat_of_lt (by omega), Nat.and_or_distrib_right, hm,
    Nat.zero_or, Nat.and_two_pow_sub_one_eq_mod, Nat.mod_eq_of_lt hk]

/-- An integer of the encoder, whatever stands in the bits above its `n` and behind it. -/
lemma decodeInt_encodeInt {mask : UInt8} {n v : ℕ} (hn : n ≤ 7)
    (hm : mask.toNat &&& (2 ^ n - 1) = 0) (hv : v < 2 ^ 63 + 2 ^ n - 1) (suffix : Bytes) :
    decodeInt (encodeInt mask n v ++ suffix) n = .ok (v, (encodeInt mask n v).length) := by
  have hpow : 2 ^ n ≤ 2 ^ 7 := Nat.pow_le_pow_right (by decide) hn
  have hp : 0 < 2 ^ n := Nat.two_pow_pos n
  rw [encodeInt]
  by_cases hs : v < 2 ^ n - 1
  · rw [if_pos hs, singleton_append, decodeInt, and_mask_or hn hm (by omega),
      if_pos hs]
    rfl
  · rw [if_neg hs, cons_append, decodeInt, and_mask_or hn hm (by omega),
      if_neg (Nat.lt_irrefl _),
      decodeIntTail_encodeIntTail suffix 10 (by omega) (by omega) (by decide) (by omega),
      length_cons]
    congr 2
    · omega
    · omega

/-- What the continuation bytes that were read stand for: nothing is lost by the shifts, which stay
below 63, or by the sums, which are checked. -/
lemma decodeIntTail_eq_ok {bytes : Bytes} : ∀ {val j pos v k : ℕ}, val < 2 ^ 64 →
    decodeIntTail bytes val (7 * j) pos = .ok (v, k) →
    ∃ used rest, bytes = used ++ rest ∧ k = pos + used.length ∧ v < 2 ^ 64 ∧
      v = val + 128 ^ j * Nat.ofDigits 128 (used.map fun b => b.toNat % 128) := by
  induction bytes with
  | nil =>
    intro val j pos v k _ h
    cases h
  | cons b bytes ih =>
    intro val j pos v k hval h
    have hm : ¬7 * j ≥ 63 := by
      intro hm
      rw [decodeIntTail, if_pos hm] at h
      cases h
    have hl : (b.toNat &&& 0x7f) <<< (7 * j) % 2 ^ 64 = 128 ^ j * (b.toNat % 128) := by
      have hlt : b.toNat % 128 < 2 ^ 7 := Nat.mod_lt _ (by decide)
      have hs : 2 ^ (7 * j) ≤ 2 ^ 56 := Nat.pow_le_pow_right (by decide) (by omega)
      rw [show b.toNat &&& 0x7f = b.toNat % 128 from Nat.and_two_pow_sub_one_eq_mod _ 7,
        Nat.shiftLeft_eq, Nat.mod_eq_of_lt, Nat.mul_comm, Nat.pow_mul]
      calc b.toNat % 128 * 2 ^ (7 * j) ≤ 2 ^ 7 * 2 ^ 56 := Nat.mul_le_mul hlt.le hs
        _ < 2 ^ 64 := by decide
    rw [decodeIntTail] at h
    simp only [hl] at h
    split_ifs at h with ho hb
    · cases h
      refine ⟨[b], bytes, rfl, rfl, Nat.not_le.mp ho, ?_⟩
      simp
    · obtain ⟨used, rest, rfl, rfl, hv, rfl⟩ := ih (j := j + 1) (Nat.not_le.mp ho) h
      refine ⟨b :: used, rest, rfl, ?_, hv, ?_⟩
      · rw [length_cons]
        omega
      · rw [map_cons, Nat.ofDigits_cons]
        ring

/-- **Integers are read back** as long as their continuation bytes carry less than 2 ^ 63, and are
refused otherwise; and whatever is read, of any bytes, is the number that the prefix and the
continuation bytes stand for. -/
theorem integers_exact {n : ℕ} (hn : 1 ≤ n ∧ n ≤ 7) :
    (∀ (mask : UInt8) (v : ℕ) (suffix : Bytes), mask.toNat &&& (2 ^ n - 1) = 0 → v < 2 ^ 64 →
      decodeInt (encodeInt mask n v ++ suffix) n =
        if v < 2 ^ 63 + 2 ^ n - 1 then .ok (v, (encodeInt mask n v).length)
        else .error .compressionError) ∧
    ∀ (buf : Bytes) (v k : ℕ), decodeInt buf n = .ok (v, k) →
      ∃ first continuation rest, buf = first :: (continuation ++ rest) ∧
        k = 1 + continuation.length ∧ v < 2 ^ 64 ∧
        v = first.toNat % 2 ^ n + Nat.ofDigits 128 (continuation.map fun b => b.toNat % 128) := by
  have hpow : 2 ^ n ≤ 2 ^ 7 := Nat.pow_le_pow_right (by decide) hn.2
  have hpos : 0 < 2 ^ n := Nat.two_pow_pos n
  constructor
  · intro mask v suffix hmask hv
    split_ifs with hfits
    · exact decodeInt_encodeInt hn.2 hmask hfits suffix
    · rw [encodeInt, if_neg (by omega), cons_append, decodeInt,
        and_mask_or hn.2 hmask (by omega), if_neg (Nat.lt_irrefl _)]
      exact decodeIntTail_too_long suffix 10 (k := 0) (by decide) (by decide) (by
        show 128 ^ 9 ≤ v - (2 ^ n - 1)
        omega)
  · intro buf v k h
    cases buf with
    | nil => cases h
    | cons first rest =>
      rw [decodeInt, Nat.and_two_pow_sub_one_eq_mod] at h
      have hfirst : first.toNat % 2 ^ n < 2 ^ 64 := by
        have := Nat.mod_lt first.toNat hpos
        omega
      split_ifs at h with hsmall
      · cases h
        exact ⟨first, [], rest, rfl, rfl, hfirst, rfl⟩
      · obtain ⟨used, left, rfl, rfl, hv, hvalue⟩ := decodeIntTail_eq_ok (j := 0) hfirst h
        refine ⟨first, used, left, rfl, rfl, hv, ?_⟩
        rwa [Nat.pow_zero, Nat.one_mul] at hvalue

/-- The largest integer that is read back with a prefix of five bits, and the next one. -/
theorem integers_exact_five_bits :
    (1 ≤ 5 ∧ 5 ≤ 7) ∧
      decodeInt (encodeInt 0x20 5 (2 ^ 63 + 30) ++ [7]) 5 = .ok (2 ^ 63 + 30, 10) ∧
      decodeInt (encodeInt 0x20 5 (2 ^ 63 + 31) ++ [7]) 5 = .error .compressionError := by
  obtain ⟨hread, -⟩ := integers_exact (n := 5) (by decide)
  exact ⟨by decide, hread 0x20 (2 ^ 63 + 30) [7] (by decide) (by decide),
    hread 0x20 (2 ^ 63 + 31) [7] (by decide) (by decide)⟩

lemma encodeInt_ne_nil (mask : UInt8) (n v : ℕ) : encodeInt mask n v ≠ [] := by
  rw [encodeInt]
  by_cases hs : v < 2 ^ n - 1
  · simp [if_pos hs]
  · simp [if_neg hs]

/-- The bits of the first byte above the prefix are those of the mask. -/
lemma has_encodeInt {mask bit : UInt8} {n v : ℕ} (hn : n ≤ 7) (hbit : bit.toNat % 2 ^ n = 0)
    (suffix : Bytes) : Flags.has ((encodeInt mask n v ++ suffix).headD 0) bit =
      Flags.has mask bit := by
  have hp : 2 ^ n ≤ 2 ^ 7 := Nat.pow_le_pow_right (by decide) hn
  have hc : ∀ {k : ℕ}, k < 2 ^ n → UInt8.ofNat k &&& bit = 0 := by
    intro k hk
    apply UInt8.toNat_inj.mp
    rw [UInt8.toNat_and, toNat_ofNat_of_lt (by omega)]
    apply Nat.eq_of_testBit_eq
    intro i
    by_cases hi : i < n
    · have hb : bit.toNat.testBit i = false := by
        have := congrArg (Nat.testBit · i) hbit
        simpa [hi] using this
      simp [hb]
    · have hk' : k.testBit i = false :=
        Nat.testBit_lt_two_pow (hk.trans_le (Nat.pow_le_pow_right (by decide) (by omega)))
      simp [hk']
  have hor : ∀ {k : ℕ}, k < 2 ^ n → Flags.has (mask ||| UInt8.ofNat k) bit =
      Flags.has mask bit := by
    intro k hk
    have ha : (mask ||| UInt8.ofNat k) &&& bit = mask &&& bit := by
      have hz := congrArg UInt8.toNat (hc hk)
      apply UInt8.toNat_inj.mp
      rw [UInt8.toNat_and] at hz ⊢
      rw [UInt8.toNat_or, Nat.and_or_distrib_right, hz]
      exact Nat.or_zero _
    rw [Flags.has, Flags.has, ha]
  rw [encodeInt]
  by_cases hs : v < 2 ^ n - 1
  · rw [if_pos hs]
    exact hor (by omega)
  · rw [if_neg hs]
    exact hor (by omega)

/-! ## Strings -/

lemma decodeString_encodeString {s : Str} (hl : (encodeString s).length < 2 ^ 63)
    (suffix : Bytes) :
    decodeString (encodeString s ++ suffix) = .ok (s, (encodeString s).length) := by
  have ht : (encodeInt 0 7 (utf8 s).length).length + (utf8 s).length =
      (encodeString s).length := by
    rw [encodeString, length_append]
  have hh : Flags.has ((encodeString s ++ suffix).headD 0) 0x80 = false := by
    rw [encodeString, append_assoc, has_encodeInt (by decide) (by decide)]
    rfl
  have hint : decodeInt (encodeString s ++ suffix) 7 =
      .ok ((utf8 s).length, (encodeInt 0 7 (utf8 s).length).length) := by
    rw [encodeString, append_assoc]
    exact decodeInt_encodeInt (by decide) (by decide) (by omega) _
  have hb : ((encodeString s ++ suffix).take (encodeString s).length).drop
      (encodeInt 0 7 (utf8 s).length).length = utf8 s := by
    rw [take_left, encodeString, drop_left]
  rw [decodeString, hh, hint]
  simp only [bind, Except.bind, ht]
  rw [if_neg (by omega), hb]
  simp [pure, Except.pure]

/-! ## The static table -/

/-- What the search found: a full match is at its index, and the first entry of the name at its. -/
lemma searchStatic_spec (name value : Str) : ∀ (table : Headers) (idx : ℕ),
    (∀ i, (searchStatic name value idx table).1 = some i →
      idx ≤ i ∧ table[i - idx]? = some (name, value)) ∧
    (∀ i, (searchStatic name value idx table).2 = some i →
      idx ≤ i ∧ ∃ v, table[i - idx]? = some (name, v)) := by
  intro table
  induction table with
  | nil =>
    intro idx
    exact ⟨nofun, nofun⟩
  | cons entry rest ih =>
    intro idx
    obtain ⟨sName, sVal⟩ := entry
    -- an index found in the rest is one further in the whole table
    have hl : ∀ {i : ℕ} {e : Str × Str}, idx + 1 ≤ i → rest[i - (idx + 1)]? = some e →
        idx ≤ i ∧ ((sName, sVal) :: rest)[i - idx]? = some e := by
      intro i e hi he
      refine ⟨by omega, ?_⟩
      rw [show i - idx = (i - (idx + 1)) + 1 by omega]
      exact he
    obtain ⟨ihFull, ihName⟩ := ih (idx + 1)
    rw [searchStatic]
    by_cases hn : sName = name
    · subst hn
      rw [if_pos rfl]
      have hh : ∀ i, some idx = some i →
          idx ≤ i ∧ ((sName, sVal) :: rest)[i - idx]? = some (sName, sVal) := by
        rintro i ⟨⟩
        exact ⟨le_rfl, by simp⟩
      by_cases hv : sVal = value
      · subst hv
        rw [if_pos rfl]
        exact ⟨hh, fun i hi => ⟨(hh i hi).1, sVal, (hh i hi).2⟩⟩
      · rw [if_neg hv]
        refine ⟨fun i hi => ?_, fun i hi => ⟨(hh i hi).1, sVal, (hh i hi).2⟩⟩
        obtain ⟨hle, he⟩ := ihFull i hi
        exact hl hle he
    · rw [if_neg hn]
      refine ⟨fun i hi => ?_, fun i hi => ?_⟩
      · obtain ⟨hle, he⟩ := ihFull i hi
        exact hl hle he
      · obtain ⟨hle, v, he⟩ := ihName i hi
        obtain ⟨hle', he'⟩ := hl hle he
        exact ⟨hle', v, he'⟩

/-- An index of the static table leads to its entry, whatever the dynamic table holds. -/
lemma lookupIndex_static {i : ℕ} {e : Str × Str} (hi : 1 ≤ i) (he : staticTable[i - 1]? = some e)
    (d : HpackDecoder) : (HpackDecoder.lookupIndex i).run d = .ok e d := by
  have hlt : i - 1 < staticTable.length := (List.getElem?_eq_some_iff.mp he).1
  rw [HpackDecoder.lookupIndex, if_neg (by omega), if_pos (by omega), he]
  rfl

/-! ## Fields -/

namespace HpackDecoder

/-- A name and the bytes it took, in front of a value. -/
lemma run_decodeLiteral {buf : Bytes} {idx idxLen : ℕ} (nameLen : ℕ) {name value : Str}
    (suffix : Bytes) {d : HpackDecoder} (hv : (encodeString value).length < 2 ^ 63)
    (hi : decodeInt buf 4 = .ok (idx, idxLen))
    (hn : (decodeName (buf.drop idxLen) idx).run d = .ok (name, nameLen) d)
    (hr : buf.drop (idxLen + nameLen) = encodeString value ++ suffix) :
    (decodeLiteral buf 4).run d =
      .ok ((name, value), idxLen + nameLen + (encodeString value).length) d := by
  rw [decodeLiteral, hi, run_bind_ofExcept_ok]
  rw [run_bind_of_ok hn]
  simp only
  rw [hr, decodeString_encodeString hv]
  rfl

/-- A literal without indexing is decoded by the last branch. -/
lemma run_decodeField_literal {v : ℕ} {suffix : Bytes} {field : Str × Str} {n : ℕ}
    {d : HpackDecoder}
    (h : (decodeLiteral (encodeInt 0 4 v ++ suffix) 4).run d = .ok (field, n) d) :
    (decodeField (encodeInt 0 4 v ++ suffix)).run d = .ok (some field, n) d := by
  rw [decodeField]
  simp only [has_encodeInt (show 4 ≤ 7 by decide) (show (0x80 : UInt8).toNat % 2 ^ 4 = 0 by decide),
    has_encodeInt (show 4 ≤ 7 by decide) (show (0x40 : UInt8).toNat % 2 ^ 4 = 0 by decide),
    has_encodeInt (show 4 ≤ 7 by decide) (show (0x20 : UInt8).toNat % 2 ^ 4 = 0 by decide)]
  rw [if_neg (by decide), if_neg (by decide), if_neg (by decide), run_bind_of_ok h]
  rfl

/-- One header of the encoder, with anything behind it: the three encodings. -/
lemma decodeField_encodeHeader {name value : Str}
    (hl : (encodeHeader name value).length < 2 ^ 63) (suffix : Bytes) (d : HpackDecoder) :
    (decodeField (encodeHeader name value ++ suffix)).run d =
      .ok (some (toLowercase name, value), (encodeHeader name value).length) d := by
  obtain ⟨hfu, hf⟩ := searchStatic_spec (toLowercase name) value staticTable 1
  have hsi : staticTable.length = 61 := by decide
  rw [encodeHeader] at hl ⊢
  cases hs : searchStatic (toLowercase name) value 1 staticTable with
  | mk full first =>
    rw [hs] at hfu hf hl
    cases full with
    | some i =>
      obtain ⟨hi, he⟩ := hfu i rfl
      have hlt : i - 1 < staticTable.length := (List.getElem?_eq_some_iff.mp he).1
      rw [decodeField]
      simp only [has_encodeInt (show 7 ≤ 7 by decide)
        (show (0x80 : UInt8).toNat % 2 ^ 7 = 0 by decide)]
      rw [if_pos (by decide), decodeInt_encodeInt (by decide) (by decide) (by omega),
        run_bind_ofExcept_ok]
      rw [run_bind_of_ok (lookupIndex_static hi he d)]
      rfl
    | none =>
      cases first with
      | some i =>
        obtain ⟨hi, v, he⟩ := hf i rfl
        have hlt : i - 1 < staticTable.length := (List.getElem?_eq_some_iff.mp he).1
        simp only [append_assoc, length_append] at hl ⊢
        apply run_decodeField_literal
        refine run_decodeLiteral 0 suffix (by omega)
          (decodeInt_encodeInt (by decide) (by decide) (by omega) _) ?_ ?_
        · rw [decodeName, if_neg (by omega), run_bind_of_ok (lookupIndex_static hi he d)]
          rfl
        · rw [Nat.add_zero, drop_left]
      | none =>
        simp only [append_assoc, length_append] at hl ⊢
        apply run_decodeField_literal
        rw [← Nat.add_assoc]
        refine run_decodeLiteral (encodeString (toLowercase name)).length suffix (by omega)
          (decodeInt_encodeInt (by decide) (by decide) (by decide) _) ?_ ?_
        · rw [decodeName, drop_left, decodeString_encodeString (by omega)]
          rfl
        · rw [← append_assoc, ← length_append, drop_left]

lemma encodeHeader_ne_nil (name value : Str) : encodeHeader name value ≠ [] := by
  rw [encodeHeader]
  cases searchStatic (toLowercase name) value 1 staticTable with
  | mk full first => cases full <;> cases first <;> simp [encodeInt_ne_nil]

/-- The loop over the fields; every one of them takes a byte, so the fuel lasts. -/
lemma decodeFields_encodeHeaders (d : HpackDecoder) (headers : Headers) : ∀ {fuel : ℕ},
    (encodeHeaders headers).length < 2 ^ 63 → (encodeHeaders headers).length ≤ fuel →
    (decodeFields fuel (encodeHeaders headers)).run d =
      .ok (headers.map fun h => (toLowercase h.1, h.2)) d := by
  induction headers with
  | nil =>
    intro fuel _ _
    cases fuel with
    | zero => rfl
    | succ fuel => rfl
  | cons header headers ih =>
    intro fuel hl hf
    obtain ⟨name, value⟩ := header
    have hc : encodeHeaders ((name, value) :: headers) =
        encodeHeader name value ++ encodeHeaders headers := rfl
    have hp : 0 < (encodeHeader name value).length :=
      length_pos_iff.mpr (encodeHeader_ne_nil name value)
    rw [hc, length_append] at hl hf
    rw [hc]
    cases fuel with
    | zero => omega
    | succ fuel =>
      rw [decodeFields.eq_3 _ _ (by simp [encodeHeader_ne_nil]),
        run_bind_of_ok (decodeField_encodeHeader (by omega) _ d)]
      simp only
      rw [drop_left, run_bind_of_ok (ih (by omega) (by omega))]
      rfl

end HpackDecoder

/-- What the encoder writes, the decoder reads: the list with its names in lower case, and the
decoder is left as it was.  The block is a `Vec<u8>`, which holds less than `2 ^ 63` bytes. -/
theorem header_list_round_trip (headers : Headers) (d : HpackDecoder)
    (hvec : (encodeHeaders headers).length < 2 ^ 63)
    (hsize : (encodeHeaders headers).length ≤ d.maxHeaderBlockSize) :
    (HpackDecoder.decodeHeaderBlock (encodeHeaders headers)).run d =
      .ok (headers.map fun h => (toLowercase h.1, h.2)) d := by
  rw [HpackDecoder.decodeHeaderBlock, run_bind_get, failIf, if_neg (Nat.not_lt.mpr hsize)]
  exact HpackDecoder.decodeFields_encodeHeaders d headers hvec le_rfl

/-- A header of each encoding: in the table, its name in the table, and neither. -/
def mixedHeaders : Headers :=
  [(":Status".toList, "200".toList), ("Location".toList, "/elsewhere".toList),
   ("X-Trace".toList, "42".toList)]

theorem header_list_round_trip_mixed :
    (HpackDecoder.decodeHeaderBlock (encodeHeaders mixedHeaders)).run (HpackDecoder.new 4096 64) =
      .ok (mixedHeaders.map fun h => (toLowercase h.1, h.2)) (HpackDecoder.new 4096 64) :=
  header_list_round_trip mixedHeaders (HpackDecoder.new 4096 64) (by decide)
    (by decide)

end Veysrs
