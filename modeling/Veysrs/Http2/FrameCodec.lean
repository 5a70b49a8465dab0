import Mathlib.Data.Nat.Bitwise
import Veysrs.Http2.Frame

/-!
# Frames on the wire and back

`Frame::encode` followed by `FrameHeader::parse` and `Frame::parse` gives the frame back, if the
frame is one the wire can carry (`Frame.WellFormed`): its header and payload say the same, its
numbers fit their fields, and it has no padding, which the encoder does not write.  A frame that was
parsed is of this kind unless it was padded or carried a priority.

The integers come first; then a lemma for each direction goes through the payloads
(`parsePayload_body`, `parsePayload_encodable`), and the header is put in front of them.
-/

namespace Veysrs

open Core List

/-! ## Integers -/

lemma or_eq_add {x y i : ℕ} (h : y < 2 ^ i) : x <<< i ||| y = x * 2 ^ i + y := by
  rw [← Nat.shiftLeft_add_eq_or_of_lt h, Nat.shiftLeft_eq]

lemma be32_eq (a b c d : UInt8) :
    be32 a b c d = ((a.toNat * 256 + b.toNat) * 256 + c.toNat) * 256 + d.toNat := by
  have hb := b.toNat_lt
  have hc := c.toNat_lt
  have hd := d.toNat_lt
  have h1 : a.toNat <<< 24 ||| b.toNat <<< 16 = (a.toNat * 256 + b.toNat) <<< 16 := by
    rw [or_eq_add (by rw [Nat.shiftLeft_eq]; omega)]
    omega
  have h2 : (a.toNat * 256 + b.toNat) <<< 16 ||| c.toNat <<< 8 =
      ((a.toNat * 256 + b.toNat) * 256 + c.toNat) <<< 8 := by
    rw [or_eq_add (by rw [Nat.shiftLeft_eq]; omega)]
    omega
  rw [be32, h1, h2]
  exact or_eq_add hd

lemma toNat_ofNat (n : ℕ) : (UInt8.ofNat n).toNat = n % 256 := UInt8.toNat_ofNat'

lemma be32_toBe32 {n : ℕ} (h : n < 2 ^ 32) :
    be32 (UInt8.ofNat (n >>> 24)) (UInt8.ofNat (n >>> 16)) (UInt8.ofNat (n >>> 8))
      (UInt8.ofNat n) = n := by
  rw [be32_eq]
  simp only [toNat_ofNat]
  omega

lemma mask31_eq (n : ℕ) : mask31 n = n % 2 ^ 31 := Nat.and_two_pow_sub_one_eq_mod n 31

lemma mask31_of_lt {n : ℕ} (h : n < 2 ^ 31) : mask31 n = n := by
  rw [mask31_eq, Nat.mod_eq_of_lt h]

lemma mask31_lt (n : ℕ) : mask31 n < 2 ^ 31 := by
  rw [mask31_eq]
  exact Nat.mod_lt _ (by decide)

lemma be32_lt (a b c d : UInt8) : be32 a b c d < 2 ^ 32 := by
  have ha := a.toNat_lt
  have hb := b.toNat_lt
  have hc := c.toNat_lt
  have hd := d.toNat_lt
  rw [be32_eq]
  omega

/-- The top bit of a 32-bit number. -/
lemma top_bit {n : ℕ} (h : n < 2 ^ 31) :
    n ||| 0x80000000 = n + 2 ^ 31 ∧ (n + 2 ^ 31) &&& 0x80000000 ≠ 0 ∧ n &&& 0x80000000 = 0 := by
  have hor : 2 ^ 31 ||| n = 2 ^ 31 + n := by
    have := Nat.two_pow_add_eq_or_of_lt h 1
    simpa using this.symm
  refine ⟨by rw [Nat.lor_comm]; exact hor.trans (Nat.add_comm _ _), ?_, ?_⟩
  · rw [show (0x80000000 : ℕ) = 2 ^ 31 from rfl, Nat.and_two_pow, Nat.add_comm,
      Nat.testBit_two_pow_add_eq, Nat.testBit_lt_two_pow h]
    decide
  · rw [show (0x80000000 : ℕ) = 2 ^ 31 from rfl, Nat.and_two_pow, Nat.testBit_lt_two_pow h]
    rfl

/-! ## Frames the wire can carry -/

namespace Frame

/-- Header and payload say the same, the numbers fit their fields, and there is neither padding nor
a priority among the headers. -/
def Encodable (h : FrameHeader) : FramePayload → Prop
  | .data _ endStream =>
    h.frameType = .data ∧ h.streamId ≠ 0 ∧ Flags.has h.flags Flags.padded = false ∧
      endStream = Flags.has h.flags Flags.endStream
  | .headers _ endStream endHeaders =>
    h.frameType = .headers ∧ h.streamId ≠ 0 ∧ Flags.has h.flags Flags.padded = false ∧
      Flags.has h.flags Flags.priority = false ∧
      endStream = Flags.has h.flags Flags.endStream ∧
      endHeaders = Flags.has h.flags Flags.endHeaders
  | .priority streamDependency _ _ =>
    h.frameType = .priority ∧ h.streamId ≠ 0 ∧ streamDependency < 2 ^ 31
  | .rstStream _ => h.frameType = .rstStream ∧ h.streamId ≠ 0
  | .settings settings ack =>
    h.frameType = .settings ∧ h.streamId = 0 ∧ ack = Flags.has h.flags Flags.ack ∧
      (ack = true → settings = []) ∧
      ∀ s ∈ settings, s.1.toU16 < 2 ^ 16 ∧ SettingId.ofU16 s.1.toU16 = s.1 ∧ s.2 < 2 ^ 32
  | .pushPromise _ _ => False
  | .ping _ ack => h.frameType = .ping ∧ h.streamId = 0 ∧ ack = Flags.has h.flags Flags.ack
  | .goAway lastStreamId _ _ => h.frameType = .goAway ∧ h.streamId = 0 ∧ lastStreamId < 2 ^ 31
  | .windowUpdate increment => h.frameType = .windowUpdate ∧ 0 < increment ∧ increment < 2 ^ 31
  | .continuation _ endHeaders =>
    h.frameType = .continuation ∧ h.streamId ≠ 0 ∧
      endHeaders = Flags.has h.flags Flags.endHeaders
  | .unknown _ => ∃ code, h.frameType = .unknown code ∧ FrameType.ofU8 code = .unknown code

structure WellFormed (f : Frame) : Prop where
  streamId : f.header.streamId < 2 ^ 31
  payload : Encodable f.header f.payload
  short : (body f.payload).length < 2 ^ 24

/-- Neither PADDED nor, for HEADERS, PRIORITY. -/
def Unpadded (h : FrameHeader) : Prop :=
  (h.frameType = .data ∨ h.frameType = .headers → Flags.has h.flags Flags.padded = false) ∧
    (h.frameType = .headers → Flags.has h.flags Flags.priority = false)

/-- The frame with the length that is written. -/
def measured (f : Frame) : Frame :=
  { f with header := { f.header with length := (body f.payload).length } }

/-- Read a frame off the wire: the header first, then as much as follows. -/
def reparse (wire : Bytes) : Except Http2ErrorCode Frame := do
  let header ← FrameHeader.parse (wire.take frameHeaderSize)
  parse header (wire.drop frameHeaderSize)

/-! ## Encoding, then parsing -/

lemma fromU32_toU32 (code : Http2ErrorCode) : Http2ErrorCode.fromU32 code.toU32 = code := by
  cases code <;> rfl

lemma toU32_lt (code : Http2ErrorCode) : code.toU32 < 2 ^ 32 := by
  cases code <;> decide

variable {h : FrameHeader} {p : FramePayload}

lemma Encodable.ofU8_toU8 (hp : Encodable h p) : FrameType.ofU8 h.frameType.toU8 = h.frameType := by
  cases p with
  | pushPromise => exact hp.elim
  | unknown =>
    obtain ⟨code, ht, hc⟩ := hp
    rw [ht]
    exact hc
  | data | headers | priority | rstStream | settings | ping | goAway | windowUpdate |
    continuation =>
      rw [hp.1]
      rfl

lemma parse_encode_header (hl : h.length < 2 ^ 24) (hs : h.streamId < 2 ^ 31)
    (ht : FrameType.ofU8 h.frameType.toU8 = h.frameType) :
    FrameHeader.parse h.encode = .ok h := by
  have hlen : (UInt8.ofNat (h.length >>> 16)).toNat <<< 16 |||
      (UInt8.ofNat (h.length >>> 8)).toNat <<< 8 ||| (UInt8.ofNat h.length).toNat = h.length := by
    have hbe := be32_eq 0 (UInt8.ofNat (h.length >>> 16)) (UInt8.ofNat (h.length >>> 8))
      (UInt8.ofNat h.length)
    rw [be32] at hbe
    simp only [UInt8.toNat_zero, Nat.zero_shiftLeft, Nat.zero_or] at hbe
    rw [hbe]
    simp only [toNat_ofNat]
    omega
  rw [FrameHeader.encode, toBe32, mask31_of_lt hs]
  simp only [cons_append, nil_append, FrameHeader.parse]
  rw [hlen, ht, be32_toBe32 (by omega), mask31_of_lt hs]

lemma length_encode_header (h : FrameHeader) : h.encode.length = frameHeaderSize := rfl

lemma parseSettings_flatMap {settings : List (SettingId × ℕ)}
    (h : ∀ s ∈ settings, s.1.toU16 < 2 ^ 16 ∧ SettingId.ofU16 s.1.toU16 = s.1 ∧ s.2 < 2 ^ 32) :
    parseSettings (settings.flatMap fun s => toBe16 s.1.toU16 ++ toBe32 s.2) = settings := by
  induction settings with
  | nil => rfl
  | cons s settings ih =>
    obtain ⟨⟨hid, hc, hv⟩, hr⟩ := forall_mem_cons.mp h
    have hbe : (UInt8.ofNat (s.1.toU16 >>> 8)).toNat <<< 8 ||| (UInt8.ofNat s.1.toU16).toNat =
        s.1.toU16 := by
      rw [or_eq_add (UInt8.toNat_lt _)]
      simp only [toNat_ofNat]
      omega
    rw [flatMap_cons, toBe16, toBe32]
    simp only [cons_append, nil_append, parseSettings]
    rw [hbe, hc, be32_toBe32 hv, ih hr]

lemma length_settings (settings : List (SettingId × ℕ)) :
    (settings.flatMap fun s => toBe16 s.1.toU16 ++ toBe32 s.2).length = 6 * settings.length := by
  induction settings with
  | nil => rfl
  | cons s settings ih =>
    rw [flatMap_cons, length_append, length_cons]
    show 6 + _ = _
    omega

/-- What the encoder writes for a payload, the parser reads as that payload. -/
lemma parsePayload_body (hp : Encodable h p) : parsePayload h (body p) = .ok p := by
  cases p with
  | data bytes endStream =>
    obtain ⟨ht, hs, hpad, rfl⟩ := hp
    simp [parsePayload, ht, parseData, hs, hpad, body]
  | headers block endStream endHeaders =>
    obtain ⟨ht, hs, hpad, hpr, rfl, rfl⟩ := hp
    simp [parsePayload, ht, parseHeaders, hs, hpad, hpr, body]
  | priority dependency weight exclusive =>
    obtain ⟨ht, hs, hd⟩ := hp
    obtain ⟨hor, hset, hc⟩ := top_bit hd
    rw [parsePayload, ht]
    simp only [parsePriority, if_neg hs, body, toBe32, cons_append, nil_append]
    cases exclusive with
    | true =>
      have hm : (dependency + 2 ^ 31) % 2 ^ 31 = dependency := by omega
      rw [if_pos rfl, hor, be32_toBe32 (by omega), mask31_eq, hm, bne_iff_ne.mpr hset]
    | false =>
      rw [if_neg Bool.false_ne_true, mask31_of_lt hd, be32_toBe32 (by omega),
        mask31_of_lt hd]
      rw [hc]
      rfl
  | rstStream code =>
    obtain ⟨ht, hs⟩ := hp
    rw [parsePayload, ht]
    simp only [parseRstStream, if_neg hs, body, toBe32]
    rw [be32_toBe32 (toU32_lt code), fromU32_toU32]
  | settings settings ack =>
    obtain ⟨ht, hs, rfl, ha, hv⟩ := hp
    rw [parsePayload, ht]
    simp only [parseSettingsFrame, hs, ne_eq, not_true_eq_false, if_false, body,
      parseSettings_flatMap hv, length_settings]
    rw [if_neg, if_neg (by omega)]
    intro hb
    rw [Bool.and_eq_true] at hb
    rw [ha hb.1] at hb
    simp at hb
  | pushPromise => exact hp.elim
  | ping opaqueData ack =>
    obtain ⟨ht, hs, rfl⟩ := hp
    have hlen : opaqueData.toList.length = 8 := Vector.length_toList
    rw [parsePayload, ht, body]
    rw [parsePing, if_neg (not_not_intro hs), dif_pos hlen]
    rfl
  | goAway last code debug =>
    obtain ⟨ht, hs, hl⟩ := hp
    rw [parsePayload, ht]
    simp only [parseGoAway, hs, ne_eq, not_true_eq_false, if_false, body, toBe32,
      cons_append, nil_append]
    rw [mask31_of_lt hl, be32_toBe32 (by omega), mask31_of_lt hl,
      be32_toBe32 (toU32_lt code), fromU32_toU32]
  | windowUpdate increment =>
    obtain ⟨ht, hpos, hlt⟩ := hp
    rw [parsePayload, ht]
    simp only [parseWindowUpdate, body, toBe32]
    rw [mask31_of_lt hlt, be32_toBe32 (by omega), mask31_of_lt hlt, if_neg hpos.ne']
  | continuation block endHeaders =>
    obtain ⟨ht, hs, rfl⟩ := hp
    simp [parsePayload, ht, parseContinuation, hs, body]
  | unknown payload =>
    obtain ⟨code, ht, -⟩ := hp
    simp [parsePayload, ht, body]

/-- A frame the wire can carry comes back, with the length of its body. -/
lemma reparse_encode {f : Frame} (hf : f.WellFormed) : reparse f.encode = .ok f.measured := by
  have hh : FrameHeader.parse f.measured.header.encode = .ok f.measured.header :=
    parse_encode_header hf.short hf.streamId hf.payload.ofU8_toU8
  have hp : parsePayload f.measured.header (body f.payload) = .ok f.payload :=
    parsePayload_body (h := f.measured.header) (by
      have := hf.payload
      revert this
      cases f.payload <;> exact id)
  have hw : f.encode = f.measured.header.encode ++ body f.payload := rfl
  rw [reparse, hw, take_left' (length_encode_header _), hh]
  show parse f.measured.header (body f.payload) = _
  have hl : (body f.payload).length = f.measured.header.length := rfl
  rw [parse, if_neg (not_not_intro hl), hp]
  rfl

/-! ## Parsing, then encoding -/

lemma parseSettings_canonical (bytes : Bytes) :
    ∀ s ∈ parseSettings bytes,
      s.1.toU16 < 2 ^ 16 ∧ SettingId.ofU16 s.1.toU16 = s.1 ∧ s.2 < 2 ^ 32 := by
  have hid : ∀ n, (SettingId.ofU16 n).toU16 = n := by
    intro n
    unfold SettingId.ofU16
    split <;> rfl
  fun_induction parseSettings bytes with
  | case1 i0 i1 v0 v1 v2 v3 rest ih =>
    refine forall_mem_cons.mpr ⟨⟨?_, ?_, be32_lt _ _ _ _⟩, ih⟩
    · have h0 := i0.toNat_lt
      have h1 := i1.toNat_lt
      rw [hid, or_eq_add h1]
      omega
    · rw [hid]
  | case2 => simp

lemma length_parseSettings {bytes : Bytes} (h : bytes.length % 6 = 0) :
    6 * (parseSettings bytes).length = bytes.length := by
  fun_induction parseSettings bytes with
  | case1 i0 i1 v0 v1 v2 v3 rest ih =>
    simp only [length_cons] at h ⊢
    rw [Nat.mul_add, ih (by omega)]
  | case2 bytes hs =>
    -- fewer than six bytes, so none
    rcases bytes with _ | ⟨b0, _ | ⟨b1, _ | ⟨b2, _ | ⟨b3, _ | ⟨b4, _ | ⟨b5, rest⟩⟩⟩⟩⟩⟩
    · rfl
    all_goals
      first
      | exact (hs _ _ _ _ _ _ _ rfl).elim
      | simp at h

/-- What the parser makes of a payload without padding, the wire can carry, in as many bytes. -/
lemma parsePayload_encodable {bytes : Bytes} (hu : Unpadded h)
    (ht : FrameType.ofU8 h.frameType.toU8 = h.frameType) (hp : parsePayload h bytes = .ok p) :
    Encodable h p ∧ (body p).length = bytes.length := by
  unfold parsePayload at hp
  split at hp
  case h_1 hty =>
    have hpad := hu.1 (.inl hty)
    simp only [parseData, hpad, Bool.false_eq_true, if_false] at hp
    split_ifs at hp with hs
    cases hp
    exact ⟨⟨hty, hs, hpad, rfl⟩, rfl⟩
  case h_2 hty =>
    have hpad := hu.1 (.inr hty)
    have hpr := hu.2 hty
    simp only [parseHeaders, hpad, hpr, Bool.false_eq_true, if_false] at hp
    split_ifs at hp with hs
    cases hp
    exact ⟨⟨hty, hs, hpad, hpr, rfl, rfl⟩, by simp [body]⟩
  case h_3 hty =>
    unfold parsePriority at hp
    split_ifs at hp with hs
    split at hp <;> cases hp
    exact ⟨⟨hty, hs, mask31_lt _⟩, rfl⟩
  case h_4 hty =>
    unfold parseRstStream at hp
    split_ifs at hp with hs
    split at hp <;> cases hp
    exact ⟨⟨hty, hs⟩, rfl⟩
  case h_5 hty =>
    unfold parseSettingsFrame at hp
    split_ifs at hp with hs ha hl
    cases hp
    refine ⟨⟨hty, not_not.mp hs, rfl, fun hset => ?_, parseSettings_canonical bytes⟩, ?_⟩
    · rw [hset, Bool.true_and, Bool.not_eq_true', Bool.not_eq_false, List.isEmpty_iff] at ha
      rw [ha]
      rfl
    · rw [body, length_settings, length_parseSettings (not_not.mp hl)]
  case h_6 => cases hp
  case h_7 hty =>
    unfold parsePing at hp
    split_ifs at hp with hs hl
    cases hp
    exact ⟨⟨hty, not_not.mp hs, rfl⟩, rfl⟩
  case h_8 hty =>
    unfold parseGoAway at hp
    split_ifs at hp with hs
    split at hp <;> cases hp
    exact ⟨⟨hty, not_not.mp hs, mask31_lt _⟩, rfl⟩
  case h_9 hty =>
    unfold parseWindowUpdate at hp
    split at hp
    · simp only at hp
      split_ifs at hp with hz
      cases hp
      exact ⟨⟨hty, Nat.pos_of_ne_zero hz, mask31_lt _⟩, rfl⟩
    · cases hp
  case h_10 hty =>
    unfold parseContinuation at hp
    split_ifs at hp with hs
    cases hp
    exact ⟨⟨hty, hs, rfl⟩, rfl⟩
  case h_11 code hty =>
    cases hp
    rw [hty] at ht
    exact ⟨⟨code, hty, ht⟩, rfl⟩

lemma toU8_ofU8 (code : UInt8) : (FrameType.ofU8 code).toU8 = code := by
  unfold FrameType.ofU8
  split <;> rfl

lemma parse_header_spec {head : Bytes} (hp : FrameHeader.parse head = .ok h) :
    h.streamId < 2 ^ 31 ∧ FrameType.ofU8 h.frameType.toU8 = h.frameType := by
  unfold FrameHeader.parse at hp
  split at hp
  · obtain rfl := Except.ok.inj hp
    refine ⟨mask31_lt _, ?_⟩
    simp only [toU8_ofU8]
  · cases hp

/-- A parsed frame without padding is one the wire can carry, and has the length of its body. -/
lemma Parsed.wellFormed {f : Frame} (hf : f.Parsed) (hu : Unpadded f.header) :
    f.WellFormed ∧ f.measured = f := by
  have hlt := hf.length_lt
  obtain ⟨head, bytes, hh, hpa⟩ := hf
  obtain ⟨hs, ht⟩ := parse_header_spec hh
  unfold parse at hpa
  split_ifs at hpa with hlen
  cases hpay : parsePayload f.header bytes with
  | error e =>
    rw [hpay] at hpa
    cases hpa
  | ok p =>
    rw [hpay] at hpa
    have hfr : Frame.mk f.header p = f := by simpa [Except.map] using hpa
    have hp : p = f.payload := by rw [← hfr]
    subst hp
    obtain ⟨hen, hb⟩ := parsePayload_encodable hu ht hpay
    have hl : (body f.payload).length = f.header.length := hb.trans (not_not.mp hlen)
    refine ⟨⟨hs, hen, hl ▸ hlt⟩, ?_⟩
    rw [measured, hl]

/-- **The frame codec.**  A frame the wire can carry comes back as it was sent, with its length
filled in; and a frame that came off the wire without padding comes back as it was received. -/
theorem frame_round_trip :
    (∀ f : Frame, f.WellFormed → reparse f.encode = .ok f.measured) ∧
      ∀ f : Frame, f.Parsed → Unpadded f.header → reparse f.encode = .ok f := by
  refine ⟨fun f hf => reparse_encode hf, fun f hf hunpadded => ?_⟩
  obtain ⟨hwell, hmeasured⟩ := hf.wellFormed hunpadded
  rw [reparse_encode hwell, hmeasured]

/-- A WINDOW_UPDATE of the connection, its length still unset. -/
def updateFrame : Frame :=
  { header := { length := 0, frameType := .windowUpdate, flags := 0, streamId := 0 }
    payload := .windowUpdate 65535 }

/-- It goes out and comes back, and so does what came back. -/
theorem frame_round_trip_sample :
    reparse updateFrame.encode = .ok updateFrame.measured ∧
      reparse updateFrame.measured.encode = .ok updateFrame.measured := by
  refine ⟨frame_round_trip.1 _ ⟨by decide, ⟨rfl, by decide, by decide⟩, by decide⟩,
    frame_round_trip.2 _ ⟨updateFrame.measured.header.encode, body updateFrame.payload, ?_, ?_⟩
      ⟨by decide, by decide⟩⟩
  · decide
  · decide

end Frame

end Veysrs
