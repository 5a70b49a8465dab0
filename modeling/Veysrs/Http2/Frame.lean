import Veysrs.Core.Text

/-!
# HTTP/2 frames

The frame layer of `server/http2/frame.rs`: error codes, frame types, the nine-byte frame header,
the payloads, `Frame::parse` and `Frame::encode`.

A frame says some things twice, in the flag bits of its header and in its payload: the parser
reads the flags into the payload, and the encoder writes the flags of the header, so what the
peer sees of END_STREAM and END_HEADERS is the header's (`Frame.endStream`, `Frame.endHeaders`).

`Frame.Parsed` is what the connection knows of a frame it processes: that `Frame::parse` made it.
-/

namespace Veysrs

open Core

/-! ## Codes -/

inductive Http2ErrorCode where
  | noError | protocolError | internalError | flowControlError | settingsTimeout | streamClosed
  | frameSizeError | refusedStream | cancel | compressionError | connectError | enhanceYourCalm
  | inadequateSecurity | http11Required
  deriving DecidableEq, Repr

namespace Http2ErrorCode

def fromU32 : ℕ → Http2ErrorCode
  | 0x0 => noError
  | 0x1 => protocolError
  | 0x2 => internalError
  | 0x3 => flowControlError
  | 0x4 => settingsTimeout
  | 0x5 => streamClosed
  | 0x6 => frameSizeError
  | 0x7 => refusedStream
  | 0x8 => cancel
  | 0x9 => compressionError
  | 0xa => connectError
  | 0xb => enhanceYourCalm
  | 0xc => inadequateSecurity
  | 0xd => http11Required
  | _ => protocolError

def toU32 : Http2ErrorCode → ℕ
  | noError => 0x0
  | protocolError => 0x1
  | internalError => 0x2
  | flowControlError => 0x3
  | settingsTimeout => 0x4
  | streamClosed => 0x5
  | frameSizeError => 0x6
  | refusedStream => 0x7
  | cancel => 0x8
  | compressionError => 0x9
  | connectError => 0xa
  | enhanceYourCalm => 0xb
  | inadequateSecurity => 0xc
  | http11Required => 0xd

end Http2ErrorCode

inductive FrameType where
  | data | headers | priority | rstStream | settings | pushPromise | ping | goAway | windowUpdate
  | continuation
  | unknown (code : UInt8)
  deriving DecidableEq, Repr

namespace FrameType

def ofU8 : UInt8 → FrameType
  | 0x0 => data
  | 0x1 => headers
  | 0x2 => priority
  | 0x3 => rstStream
  | 0x4 => settings
  | 0x5 => pushPromise
  | 0x6 => ping
  | 0x7 => goAway
  | 0x8 => windowUpdate
  | 0x9 => continuation
  | other => unknown other

def toU8 : FrameType → UInt8
  | data => 0x0
  | headers => 0x1
  | priority => 0x2
  | rstStream => 0x3
  | settings => 0x4
  | pushPromise => 0x5
  | ping => 0x6
  | goAway => 0x7
  | windowUpdate => 0x8
  | continuation => 0x9
  | unknown code => code

end FrameType

inductive SettingId where
  | headerTableSize | enablePush | maxConcurrentStreams | initialWindowSize | maxFrameSize
  | maxHeaderListSize
  | unknown (code : ℕ)
  deriving DecidableEq, Repr

namespace SettingId

def ofU16 : ℕ → SettingId
  | 0x1 => headerTableSize
  | 0x2 => enablePush
  | 0x3 => maxConcurrentStreams
  | 0x4 => initialWindowSize
  | 0x5 => maxFrameSize
  | 0x6 => maxHeaderListSize
  | other => unknown other

def toU16 : SettingId → ℕ
  | headerTableSize => 0x1
  | enablePush => 0x2
  | maxConcurrentStreams => 0x3
  | initialWindowSize => 0x4
  | maxFrameSize => 0x5
  | maxHeaderListSize => 0x6
  | unknown code => code

end SettingId

/-! ## Flags and integers on the wire -/

namespace Flags

def endStream : UInt8 := 0x1
def ack : UInt8 := 0x1
def endHeaders : UInt8 := 0x4
def padded : UInt8 := 0x8
def priority : UInt8 := 0x20

/-- `(flags & bit) != 0`. -/
def has (flags bit : UInt8) : Bool := flags &&& bit != 0

end Flags

/-- A 32-bit big-endian integer. -/
def be32 (a b c d : UInt8) : ℕ :=
  (a.toNat <<< 24) ||| (b.toNat <<< 16) ||| (c.toNat <<< 8) ||| d.toNat

/-- `u32::to_be_bytes`. -/
def toBe32 (n : ℕ) : Bytes :=
  [UInt8.ofNat (n >>> 24), UInt8.ofNat (n >>> 16), UInt8.ofNat (n >>> 8), UInt8.ofNat n]

/-- `u16::to_be_bytes`. -/
def toBe16 (n : ℕ) : Bytes := [UInt8.ofNat (n >>> 8), UInt8.ofNat n]

/-- The reserved top bit is masked away. -/
def mask31 (n : ℕ) : ℕ := n &&& 0x7fffffff

/-! ## The frame header -/

def frameHeaderSize : ℕ := 9
def defaultMaxFrameSize : ℕ := 16384

structure FrameHeader where
  length : ℕ
  frameType : FrameType
  flags : UInt8
  streamId : ℕ
  deriving DecidableEq, Repr

namespace FrameHeader

def parse : Bytes → Except Http2ErrorCode FrameHeader
  | l0 :: l1 :: l2 :: ty :: flags :: s0 :: s1 :: s2 :: s3 :: _ =>
    .ok {
      length := (l0.toNat <<< 16) ||| (l1.toNat <<< 8) ||| l2.toNat
      frameType := FrameType.ofU8 ty
      flags
      streamId := mask31 (be32 s0 s1 s2 s3) }
  | _ => .error .frameSizeError

def encode (h : FrameHeader) : Bytes :=
  [UInt8.ofNat (h.length >>> 16), UInt8.ofNat (h.length >>> 8), UInt8.ofNat h.length,
    h.frameType.toU8, h.flags] ++ toBe32 (mask31 h.streamId)

end FrameHeader

/-! ## Payloads and frames -/

inductive FramePayload where
  | data (data : Bytes) (endStream : Bool)
  | headers (headerBlock : Bytes) (endStream endHeaders : Bool)
  | priority (streamDependency : ℕ) (weight : UInt8) (exclusive : Bool)
  | rstStream (errorCode : Http2ErrorCode)
  | settings (settings : List (SettingId × ℕ)) (ack : Bool)
  | pushPromise (promisedStreamId : ℕ) (headerBlock : Bytes)
  | ping (opaqueData : Vector UInt8 8) (ack : Bool)
  | goAway (lastStreamId : ℕ) (errorCode : Http2ErrorCode) (debugData : Bytes)
  | windowUpdate (windowSizeIncrement : ℕ)
  | continuation (headerBlock : Bytes) (endHeaders : Bool)
  | unknown (payload : Bytes)
  deriving DecidableEq, Repr

structure Frame where
  header : FrameHeader
  payload : FramePayload
  deriving DecidableEq, Repr

namespace Frame

/-- `payload_bytes.chunks_exact(6)`, each chunk a setting. -/
def parseSettings : Bytes → List (SettingId × ℕ)
  | i0 :: i1 :: v0 :: v1 :: v2 :: v3 :: rest =>
    (SettingId.ofU16 ((i0.toNat <<< 8) ||| i1.toNat), be32 v0 v1 v2 v3) :: parseSettings rest
  | _ => []

/-- DATA: the pad-length byte and the padding are cut off. -/
def parseData (h : FrameHeader) (bytes : Bytes) : Except Http2ErrorCode FramePayload :=
  if h.streamId = 0 then .error .protocolError
  else if Flags.has h.flags Flags.padded then
    match bytes with
    | [] => .error .frameSizeError
    | pad :: rest =>
      if 1 + pad.toNat > bytes.length then .error .protocolError
      else .ok (.data (rest.take (rest.length - pad.toNat)) (Flags.has h.flags Flags.endStream))
  else .ok (.data bytes (Flags.has h.flags Flags.endStream))

/-- HEADERS: the pad-length byte, the priority fields and the padding are cut off. -/
def parseHeaders (h : FrameHeader) (bytes : Bytes) : Except Http2ErrorCode FramePayload :=
  if h.streamId = 0 then .error .protocolError
  else if Flags.has h.flags Flags.padded && bytes.isEmpty then .error .frameSizeError
  else
    let padLen := if Flags.has h.flags Flags.padded then (bytes.headD 0).toNat else 0
    let offset := if Flags.has h.flags Flags.padded then 1 else 0
    if Flags.has h.flags Flags.priority && bytes.length < offset + 5 then .error .frameSizeError
    else
      let offset := if Flags.has h.flags Flags.priority then offset + 5 else offset
      if offset + padLen > bytes.length then .error .protocolError
      else .ok (.headers ((bytes.take (bytes.length - padLen)).drop offset)
        (Flags.has h.flags Flags.endStream) (Flags.has h.flags Flags.endHeaders))

def parsePriority (h : FrameHeader) (bytes : Bytes) : Except Http2ErrorCode FramePayload :=
  if h.streamId = 0 then .error .protocolError
  else match bytes with
    | [d0, d1, d2, d3, weight] =>
      let rawDep := be32 d0 d1 d2 d3
      .ok (.priority (mask31 rawDep) weight (rawDep &&& 0x80000000 != 0))
    | _ => .error .frameSizeError

def parseRstStream (h : FrameHeader) (bytes : Bytes) : Except Http2ErrorCode FramePayload :=
  if h.streamId = 0 then .error .protocolError
  else match bytes with
    | [c0, c1, c2, c3] => .ok (.rstStream (Http2ErrorCode.fromU32 (be32 c0 c1 c2 c3)))
    | _ => .error .frameSizeError

def parseSettingsFrame (h : FrameHeader) (bytes : Bytes) : Except Http2ErrorCode FramePayload :=
  if h.streamId ≠ 0 then .error .protocolError
  else if Flags.has h.flags Flags.ack && !bytes.isEmpty then .error .frameSizeError
  else if bytes.length % 6 ≠ 0 then .error .frameSizeError
  else .ok (.settings (parseSettings bytes) (Flags.has h.flags Flags.ack))

def parsePing (h : FrameHeader) (bytes : Bytes) : Except Http2ErrorCode FramePayload :=
  if h.streamId ≠ 0 then .error .protocolError
  else if hlen : bytes.length = 8 then
    .ok (.ping ⟨⟨bytes⟩, hlen⟩ (Flags.has h.flags Flags.ack))
  else .error .frameSizeError

def parseGoAway (h : FrameHeader) (bytes : Bytes) : Except Http2ErrorCode FramePayload :=
  if h.streamId ≠ 0 then .error .protocolError
  else match bytes with
    | l0 :: l1 :: l2 :: l3 :: e0 :: e1 :: e2 :: e3 :: debugData =>
      .ok (.goAway (mask31 (be32 l0 l1 l2 l3)) (Http2ErrorCode.fromU32 (be32 e0 e1 e2 e3))
        debugData)
    | _ => .error .frameSizeError

def parseWindowUpdate (bytes : Bytes) : Except Http2ErrorCode FramePayload :=
  match bytes with
  | [i0, i1, i2, i3] =>
    let increment := mask31 (be32 i0 i1 i2 i3)
    if increment = 0 then .error .protocolError else .ok (.windowUpdate increment)
  | _ => .error .frameSizeError

def parseContinuation (h : FrameHeader) (bytes : Bytes) : Except Http2ErrorCode FramePayload :=
  if h.streamId = 0 then .error .protocolError
  else .ok (.continuation bytes (Flags.has h.flags Flags.endHeaders))

/-- The payload the bytes hold for the type the header announces. -/
def parsePayload (h : FrameHeader) (bytes : Bytes) : Except Http2ErrorCode FramePayload :=
  match h.frameType with
  | .data => parseData h bytes
  | .headers => parseHeaders h bytes
  | .priority => parsePriority h bytes
  | .rstStream => parseRstStream h bytes
  | .settings => parseSettingsFrame h bytes
  -- the server never pushes, so a client's PUSH_PROMISE is an error
  | .pushPromise => .error .protocolError
  | .ping => parsePing h bytes
  | .goAway => parseGoAway h bytes
  | .windowUpdate => parseWindowUpdate bytes
  | .continuation => parseContinuation h bytes
  | .unknown _ => .ok (.unknown bytes)

/-- `Frame::parse`. -/
def parse (h : FrameHeader) (bytes : Bytes) : Except Http2ErrorCode Frame :=
  if bytes.length ≠ h.length then .error .frameSizeError
  else (parsePayload h bytes).map (Frame.mk h)

/-- The body `Frame::encode` writes after the header. -/
def body : FramePayload → Bytes
  | .data data _ => data
  | .headers headerBlock _ _ => headerBlock
  | .priority streamDependency weight exclusive =>
    toBe32 (if exclusive then streamDependency ||| 0x80000000 else mask31 streamDependency) ++
      [weight]
  | .rstStream errorCode => toBe32 errorCode.toU32
  | .settings settings _ => settings.flatMap fun s => toBe16 s.1.toU16 ++ toBe32 s.2
  | .pushPromise promisedStreamId headerBlock => toBe32 (mask31 promisedStreamId) ++ headerBlock
  | .ping opaqueData _ => opaqueData.toList
  | .goAway lastStreamId errorCode debugData =>
    toBe32 (mask31 lastStreamId) ++ toBe32 errorCode.toU32 ++ debugData
  | .windowUpdate windowSizeIncrement => toBe32 (mask31 windowSizeIncrement)
  | .continuation headerBlock _ => headerBlock
  | .unknown payload => payload

/-- `Frame::encode`: the length field is always the body's. -/
def encode (f : Frame) : Bytes :=
  ({ f.header with length := (body f.payload).length } : FrameHeader).encode ++ body f.payload

/-- END_STREAM as the peer sees it. -/
def endStream (f : Frame) : Bool := Flags.has f.header.flags Flags.endStream

/-- END_HEADERS as the peer sees it. -/
def endHeaders (f : Frame) : Bool := Flags.has f.header.flags Flags.endHeaders

/-! ## What parsing guarantees -/

/-- What a payload made by the parser says about its header. -/
def Fits (h : FrameHeader) : FramePayload → Prop
  | .data data endStream =>
    h.frameType = .data ∧ h.streamId ≠ 0 ∧ endStream = Flags.has h.flags Flags.endStream ∧
      (if Flags.has h.flags Flags.padded then ∃ pad, h.length = 1 + pad + data.length
       else h.length = data.length)
  | .headers headerBlock endStream endHeaders =>
    h.frameType = .headers ∧ h.streamId ≠ 0 ∧ headerBlock.length ≤ h.length ∧
      endStream = Flags.has h.flags Flags.endStream ∧
      endHeaders = Flags.has h.flags Flags.endHeaders
  | .priority _ _ _ => h.frameType = .priority ∧ h.streamId ≠ 0
  | .rstStream _ => h.frameType = .rstStream ∧ h.streamId ≠ 0
  | .settings _ _ => h.frameType = .settings ∧ h.streamId = 0
  | .pushPromise _ _ => False
  | .ping _ _ => h.frameType = .ping ∧ h.streamId = 0
  | .goAway _ _ _ => h.frameType = .goAway ∧ h.streamId = 0
  | .windowUpdate increment => h.frameType = .windowUpdate ∧ 0 < increment
  | .continuation headerBlock endHeaders =>
    h.frameType = .continuation ∧ h.streamId ≠ 0 ∧ headerBlock.length = h.length ∧
      endHeaders = Flags.has h.flags Flags.endHeaders
  | .unknown _ => ∃ code, h.frameType = .unknown code

variable {p : FramePayload} {h : FrameHeader}

lemma parseData_fits {bytes : Bytes} (hty : h.frameType = .data) (hl : bytes.length = h.length)
    (hp : parseData h bytes = .ok p) : Fits h p := by
  unfold parseData at hp
  split_ifs at hp with hs hpad
  · cases bytes with
    | nil => cases hp
    | cons pad rest =>
      simp only at hp
      split_ifs at hp with ho
      cases hp
      simp only [List.length_cons] at hl ho
      refine ⟨hty, hs, rfl, ?_⟩
      rw [if_pos hpad]
      exact ⟨pad.toNat, by rw [List.length_take]; omega⟩
  · cases hp
    exact ⟨hty, hs, rfl, by rw [if_neg hpad, hl]⟩

lemma parseHeaders_fits {bytes : Bytes} (hty : h.frameType = .headers)
    (hl : bytes.length = h.length) (hp : parseHeaders h bytes = .ok p) : Fits h p := by
  simp only [parseHeaders] at hp
  split_ifs at hp with hs
  all_goals
    cases hp
    refine ⟨hty, hs, ?_, rfl, rfl⟩
    rw [List.length_drop, List.length_take]
    omega

lemma parsePayload_fits {bytes : Bytes} (hl : bytes.length = h.length)
    (hp : parsePayload h bytes = .ok p) : Fits h p := by
  unfold parsePayload at hp
  split at hp
  case h_1 hty => exact parseData_fits hty hl hp
  case h_2 hty => exact parseHeaders_fits hty hl hp
  case h_3 hty =>
    unfold parsePriority at hp
    split_ifs at hp with hs
    split at hp <;> cases hp
    exact ⟨hty, hs⟩
  case h_4 hty =>
    unfold parseRstStream at hp
    split_ifs at hp with hs
    split at hp <;> cases hp
    exact ⟨hty, hs⟩
  case h_5 hty =>
    unfold parseSettingsFrame at hp
    split_ifs at hp with hs
    cases hp
    exact ⟨hty, not_not.mp hs⟩
  case h_6 => cases hp
  case h_7 hty =>
    unfold parsePing at hp
    split_ifs at hp with hs
    cases hp
    exact ⟨hty, not_not.mp hs⟩
  case h_8 hty =>
    unfold parseGoAway at hp
    split_ifs at hp with hs
    split at hp <;> cases hp
    exact ⟨hty, not_not.mp hs⟩
  case h_9 hty =>
    unfold parseWindowUpdate at hp
    split at hp
    · simp only at hp
      split_ifs at hp with hz
      cases hp
      exact ⟨hty, Nat.pos_of_ne_zero hz⟩
    · cases hp
  case h_10 hty =>
    unfold parseContinuation at hp
    split_ifs at hp with hs
    cases hp
    exact ⟨hty, hs, hl, rfl⟩
  case h_11 hty =>
    cases hp
    exact ⟨_, hty⟩

/-- The frame came off the wire: its header out of `FrameHeader::parse` and all of it out of
`Frame::parse`. -/
def Parsed (f : Frame) : Prop :=
  ∃ head bytes, FrameHeader.parse head = .ok f.header ∧ parse f.header bytes = .ok f

/-- **A parsed frame's payload fits its header.** -/
lemma Parsed.fits {f : Frame} (h : f.Parsed) : Fits f.header f.payload := by
  obtain ⟨_, bytes, _, hpa⟩ := h
  unfold parse at hpa
  split_ifs at hpa with hl
  cases hpay : parsePayload f.header bytes with
  | error e =>
    rw [hpay] at hpa
    cases hpa
  | ok p =>
    rw [hpay] at hpa
    have hf : Frame.mk f.header p = f := by simpa [Except.map] using hpa
    have hp : f.payload = p := by rw [← hf]
    rw [hp]
    exact parsePayload_fits (not_not.mp hl) hpay

/-- The length field has 24 bits. -/
lemma Parsed.length_lt {f : Frame} (h : f.Parsed) : f.header.length < 2 ^ 24 := by
  obtain ⟨head, _, hh, _⟩ := h
  unfold FrameHeader.parse at hh
  split at hh
  · rename_i l0 l1 l2 _ _ _ _ _ _ _
    have h0 := l0.toNat_lt
    have h1 := l1.toNat_lt
    have h2 := l2.toNat_lt
    rw [← Except.ok.inj hh]
    refine Nat.or_lt_two_pow (Nat.or_lt_two_pow ?_ ?_) ?_
    · rw [Nat.shiftLeft_eq]; omega
    · rw [Nat.shiftLeft_eq]; omega
    · omega
  · cases hh

end Frame

end Veysrs
