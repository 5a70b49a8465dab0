import Veysrs.Http2.Frame
import Veysrs.Core.Wp
import Veysrs.Http.Message

/-!
# HPACK

`server/http2/hpack.rs`: the static and the dynamic table, integers and strings, Huffman decoding,
the header-block decoder and the encoder.

The decoder mutates its dynamic table field by field, so a block that fails half-way has already
changed it.  `HpackDecoder.decodeHeaderBlock` therefore runs in a state monad that keeps the state
on error.
-/

namespace Veysrs

open Core

/-! ## Tables -/

def staticTableText : List (String × String) :=
  [(":authority", ""), (":method", "GET"), (":method", "POST"), (":path", "/"),
   (":path", "/index.html"), (":scheme", "http"), (":scheme", "https"), (":status", "200"),
   (":status", "204"), (":status", "206"), (":status", "304"), (":status", "400"),
   (":status", "404"), (":status", "500"), ("accept-charset", ""),
   ("accept-encoding", "gzip, deflate"), ("accept-language", ""), ("accept-ranges", ""),
   ("accept", ""), ("access-control-allow-origin", ""), ("age", ""), ("allow", ""),
   ("authorization", ""), ("cache-control", ""), ("content-disposition", ""),
   ("content-encoding", ""), ("content-language", ""), ("content-length", ""),
   ("content-location", ""), ("content-range", ""), ("content-type", ""), ("cookie", ""),
   ("date", ""), ("etag", ""), ("expect", ""), ("expires", ""), ("from", ""), ("host", ""),
   ("if-match", ""), ("if-modified-since", ""), ("if-none-match", ""), ("if-range", ""),
   ("if-unmodified-since", ""), ("last-modified", ""), ("link", ""), ("location", ""),
   ("max-forwards", ""), ("proxy-authenticate", ""), ("proxy-authorization", ""), ("range", ""),
   ("referer", ""), ("refresh", ""), ("retry-after", ""), ("server", ""), ("set-cookie", ""),
   ("strict-transport-security", ""), ("transfer-encoding", ""), ("user-agent", ""), ("vary", ""),
   ("via", ""), ("www-authenticate", "")]

def staticTable : Headers := staticTableText.map fun e => (e.1.toList, e.2.toList)

structure DynamicTable where
  entries : Headers
  size : ℕ
  maxSize : ℕ
  deriving DecidableEq, Repr

namespace DynamicTable

def new (maxSize : ℕ) : DynamicTable := { entries := [], size := 0, maxSize }

/-- The 32 bytes are the overhead an entry is charged for. -/
def entrySize (e : Str × Str) : ℕ := (utf8 e.1).length + (utf8 e.2).length + 32

/-- The `while` of `evict_to_size`, which drops the oldest entry; the fuel is the entry count. -/
def evictLoop : ℕ → ℕ → DynamicTable → DynamicTable
  | 0, _, t => t
  | fuel + 1, targetSize, t =>
    if t.size > targetSize then
      match t.entries.getLast? with
      | none => t
      | some e =>
        evictLoop fuel targetSize
          { t with entries := t.entries.dropLast, size := t.size - entrySize e }
    else t

def evictToSize (t : DynamicTable) (targetSize : ℕ) : DynamicTable :=
  evictLoop t.entries.length targetSize t

def setMaxSize (t : DynamicTable) (newMax : ℕ) : DynamicTable :=
  evictToSize { t with maxSize := newMax } newMax

/-- The newest entry comes first. -/
def insert (t : DynamicTable) (name value : Str) : DynamicTable :=
  evictToSize
    { t with entries := (name, value) :: t.entries, size := t.size + entrySize (name, value) }
    t.maxSize

def get (t : DynamicTable) (index : ℕ) : Option (Str × Str) :=
  if 0 < index ∧ index ≤ t.entries.length then t.entries[index - 1]? else none

end DynamicTable

/-! ## Integers -/

/-- The continuation bytes of an integer: seven bits each, least significant first. -/
def decodeIntTail : Bytes → ℕ → ℕ → ℕ → Except Http2ErrorCode (ℕ × ℕ)
  | [], _, _, _ => .error .compressionError
  | b :: rest, val, m, pos =>
    if m ≥ 63 then .error .compressionError
    else
      let val := val + ((b.toNat &&& 0x7f) <<< m) % 2 ^ 64
      if val ≥ 2 ^ 64 then .error .compressionError
      else if b &&& 0x80 = 0 then .ok (val, pos + 1)
      else decodeIntTail rest val (m + 7) (pos + 1)

/-- The integer and the number of bytes it took. -/
def decodeInt (buf : Bytes) (prefixBits : ℕ) : Except Http2ErrorCode (ℕ × ℕ) :=
  match buf with
  | [] => .error .compressionError
  | b :: rest =>
    let mask := 2 ^ prefixBits - 1
    let val := b.toNat &&& mask
    if val < mask then .ok (val, 1) else decodeIntTail rest val 0 1

/-- The `while rem >= 128` loop; the fuel bounds the number of bytes. -/
def encodeIntTail : ℕ → ℕ → Bytes
  | 0, rem => [UInt8.ofNat rem]
  | fuel + 1, rem =>
    if rem ≥ 128 then (UInt8.ofNat (rem &&& 0x7f) ||| 0x80) :: encodeIntTail fuel (rem >>> 7)
    else [UInt8.ofNat rem]

def encodeInt (prefixMask : UInt8) (prefixBits value : ℕ) : Bytes :=
  let maxPrefix := 2 ^ prefixBits - 1
  if value < maxPrefix then [prefixMask ||| UInt8.ofNat value]
  else (prefixMask ||| UInt8.ofNat maxPrefix) :: encodeIntTail 10 (value - maxPrefix)

/-! ## Huffman codes -/

/-- Symbol, code and number of bits; symbol 256 is EOS. -/
def huffmanSpec : List (ℕ × ℕ × ℕ) :=
  [(0, 0x1ff8, 13), (1, 0x7fffd8, 23), (2, 0xfffffe2, 28), (3, 0xfffffe3, 28), (4, 0xfffffe4, 28),
   (5, 0xfffffe5, 28), (6, 0xfffffe6, 28), (7, 0xfffffe7, 28), (8, 0xfffffe8, 28),
   (9, 0xffffea, 24), (10, 0x3ffffffc, 30), (11, 0xfffffe9, 28), (12, 0xfffffea, 28),
   (13, 0x3ffffffd, 30), (14, 0xfffffeb, 28), (15, 0xfffffec, 28), (16, 0xfffffed, 28),
   (17, 0xfffffee, 28), (18, 0xfffffef, 28), (19, 0xffffff0, 28), (20, 0xffffff1, 28),
   (21, 0xffffff2, 28), (22, 0x3ffffffe, 30), (23, 0xffffff3, 28), (24, 0xffffff4, 28),
   (25, 0xffffff5, 28), (26, 0xffffff6, 28), (27, 0xffffff7, 28), (28, 0xffffff8, 28),
   (29, 0xffffff9, 28), (30, 0xffffffa, 28), (31, 0xffffffb, 28), (32, 0x14, 6), (33, 0x3f8, 10),
   (34, 0x3f9, 10), (35, 0xffa, 12), (36, 0x1ff9, 13), (37, 0x15, 6), (38, 0xf8, 8),
   (39, 0x7fa, 11), (40, 0x3fa, 10), (41, 0x3fb, 10), (42, 0xf9, 8), (43, 0x7fb, 11), (44, 0xfa, 8),
   (45, 0x16, 6), (46, 0x17, 6), (47, 0x18, 6), (48, 0x0, 5), (49, 0x1, 5), (50, 0x2, 5),
   (51, 0x19, 6), (52, 0x1a, 6), (53, 0x1b, 6), (54, 0x1c, 6), (55, 0x1d, 6), (56, 0x1e, 6),
   (57, 0x1f, 6), (58, 0x5c, 7), (59, 0xfb, 8), (60, 0x7ffc, 15), (61, 0x20, 6), (62, 0xffb, 12),
   (63, 0x3fc, 10), (64, 0x1ffa, 13), (65, 0x21, 6), (66, 0x5d, 7), (67, 0x5e, 7), (68, 0x5f, 7),
   (69, 0x60, 7), (70, 0x61, 7), (71, 0x62, 7), (72, 0x63, 7), (73, 0x64, 7), (74, 0x65, 7),
   (75, 0x66, 7), (76, 0x67, 7), (77, 0x68, 7), (78, 0x69, 7), (79, 0x6a, 7), (80, 0x6b, 7),
   (81, 0x6c, 7), (82, 0x6d, 7), (83, 0x6e, 7), (84, 0x6f, 7), (85, 0x70, 7), (86, 0x71, 7),
   (87, 0x72, 7), (88, 0xfc, 8), (89, 0x73, 7), (90, 0xfd, 8), (91, 0x1ffb, 13), (92, 0x7fff0, 19),
   (93, 0x1ffc, 13), (94, 0x3ffc, 14), (95, 0x22, 6), (96, 0x7ffd, 15), (97, 0x3, 5), (98, 0x23, 6),
   (99, 0x4, 5), (100, 0x24, 6), (101, 0x5, 5), (102, 0x25, 6), (103, 0x26, 6), (104, 0x27, 6),
   (105, 0x6, 5), (106, 0x74, 7), (107, 0x75, 7), (108, 0x28, 6), (109, 0x29, 6), (110, 0x2a, 6),
   (111, 0x7, 5), (112, 0x2b, 6), (113, 0x76, 7), (114, 0x2c, 6), (115, 0x8, 5), (116, 0x9, 5),
   (117, 0x2d, 6), (118, 0x77, 7), (119, 0x78, 7), (120, 0x79, 7), (121, 0x7a, 7), (122, 0x7b, 7),
   (123, 0x7ffe, 15), (124, 0x7fc, 11), (125, 0x3ffd, 14), (126, 0x1ffd, 13), (127, 0xffffffc, 28),
   (128, 0xfffe6, 20), (129, 0x3fffd2, 22), (130, 0xfffe7, 20), (131, 0xfffe8, 20),
   (132, 0x3fffd3, 22), (133, 0x3fffd4, 22), (134, 0x3fffd5, 22), (135, 0x7fffd9, 23),
   (136, 0x3fffd6, 22), (137, 0x7fffda, 23), (138, 0x7fffdb, 23), (139, 0x7fffdc, 23),
   (140, 0x7fffdd, 23), (141, 0x7fffde, 23), (142, 0xffffeb, 24), (143, 0x7fffdf, 23),
   (144, 0xffffec, 24), (145, 0xffffed, 24), (146, 0x3fffd7, 22), (147, 0x7fffe0, 23),
   (148, 0xffffee, 24), (149, 0x7fffe1, 23), (150, 0x7fffe2, 23), (151, 0x7fffe3, 23),
   (152, 0x7fffe4, 23), (153, 0x1fffdc, 21), (154, 0x3fffd8, 22), (155, 0x7fffe5, 23),
   (156, 0x3fffd9, 22), (157, 0x7fffe6, 23), (158, 0x7fffe7, 23), (159, 0xffffef, 24),
   (160, 0x3fffda, 22), (161, 0x1fffdd, 21), (162, 0xfffe9, 20), (163, 0x3fffdb, 22),
   (164, 0x3fffdc, 22), (165, 0x7fffe8, 23), (166, 0x7fffe9, 23), (167, 0x1fffde, 21),
   (168, 0x7fffea, 23), (169, 0x3fffdd, 22), (170, 0x3fffde, 22), (171, 0xfffff0, 24),
   (172, 0x1fffdf, 21), (173, 0x3fffdf, 22), (174, 0x7fffeb, 23), (175, 0x7fffec, 23),
   (176, 0x1fffe0, 21), (177, 0x1fffe1, 21), (178, 0x3fffe0, 22), (179, 0x1fffe2, 21),
   (180, 0x7fffed, 23), (181, 0x3fffe1, 22), (182, 0x7fffee, 23), (183, 0x7fffef, 23),
   (184, 0xfffea, 20), (185, 0x3fffe2, 22), (186, 0x3fffe3, 22), (187, 0x3fffe4, 22),
   (188, 0x7ffff0, 23), (189, 0x3fffe5, 22), (190, 0x3fffe6, 22), (191, 0x7ffff1, 23),
   (192, 0x3ffffe0, 26), (193, 0x3ffffe1, 26), (194, 0xfffeb, 20), (195, 0x7fff1, 19),
   (196, 0x3fffe7, 22), (197, 0x7ffff2, 23), (198, 0x3fffe8, 22), (199, 0x1ffffec, 25),
   (200, 0x3ffffe2, 26), (201, 0x3ffffe3, 26), (202, 0x3ffffe4, 26), (203, 0x7ffffde, 27),
   (204, 0x7ffffdf, 27), (205, 0x3ffffe5, 26), (206, 0xfffff1, 24), (207, 0x1ffffed, 25),
   (208, 0x7fff2, 19), (209, 0x1fffe3, 21), (210, 0x3ffffe6, 26), (211, 0x7ffffe0, 27),
   (212, 0x7ffffe1, 27), (213, 0x3ffffe7, 26), (214, 0x7ffffe2, 27), (215, 0xfffff2, 24),
   (216, 0x1fffe4, 21), (217, 0x1fffe5, 21), (218, 0x3ffffe8, 26), (219, 0x3ffffe9, 26),
   (220, 0xffffffd, 28), (221, 0x7ffffe3, 27), (222, 0x7ffffe4, 27), (223, 0x7ffffe5, 27),
   (224, 0xfffec, 20), (225, 0xfffff3, 24), (226, 0xfffed, 20), (227, 0x1fffe6, 21),
   (228, 0x3fffe9, 22), (229, 0x1fffe7, 21), (230, 0x1fffe8, 21), (231, 0x7ffff3, 23),
   (232, 0x3fffea, 22), (233, 0x3fffeb, 22), (234, 0x1ffffee, 25), (235, 0x1ffffef, 25),
   (236, 0xfffff4, 24), (237, 0xfffff5, 24), (238, 0x3ffffea, 26), (239, 0x7ffff4, 23),
   (240, 0x3ffffeb, 26), (241, 0x7ffffe6, 27), (242, 0x3ffffec, 26), (243, 0x3ffffed, 26),
   (244, 0x7ffffe7, 27), (245, 0x7ffffe8, 27), (246, 0x7ffffe9, 27), (247, 0x7ffffea, 27),
   (248, 0x7ffffeb, 27), (249, 0xffffffe, 28), (250, 0x7ffffec, 27), (251, 0x7ffffed, 27),
   (252, 0x7ffffee, 27), (253, 0x7ffffef, 27), (254, 0x7fffff0, 27), (255, 0x3ffffee, 26),
   (256, 0x3fffffff, 30)]

/-- The binary tree `decode_huffman` builds in its vector of nodes. -/
inductive HuffmanTree where
  | nil
  | node (symbol : Option ℕ) (left right : HuffmanTree)
  deriving DecidableEq, Repr

namespace HuffmanTree

/-- A fresh node in place of a missing child. -/
def grown : HuffmanTree → Option ℕ × HuffmanTree × HuffmanTree
  | nil => (none, nil, nil)
  | node symbol left right => (symbol, left, right)

/-- Walk down `code`, most significant of its `bits` first, and mark the last node. -/
def insert (sym code : ℕ) : ℕ → HuffmanTree → HuffmanTree
  | 0, t => node (some sym) t.grown.2.1 t.grown.2.2
  | bits + 1, t =>
    let (symbol, left, right) := t.grown
    if (code >>> bits) &&& 1 = 0 then node symbol (insert sym code bits left) right
    else node symbol left (insert sym code bits right)

def ofSpec (spec : List (ℕ × ℕ × ℕ)) : HuffmanTree :=
  spec.foldl (fun t e => insert e.1 e.2.1 e.2.2 t) (node none nil nil)

end HuffmanTree

def huffmanTree : HuffmanTree := HuffmanTree.ofSpec huffmanSpec

/-- The loop variables of `decode_huffman`; `bitsSinceSymbol = 0` is `curr == 0`. -/
structure HuffmanState where
  decoded : Bytes
  curr : HuffmanTree
  bitsSinceSymbol : ℕ
  trailingBitsAreOnes : Bool

def huffmanStart : HuffmanState :=
  { decoded := [], curr := huffmanTree, bitsSinceSymbol := 0, trailingBitsAreOnes := true }

def huffmanBit (s : HuffmanState) (bit : Bool) : Except Http2ErrorCode HuffmanState :=
  let (_, left, right) := s.curr.grown
  match if bit then right else left with
  | .nil => .error .compressionError
  | .node none l r =>
    .ok { s with
      curr := .node none l r
      bitsSinceSymbol := s.bitsSinceSymbol + 1
      trailingBitsAreOnes := s.trailingBitsAreOnes && bit }
  | .node (some sym) _ _ =>
    if sym = 256 then .error .compressionError
    else .ok { huffmanStart with decoded := s.decoded ++ [UInt8.ofNat sym] }

/-- The bits of a byte, most significant first. -/
def bitsOf (b : UInt8) : List Bool :=
  [7, 6, 5, 4, 3, 2, 1, 0].map fun i => (b.toNat >>> i) &&& 1 = 1

def decodeHuffman (bytes : Bytes) : Except Http2ErrorCode Str := do
  let s ← (bytes.flatMap bitsOf).foldlM huffmanBit huffmanStart
  if s.bitsSinceSymbol ≠ 0 ∧ (s.bitsSinceSymbol > 7 ∨ !s.trailingBitsAreOnes) then
    throw .compressionError
  match fromUtf8 s.decoded with
  | some text => return text
  | none => throw .compressionError

/-! ## Strings -/

/-- The string and the number of bytes it took. -/
def decodeString (buf : Bytes) : Except Http2ErrorCode (Str × ℕ) := do
  let isHuffman := Flags.has (buf.headD 0) 0x80
  let (strLen, bytesRead) ← decodeInt buf 7
  let totalLen := bytesRead + strLen
  if totalLen ≥ 2 ^ 64 then throw .compressionError
  if buf.length < totalLen then throw .compressionError
  let strBytes := (buf.take totalLen).drop bytesRead
  if isHuffman then
    return (← decodeHuffman strBytes, totalLen)
  match fromUtf8 strBytes with
  | some text => return (text, totalLen)
  | none => throw .compressionError

def encodeString (s : Str) : Bytes :=
  encodeInt 0x00 7 (utf8 s).length ++ utf8 s

/-! ## The decoder -/

structure HpackDecoder where
  dynamicTable : DynamicTable
  maxDynamicTableSize : ℕ
  maxHeaderBlockSize : ℕ
  deriving DecidableEq, Repr

namespace HpackDecoder

def new (maxDynamicTableSize maxHeaderBlockSize : ℕ) : HpackDecoder :=
  { dynamicTable := DynamicTable.new maxDynamicTableSize
    maxDynamicTableSize
    maxHeaderBlockSize }

abbrev DecodeM := EStateM Http2ErrorCode HpackDecoder

def lookupIndex (index : ℕ) : DecodeM (Str × Str) :=
  if index = 0 then throw .compressionError
  else if index ≤ staticTable.length then
    match staticTable[index - 1]? with
    | some e => return e
    | none => throw .compressionError
  else do
    let d ← get
    match d.dynamicTable.get (index - staticTable.length) with
    | some e => return e
    | none => throw .compressionError

/-- The name of a literal field: the index's entry, or a string of its own at index 0. -/
def decodeName (buf : Bytes) (idx : ℕ) : DecodeM (Str × ℕ) :=
  if idx = 0 then
    MonadExcept.ofExcept (decodeString buf)
  else do
    return ((← lookupIndex idx).1, 0)

/-- A literal field, with the number of bytes its index, name and value took. -/
def decodeLiteral (buf : Bytes) (prefixBits : ℕ) : DecodeM ((Str × Str) × ℕ) := do
  let (idx, idxLen) ← MonadExcept.ofExcept (decodeInt buf prefixBits)
  let (name, nameLen) ← decodeName (buf.drop idxLen) idx
  let (value, valueLen) ← MonadExcept.ofExcept (decodeString (buf.drop (idxLen + nameLen)))
  return ((name, value), idxLen + nameLen + valueLen)

/-- One round of the loop: the header it pushes, if any, and the bytes it took. -/
def decodeField (buf : Bytes) : DecodeM (Option (Str × Str) × ℕ) :=
  let b := buf.headD 0
  if Flags.has b 0x80 then do
    -- indexed field
    let (idx, bytesRead) ← MonadExcept.ofExcept (decodeInt buf 7)
    return (some (← lookupIndex idx), bytesRead)
  else if Flags.has b 0x40 then do
    -- literal with incremental indexing
    let (field, bytesRead) ← decodeLiteral buf 6
    modify fun d => { d with dynamicTable := d.dynamicTable.insert field.1 field.2 }
    return (some field, bytesRead)
  else if Flags.has b 0x20 then do
    -- dynamic table size update
    let (newMax, bytesRead) ← MonadExcept.ofExcept (decodeInt buf 5)
    let d ← get
    failIf (newMax > d.maxDynamicTableSize) .compressionError
    modify fun d => { d with dynamicTable := d.dynamicTable.setMaxSize newMax }
    return (none, bytesRead)
  else do
    -- literal without indexing
    let (field, bytesRead) ← decodeLiteral buf 4
    return (some field, bytesRead)

/-- The `while pos < buf.len()` loop: every round takes at least one byte, so the length of the
block is fuel enough. -/
def decodeFields : ℕ → Bytes → DecodeM Headers
  | 0, _ => return []
  | _ + 1, [] => return []
  | fuel + 1, buf => do
      let (field, bytesRead) ← decodeField buf
      let rest ← decodeFields fuel (buf.drop bytesRead)
      return field.toList ++ rest

def decodeHeaderBlock (buf : Bytes) : DecodeM Headers := do
  let d ← get
  failIf (buf.length > d.maxHeaderBlockSize) .enhanceYourCalm
  decodeFields buf.length buf

end HpackDecoder

/-! ## The encoder -/

/-- The search of the static table: the first full match (where the loop breaks) and the first
entry of that name met on the way, both counted from 1. -/
def searchStatic (name value : Str) : ℕ → Headers → Option ℕ × Option ℕ
  | _, [] => (none, none)
  | idx, (sName, sVal) :: rest =>
    if sName = name then
      if sVal = value then (some idx, some idx)
      else ((searchStatic name value (idx + 1) rest).1, some idx)
    else searchStatic name value (idx + 1) rest

def encodeHeader (name value : Str) : Bytes :=
  let nameLower := toLowercase name
  match searchStatic nameLower value 1 staticTable with
  | (some idx, _) => encodeInt 0x80 7 idx
  | (none, some nIdx) => encodeInt 0x00 4 nIdx ++ encodeString value
  | (none, none) => encodeInt 0x00 4 0 ++ encodeString nameLower ++ encodeString value

/-- `HpackEncoder::encode_headers`, which never touches the encoder's dynamic table. -/
def encodeHeaders (headers : Headers) : Bytes := headers.flatMap fun h => encodeHeader h.1 h.2

end Veysrs
