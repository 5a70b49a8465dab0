import Veysrs.Core.PrefixCode
import Veysrs.Http2.Hpack

/-!
# Huffman decoding

`decode_huffman` accepts exactly the encodings of UTF-8 strings.

**The tree.**  A node that bears a symbol is the end of a code of the table (`symbolAt_huffmanTree`),
every code of the table leads to its symbol, and such a node has no children (`Leafy`).  The table
is therefore a prefix code (`huffmanCode`): had an entry been wrong, one of the three would fail.

**The loop.**  Between two bits the decoder stands at the node to which the bits since the last
symbol lead (`readingAt`).  What it has read is the codes of what it has written, followed by those
bits (`foldlM_reading`), and it reads every such text to its end (`foldlM_huffmanBits`).

**The padding.**  At the end those bits are at most seven ones, which are as many as fill up the
last byte.
-/

namespace Veysrs

open Core List

/-! ## The encoding -/

/-- A code as bits, most significant first. -/
def codeBits (code : ℕ) : ℕ → List Bool
  | 0 => []
  | bits + 1 => decide ((code >>> bits) &&& 1 ≠ 0) :: codeBits code bits

/-- The code `HUFFMAN_SPEC` gives a symbol. -/
def symbolCode (sym : ℕ) : List Bool :=
  match huffmanSpec.find? fun e => e.1 = sym with
  | some e => codeBits e.2.1 e.2.2
  | none => []

def huffmanBits (bytes : Bytes) : List Bool := bytes.flatMap fun b => symbolCode b.toNat

/-- One-bits up to the next byte boundary. -/
def padOnes (bits : List Bool) : List Bool :=
  bits ++ List.replicate ((8 - bits.length % 8) % 8) true

def packByte (bits : List Bool) : UInt8 := UInt8.ofNat (bits.foldl (fun n b => 2 * n + b.toNat) 0)

/-- Eight bits to a byte. -/
def packBits : List Bool → Bytes
  | b7 :: b6 :: b5 :: b4 :: b3 :: b2 :: b1 :: b0 :: rest =>
    packByte [b7, b6, b5, b4, b3, b2, b1, b0] :: packBits rest
  | _ => []

/-- The Huffman encoding of a byte string. -/
def encodeHuffman (bytes : Bytes) : Bytes := packBits (padOnes (huffmanBits bytes))

/-! ### Bits and bytes -/

lemma length_bitsOf (b : UInt8) : (bitsOf b).length = 8 := rfl

set_option maxRecDepth 8192 in
lemma packByte_bitsOf (b : UInt8) : packByte (bitsOf b) = b := by
  have key : ∀ i : Fin 256, packByte (bitsOf (UInt8.ofNat i.val)) = UInt8.ofNat i.val := by
    decide
  have hb := key ⟨b.toNat, b.toNat_lt⟩
  rwa [UInt8.ofNat_toNat] at hb

lemma bitsOf_packByte : ∀ b7 b6 b5 b4 b3 b2 b1 b0 : Bool,
    bitsOf (packByte [b7, b6, b5, b4, b3, b2, b1, b0]) = [b7, b6, b5, b4, b3, b2, b1, b0] := by
  decide

lemma packBits_flatMap_bitsOf (bytes : Bytes) : packBits (bytes.flatMap bitsOf) = bytes := by
  induction bytes with
  | nil => rfl
  | cons b bytes ih =>
    show packByte (bitsOf b) :: packBits (bytes.flatMap bitsOf) = b :: bytes
    rw [packByte_bitsOf, ih]

lemma flatMap_bitsOf_packBits (n : ℕ) : ∀ {bits : List Bool}, bits.length = 8 * n →
    (packBits bits).flatMap bitsOf = bits := by
  induction n with
  | zero =>
    intro bits h
    rw [eq_nil_of_length_eq_zero h]
    rfl
  | succ n ih =>
    intro bits h
    match bits, h with
    | b7 :: b6 :: b5 :: b4 :: b3 :: b2 :: b1 :: b0 :: rest, h =>
      rw [packBits, flatMap_cons, bitsOf_packByte, ih]
      · rfl
      · simp only [length_cons] at h
        omega

lemma length_flatMap_bitsOf (bytes : Bytes) : (bytes.flatMap bitsOf).length = 8 * bytes.length := by
  induction bytes with
  | nil => rfl
  | cons b bytes ih =>
    rw [flatMap_cons, length_append, length_bitsOf, length_cons]
    omega

lemma length_padOnes (bits : List Bool) : ∃ n, (padOnes bits).length = 8 * n := by
  refine ⟨(bits.length + 7) / 8, ?_⟩
  rw [padOnes, length_append, length_replicate]
  omega

/-! ## The tree -/

variable {sym : ℕ} {path : List Bool}

namespace HuffmanTree

def child (t : HuffmanTree) (bit : Bool) : HuffmanTree :=
  if bit then t.grown.2.2 else t.grown.2.1

/-- The node to which a path leads. -/
def follow (t : HuffmanTree) (path : List Bool) : HuffmanTree := path.foldl child t

def symbolAt (t : HuffmanTree) (path : List Bool) : Option ℕ := (t.follow path).grown.1

lemma follow_nil (t : HuffmanTree) : t.follow [] = t := rfl

lemma follow_append (t : HuffmanTree) (p q : List Bool) :
    t.follow (p ++ q) = (t.follow p).follow q := foldl_append

lemma follow_nil_tree (path : List Bool) : nil.follow path = nil := by
  induction path with
  | nil => rfl
  | cons bit path ih => cases bit <;> exact ih

lemma follow_concat (t : HuffmanTree) (p : List Bool) (bit : Bool) :
    t.follow (p ++ [bit]) = (t.follow p).child bit := follow_append t p [bit]

lemma insert_succ (sym code bits : ℕ) (t : HuffmanTree) :
    insert sym code (bits + 1) t =
      if (code >>> bits) &&& 1 = 0 then
        node t.grown.1 (insert sym code bits t.grown.2.1) t.grown.2.2
      else node t.grown.1 t.grown.2.1 (insert sym code bits t.grown.2.2) := rfl

/-- Insertion marks the end of the code and changes no other symbol. -/
lemma symbolAt_insert {code x : ℕ} (bits : ℕ) : ∀ {t : HuffmanTree} {path : List Bool},
    (insert sym code bits t).symbolAt path = some x →
      path = codeBits code bits ∧ x = sym ∨ t.symbolAt path = some x := by
  induction bits with
  | zero =>
    intro t path h
    cases path with
    | nil =>
      cases h
      exact .inl ⟨rfl, rfl⟩
    | cons bit path => exact .inr h
  | succ bits ih =>
    intro t path h
    rw [insert_succ] at h
    cases path with
    | nil =>
      by_cases hb : (code >>> bits) &&& 1 = 0
      · rw [if_pos hb] at h
        exact .inr h
      · rw [if_neg hb] at h
        exact .inr h
    | cons bit path =>
      by_cases hb : (code >>> bits) &&& 1 = 0
      · rw [if_pos hb] at h
        cases bit with
        | true => exact .inr h
        | false =>
          refine (ih h).imp_left fun hp => ⟨?_, hp.2⟩
          rw [codeBits, hp.1, hb]
          rfl
      · rw [if_neg hb] at h
        cases bit with
        | false => exact .inr h
        | true =>
          refine (ih h).imp_left fun hp => ⟨?_, hp.2⟩
          rw [codeBits, hp.1, decide_eq_true hb]

/-- The symbols of a tree are those of its table, at the ends of their codes. -/
lemma symbolAt_foldl {x : ℕ} (spec : List (ℕ × ℕ × ℕ)) :
    ∀ {t : HuffmanTree},
      (spec.foldl (fun t e => insert e.1 e.2.1 e.2.2 t) t).symbolAt path = some x →
      (∃ e ∈ spec, e.1 = x ∧ path = codeBits e.2.1 e.2.2) ∨ t.symbolAt path = some x := by
  induction spec with
  | nil => exact fun h => .inr h
  | cons e spec ih =>
    intro t h
    rcases ih h with ⟨e', he', hx⟩ | h
    · exact .inl ⟨e', mem_cons_of_mem _ he', hx⟩
    · rcases symbolAt_insert _ h with ⟨hp, hx⟩ | h
      · exact .inl ⟨e, mem_cons_self, hx.symm, hp⟩
      · exact .inr h

lemma symbolAt_ofSpec {x : ℕ} {spec : List (ℕ × ℕ × ℕ)} (h : (ofSpec spec).symbolAt path = some x) :
    ∃ e ∈ spec, e.1 = x ∧ path = codeBits e.2.1 e.2.2 := by
  refine (symbolAt_foldl spec h).resolve_right fun hr => ?_
  -- the tree that was begun with bears no symbol
  cases path with
  | nil => cases hr
  | cons bit path =>
    have hn : (node none nil nil).follow (bit :: path) = nil := by
      cases bit
      · exact follow_nil_tree path
      · exact follow_nil_tree path
    rw [symbolAt, hn] at hr
    cases hr

/-- A node that bears a symbol has no children. -/
def Leafy : HuffmanTree → Bool
  | nil => true
  | node none left right => left.Leafy && right.Leafy
  | node (some _) left right => left = nil && right = nil

variable {t : HuffmanTree}

lemma Leafy.child (h : t.Leafy = true) (bit : Bool) : (t.child bit).Leafy = true := by
  cases t with
  | nil => cases bit <;> rfl
  | node symbol left right =>
    cases symbol with
    | none =>
      rw [Leafy, Bool.and_eq_true] at h
      cases bit
      · exact h.1
      · exact h.2
    | some sym =>
      rw [Leafy, Bool.and_eq_true, decide_eq_true_eq, decide_eq_true_eq] at h
      obtain ⟨rfl, rfl⟩ := h
      cases bit <;> rfl

lemma Leafy.follow (h : t.Leafy = true) (path : List Bool) : (t.follow path).Leafy = true := by
  induction path generalizing t with
  | nil => exact h
  | cons bit path ih => exact ih (Leafy.child h bit)

/-- Below a symbol there is nothing. -/
lemma Leafy.follow_of_symbol (h : t.Leafy = true) (hs : t.grown.1 = some sym) (hp : path ≠ []) :
    t.follow path = nil := by
  cases t with
  | nil => cases hs
  | node symbol left right =>
    cases hs
    rw [Leafy, Bool.and_eq_true, decide_eq_true_eq, decide_eq_true_eq] at h
    obtain ⟨rfl, rfl⟩ := h
    cases path with
    | nil => exact absurd rfl hp
    | cons bit path =>
      cases bit
      · exact follow_nil_tree path
      · exact follow_nil_tree path

end HuffmanTree

/-! ## The table -/

open HuffmanTree

lemma find?_of_nodup {γ : Type*} {e : ℕ × γ} {l : List (ℕ × γ)} (hl : (l.map Prod.fst).Nodup)
    (he : e ∈ l) : l.find? (fun x => x.1 = e.1) = some e := by
  induction l with
  | nil => cases he
  | cons x l ih =>
    rw [map_cons, nodup_cons] at hl
    rcases mem_cons.mp he with rfl | he
    · exact List.find?_cons_of_pos (by simp)
    · have hne : x.1 ≠ e.1 := fun h => hl.1 (h ▸ mem_map_of_mem he)
      rw [List.find?_cons_of_neg (by simpa using hne)]
      exact ih hl.2 he

/-- **The table and its tree**: every symbol is listed once, the tree has its symbols at the leaves,
and each code of the table leads to its symbol. -/
lemma huffmanTree_facts :
    huffmanSpec.map Prod.fst = List.range 257 ∧ huffmanTree.Leafy = true ∧
      huffmanSpec.all (fun e => huffmanTree.symbolAt (codeBits e.2.1 e.2.2) = some e.1) = true := by
  decide +kernel

lemma map_fst_huffmanSpec : huffmanSpec.map Prod.fst = List.range 257 := huffmanTree_facts.1

lemma leafy_huffmanTree : huffmanTree.Leafy = true := huffmanTree_facts.2.1

lemma symbolCode_of_mem {e : ℕ × ℕ × ℕ} (he : e ∈ huffmanSpec) :
    symbolCode e.1 = codeBits e.2.1 e.2.2 := by
  rw [symbolCode, find?_of_nodup (map_fst_huffmanSpec ▸ nodup_range) he]

/-- A code leads to its symbol. -/
lemma symbolAt_symbolCode (h : sym < 257) : huffmanTree.symbolAt (symbolCode sym) = some sym := by
  have hm : sym ∈ huffmanSpec.map Prod.fst := by
    rw [map_fst_huffmanSpec]
    exact mem_range.mpr h
  obtain ⟨e, he, rfl⟩ := mem_map.mp hm
  rw [symbolCode_of_mem he]
  exact of_decide_eq_true (all_eq_true.mp huffmanTree_facts.2.2 e he)

/-- A symbol stands at the end of its code. -/
lemma symbolAt_huffmanTree (h : huffmanTree.symbolAt path = some sym) :
    sym < 257 ∧ path = symbolCode sym := by
  obtain ⟨e, he, rfl, rfl⟩ := symbolAt_ofSpec h
  have hm : e.1 ∈ huffmanSpec.map Prod.fst := mem_map_of_mem he
  rw [map_fst_huffmanSpec] at hm
  exact ⟨mem_range.mp hm, (symbolCode_of_mem he).symm⟩

/-- **The table is a prefix code**, of the bytes and the symbol that ends a string. -/
def huffmanCode : PrefixCode (Fin 257) Bool where
  code sym := symbolCode sym
  ne_nil := by
    intro sym hnil
    have hsym := symbolAt_symbolCode sym.isLt
    rw [hnil] at hsym
    have hroot : huffmanTree.symbolAt [] = none := by decide +kernel
    rw [hroot] at hsym
    cases hsym
  free := by
    rintro a b ⟨rest, hrest⟩
    have ha := symbolAt_symbolCode a.isLt
    have hb := symbolAt_symbolCode b.isLt
    rw [← hrest] at hb
    cases rest with
    | nil =>
      rw [append_nil, ha] at hb
      exact Fin.ext (Option.some.inj hb)
    | cons bit rest =>
      -- nothing lies below the end of a code
      rw [symbolAt, follow_append, Leafy.follow_of_symbol (Leafy.follow leafy_huffmanTree _) ha
        (cons_ne_nil _ _)] at hb
      cases hb

/-- A byte as a symbol. -/
def byteSymbol (b : UInt8) : Fin 257 := ⟨b.toNat, b.toNat_lt.trans (by decide)⟩

lemma huffmanBits_eq (bytes : Bytes) :
    huffmanBits bytes = huffmanCode.encode (bytes.map byteSymbol) := by
  rw [PrefixCode.encode, flatMap_map]
  rfl

lemma huffmanBits_cons (b : UInt8) (bytes : Bytes) :
    huffmanBits (b :: bytes) = symbolCode b.toNat ++ huffmanBits bytes := flatMap_cons

/-! ## The loop -/

/-- The path stops inside a code. -/
def Inside (path : List Bool) : Prop := ∃ left right, huffmanTree.follow path = .node none left right

/-- So does every beginning of it. -/
lemma Inside.front {p q : List Bool} (h : Inside (p ++ q)) : Inside p := by
  cases q with
  | nil => rwa [append_nil] at h
  | cons bit q =>
    obtain ⟨left, right, hf⟩ := h
    rw [follow_append] at hf
    cases hp : huffmanTree.follow p with
    | nil =>
      rw [hp, follow_nil_tree] at hf
      cases hf
    | node symbol l r =>
      cases symbol with
      | none => exact ⟨l, r, hp⟩
      | some sym =>
        rw [Leafy.follow_of_symbol (Leafy.follow leafy_huffmanTree p) (by rw [hp]; rfl)
          (cons_ne_nil _ _)] at hf
        cases hf

lemma Inside.unfinished {p : List Bool} (h : Inside p) : huffmanCode.Unfinished p := by
  rintro sym ⟨rest, rfl⟩
  obtain ⟨left, right, hf⟩ := h.front
  have hs := symbolAt_symbolCode sym.isLt
  rw [symbolAt, show huffmanTree.follow (symbolCode sym) = _ from hf] at hs
  cases hs

/-- The beginning of a code stops inside it. -/
lemma inside_of_code {p : List Bool} {bit : Bool} (h : huffmanTree.symbolAt (p ++ [bit]) = some sym) :
    Inside p := by
  rw [symbolAt, follow_append] at h
  cases hp : huffmanTree.follow p with
  | nil =>
    rw [hp, follow_nil_tree] at h
    cases h
  | node symbol l r =>
    cases symbol with
    | none => exact ⟨l, r, hp⟩
    | some sym' =>
      rw [Leafy.follow_of_symbol (Leafy.follow leafy_huffmanTree p) (by rw [hp]; rfl)
        (cons_ne_nil _ _)] at h
      cases h

/-- The decoder after a symbol and these bits. -/
def readingAt (decoded : Bytes) (path : List Bool) : HuffmanState :=
  { decoded
    curr := huffmanTree.follow path
    bitsSinceSymbol := path.length
    trailingBitsAreOnes := path.all id }

section Bit

variable {decoded : Bytes} {path : List Bool} {bit : Bool} {left right : HuffmanTree}

lemma huffmanBit_of_nil (h : huffmanTree.follow (path ++ [bit]) = .nil) :
    huffmanBit (readingAt decoded path) bit = .error .compressionError := by
  rw [follow_concat, HuffmanTree.child] at h
  rw [huffmanBit]
  simp only [readingAt, h]

lemma huffmanBit_of_none (h : huffmanTree.follow (path ++ [bit]) = .node none left right) :
    huffmanBit (readingAt decoded path) bit = .ok (readingAt decoded (path ++ [bit])) := by
  have hn := h
  rw [follow_concat, HuffmanTree.child] at hn
  have ha : (path ++ [bit]).all id = (path.all id && bit) := by
    rw [all_append, all_cons, all_nil, Bool.and_true, id]
  rw [huffmanBit]
  simp only [readingAt, hn, h, ha, length_append, length_singleton]

lemma huffmanBit_of_some (h : huffmanTree.follow (path ++ [bit]) = .node (some sym) left right) :
    huffmanBit (readingAt decoded path) bit =
      if sym = 256 then .error .compressionError
      else .ok (readingAt (decoded ++ [UInt8.ofNat sym]) []) := by
  rw [follow_concat, HuffmanTree.child] at h
  rw [huffmanBit]
  simp only [readingAt, huffmanStart, h, follow_nil, length_nil, all_nil]

end Bit

/-- **What was read is the codes of what was written, and the beginning of another.** -/
lemma foldlM_reading (bits : List Bool) : ∀ {decoded : Bytes} {path : List Bool}
    {s : HuffmanState}, Inside path → bits.foldlM huffmanBit (readingAt decoded path) = .ok s →
    ∃ written rest, s = readingAt (decoded ++ written) rest ∧ Inside rest ∧
      path ++ bits = huffmanBits written ++ rest := by
  induction bits with
  | nil =>
    intro decoded path s hp h
    cases h
    exact ⟨[], path, by rw [append_nil], hp, append_nil _⟩
  | cons bit bits ih =>
    intro decoded path s hp h
    rw [foldlM_cons, except_bind_eq_ok] at h
    obtain ⟨t, hst, hr⟩ := h
    cases hn : huffmanTree.follow (path ++ [bit]) with
    | nil =>
      rw [huffmanBit_of_nil hn] at hst
      cases hst
    | node symbol left right =>
      cases symbol with
      | none =>
        rw [huffmanBit_of_none hn] at hst
        cases hst
        obtain ⟨written, rest, hs, hi, hb⟩ := ih ⟨left, right, hn⟩ hr
        exact ⟨written, rest, hs, hi, by rw [← hb, append_assoc]; rfl⟩
      | some sym =>
        rw [huffmanBit_of_some hn] at hst
        split_ifs at hst with heos
        cases hst
        have hsym : huffmanTree.symbolAt (path ++ [bit]) = some sym := by
          rw [symbolAt, hn]
          rfl
        obtain ⟨hlt, hc⟩ := symbolAt_huffmanTree hsym
        obtain ⟨written, rest, hs, hi, hb⟩ := ih (Inside.front (p := []) hp) hr
        refine ⟨UInt8.ofNat sym :: written, rest, ?_, hi, ?_⟩
        · rw [hs, append_assoc]
          rfl
        · have hby : (UInt8.ofNat sym).toNat = sym := by
            rw [UInt8.toNat_ofNat', Nat.mod_eq_of_lt (by omega)]
          rw [huffmanBits_cons, hby, append_cons, hc, append_assoc, ← hb]
          rfl

lemma foldlM_inside (decoded : Bytes) (q : List Bool) : ∀ {path : List Bool},
    Inside (path ++ q) →
    q.foldlM huffmanBit (readingAt decoded path) = .ok (readingAt decoded (path ++ q)) := by
  induction q with
  | nil =>
    intro path _
    rw [append_nil]
    rfl
  | cons bit q ih =>
    intro path h
    rw [append_cons] at h ⊢
    obtain ⟨left, right, hn⟩ := h.front
    rw [foldlM_cons, huffmanBit_of_none hn]
    exact ih h

lemma foldlM_symbolCode (decoded : Bytes) (b : UInt8) :
    (symbolCode b.toNat).foldlM huffmanBit (readingAt decoded []) =
      .ok (readingAt (decoded ++ [b]) []) := by
  have hsym := symbolAt_symbolCode (b.toNat_lt.trans (by decide : 2 ^ 8 < 257))
  rcases eq_nil_or_concat (symbolCode b.toNat) with hnil | ⟨path, bit, hc⟩
  · exact absurd hnil (huffmanCode.ne_nil (byteSymbol b))
  · rw [concat_eq_append] at hc
    rw [hc] at hsym ⊢
    have hp := @foldlM_inside decoded path [] (inside_of_code hsym)
    rw [foldlM_append, hp]
    have hs : huffmanBit (readingAt decoded path) bit = .ok (readingAt (decoded ++ [b]) []) := by
      rw [symbolAt] at hsym
      cases hn : huffmanTree.follow (path ++ [bit]) with
      | nil =>
        rw [hn] at hsym
        cases hsym
      | node symbol left right =>
        rw [hn] at hsym
        rw [show symbol = some b.toNat from hsym] at hn
        rw [huffmanBit_of_some hn, if_neg (Nat.ne_of_lt b.toNat_lt), UInt8.ofNat_toNat]
    show huffmanBit (readingAt decoded path) bit >>= pure = _
    rw [hs]
    rfl

/-- **Every text of codes is read to its end.** -/
lemma foldlM_huffmanBits {rest : List Bool} (hr : Inside rest) (bytes : Bytes) :
    ∀ {decoded : Bytes}, (huffmanBits bytes ++ rest).foldlM huffmanBit (readingAt decoded []) =
      .ok (readingAt (decoded ++ bytes) rest) := by
  induction bytes with
  | nil =>
    intro decoded
    rw [append_nil]
    exact foldlM_inside decoded rest hr
  | cons b bytes ih =>
    intro decoded
    rw [huffmanBits_cons, append_assoc, foldlM_append, foldlM_symbolCode]
    have hn := @ih (decoded ++ [b])
    rw [append_assoc] at hn
    exact hn

/-! ## The padding -/

lemma inside_ones {k : ℕ} (hk : k ≤ 29) : Inside (List.replicate k true) := by
  have hc : symbolCode 256 = List.replicate 29 true ++ [true] := by decide
  have hl := inside_of_code (hc ▸ symbolAt_symbolCode (by decide))
  rw [show 29 = k + (29 - k) by omega, replicate_add] at hl
  exact hl.front

lemma huffmanStart_eq : huffmanStart = readingAt [] [] := by
  simp only [huffmanStart, readingAt, follow_nil, length_nil, all_nil]

/-- Where the loop may end. -/
lemma replicate_of_ones (h : ¬(path.length ≠ 0 ∧ (path.length > 7 ∨ (!path.all id) = true))) :
    path.length ≤ 7 ∧ path = List.replicate path.length true := by
  cases path with
  | nil => exact ⟨Nat.zero_le _, rfl⟩
  | cons bit path =>
    rw [not_and_or, not_or, Nat.not_lt, Bool.not_eq_true, Bool.not_eq_false'] at h
    obtain ⟨hl, ho⟩ := h.resolve_left (not_not_intro (Nat.succ_ne_zero _))
    exact ⟨hl, eq_replicate_of_mem fun b hb => all_eq_true.mp ho b hb⟩

/-- **What is accepted** is the codes of a UTF-8 string and at most seven ones. -/
lemma decodeHuffman_eq_ok_iff {input : Bytes} {s : Str} :
    decodeHuffman input = .ok s ↔
      ∃ k ≤ 7, input.flatMap bitsOf = huffmanBits (utf8 s) ++ List.replicate k true := by
  rw [decodeHuffman, except_bind_eq_ok, huffmanStart_eq]
  constructor
  · rintro ⟨t, hr, hend⟩
    obtain ⟨written, rest, rfl, -, hbi⟩ := foldlM_reading _ (inside_ones (Nat.zero_le 29)) hr
    split_ifs at hend with hp
    · cases hend
    · obtain ⟨hl, ho⟩ := replicate_of_ones hp
      refine ⟨rest.length, hl, ?_⟩
      have hw : utf8 s = written := by
        cases ht : fromUtf8 written with
        | none => simp [readingAt, ht] at hend
        | some text =>
          simp only [readingAt, nil_append, ht] at hend
          cases hend
          exact utf8_of_fromUtf8 ht
      rw [hw, ← ho]
      exact hbi
  · rintro ⟨k, hk, hbi⟩
    rw [hbi]
    refine ⟨_, foldlM_huffmanBits (inside_ones (by omega)) (utf8 s), ?_⟩
    have ho : (List.replicate k true).all id = true :=
      all_eq_true.mpr fun b hb => eq_of_mem_replicate hb
    simp only [readingAt, nil_append, fromUtf8_utf8]
    rw [if_neg (by simp; omega)]
    rfl

/-! ## Exactness -/

/-- The ones that fill up the last byte. -/
lemma padOnes_of_length {bits : List Bool} {k n : ℕ} (hk : k ≤ 7)
    (h : (bits ++ List.replicate k true).length = 8 * n) :
    padOnes bits = bits ++ List.replicate k true := by
  rw [length_append, length_replicate] at h
  rw [padOnes, show (8 - bits.length % 8) % 8 = k by omega]

/-- **Huffman decoding.**  The encoding of a UTF-8 string is decoded to it, and nothing else is
accepted: not the code that ends a string, not more than seven bits behind the last symbol, and not
a zero among them. -/
theorem huffman_exact :
    (∀ bytes s, fromUtf8 bytes = some s → decodeHuffman (encodeHuffman bytes) = .ok s) ∧
    (∀ input s, decodeHuffman input = .ok s → input = encodeHuffman (utf8 s)) ∧
    (∀ input bytes rest, input.flatMap bitsOf = huffmanBits bytes ++ symbolCode 256 ++ rest →
      ¬∃ s, decodeHuffman input = .ok s) ∧
    ∀ input bytes padding, input.flatMap bitsOf = huffmanBits bytes ++ padding →
      (∀ sym ≤ 256, ¬symbolCode sym <+: padding) → (padding.length > 7 ∨ false ∈ padding) →
      ¬∃ s, decodeHuffman input = .ok s := by
  refine ⟨fun bytes s hs => ?_, fun input s h => ?_, fun input bytes rest hbits => ?_,
    fun input bytes padding hbits hrest hbad => ?_⟩
  · rw [decodeHuffman_eq_ok_iff, utf8_of_fromUtf8 hs]
    obtain ⟨n, hn⟩ := length_padOnes (huffmanBits bytes)
    refine ⟨_, ?_, flatMap_bitsOf_packBits n hn⟩
    omega
  · obtain ⟨k, hk, hbits⟩ := decodeHuffman_eq_ok_iff.mp h
    have hlen := length_flatMap_bitsOf input
    rw [hbits] at hlen
    rw [encodeHuffman, padOnes_of_length hk hlen, ← hbits, packBits_flatMap_bitsOf]
  · rintro ⟨s, h⟩
    obtain ⟨k, hk, haccepted⟩ := decodeHuffman_eq_ok_iff.mp h
    -- the symbol would be one of the bytes of the string
    have hwords : huffmanCode.encode (bytes.map byteSymbol ++ [Fin.last 256]) ++ rest =
        huffmanCode.encode ((utf8 s).map byteSymbol) ++ List.replicate k true := by
      rw [← huffmanBits_eq, ← haccepted, hbits, PrefixCode.encode_append, huffmanBits_eq]
      rfl
    have hfront := PrefixCode.front_of_encode (inside_ones (by omega : k ≤ 29)).unfinished hwords
    have hmem := hfront.subset (mem_append_right _ (mem_singleton_self _))
    obtain ⟨b, -, hb⟩ := mem_map.mp hmem
    have hlast : b.toNat = 256 := congrArg Fin.val hb
    exact absurd b.toNat_lt (by omega)
  · rintro ⟨s, h⟩
    obtain ⟨k, hk, haccepted⟩ := decodeHuffman_eq_ok_iff.mp h
    have hunfinished : huffmanCode.Unfinished padding := fun sym =>
      hrest sym (Nat.lt_succ_iff.mp sym.isLt)
    rw [hbits, huffmanBits_eq, huffmanBits_eq] at haccepted
    obtain ⟨-, rfl⟩ := PrefixCode.encode_append_inj hunfinished
      (inside_ones (by omega : k ≤ 29)).unfinished haccepted
    rcases hbad with hlong | hzero
    · rw [length_replicate] at hlong
      omega
    · exact absurd (eq_of_mem_replicate hzero) (by decide)

end Veysrs
