import Veysrs.Core.CaseMapping
import Mathlib.Data.List.DropRight

/-!
# Strings and their bytes

The string operations of the Rust standard library that text protocols are written with, over
`Str` (a string as its scalar values) and `Bytes`.

**Encoding.**  `utf8` and `fromUtf8` are `str::as_bytes` and `str::from_utf8`.  They are inverse
to each other (`fromUtf8_utf8`, `utf8_of_fromUtf8`), and an ASCII byte of an encoded string is an
ASCII character of the string (`mem_utf8_ascii`): no part of a longer encoding looks like one.

**Shape.**  `trim`, `splitCrlf`, `splitOnce` and ASCII case folding.

**Numbers.**  `decimal` prints and `parseUnsigned` reads an unsigned integer; the reader accepts a
leading plus sign, as `str::parse` does.
-/

namespace Core

open List

abbrev Bytes := List UInt8

/-! ## Encoding -/

/-- `str::as_bytes`. -/
def utf8 (s : Str) : Bytes := s.flatMap String.utf8EncodeChar

@[simp] lemma utf8_nil : utf8 [] = [] := rfl

@[simp] lemma utf8_cons (c : Char) (s : Str) :
    utf8 (c :: s) = String.utf8EncodeChar c ++ utf8 s := rfl

variable {s : Str} {c sep : Char}

@[simp] lemma utf8_append (s t : Str) : utf8 (s ++ t) = utf8 s ++ utf8 t :=
  flatMap_append

/-- The first character of a byte string; a character takes four bytes at most. -/
def firstChar (bs : Bytes) : Option Char := (bs.take 4).toByteArray.utf8DecodeChar? 0

/-- Decoding, with the number of bytes as fuel: every character takes at least one. -/
def fromUtf8Fuel : ℕ → Bytes → Option Str
  | _, [] => some []
  | 0, _ :: _ => none
  | n + 1, b :: bs =>
    match firstChar (b :: bs) with
    | none => none
    | some c => (fromUtf8Fuel n ((b :: bs).drop c.utf8Size)).map (c :: ·)

/-- `str::from_utf8`. -/
def fromUtf8 (bs : Bytes) : Option Str := fromUtf8Fuel bs.length bs

lemma firstChar_encode (c : Char) (bs : Bytes) :
    firstChar (String.utf8EncodeChar c ++ bs) = some c := by
  have hl : (String.utf8EncodeChar c).length ≤ 4 := by
    rw [String.length_utf8EncodeChar]
    exact Char.utf8Size_le_four c
  rw [firstChar, take_append, take_of_length_le hl, toByteArray_append]
  exact ByteArray.utf8DecodeChar?_utf8EncodeChar_append

/-- What `firstChar` reads stands at the front of the bytes. -/
lemma encode_of_firstChar {bs : Bytes} (h : firstChar bs = some c) :
    String.utf8EncodeChar c ++ bs.drop c.utf8Size = bs := by
  have heq := congrArg (fun b => b.data.toList) (ByteArray.eq_of_utf8DecodeChar?_eq_some h)
  simp only [toList_data_toByteArray, ByteArray.data_append, Array.toList_append] at heq
  have hp : String.utf8EncodeChar c <+: bs :=
    (heq ▸ prefix_append _ _ : String.utf8EncodeChar c <+: bs.take 4).trans
      ( take_prefix 4 bs)
  obtain ⟨t, rfl⟩ := hp
  rw [← String.length_utf8EncodeChar, drop_left]

lemma fromUtf8Fuel_utf8 : ∀ (s : Str) (n : ℕ), (utf8 s).length ≤ n →
    fromUtf8Fuel n (utf8 s) = some s
  | [], n, _ => by cases n <;> rfl
  | c :: s, n, hn => by
      rw [utf8_cons, length_append, String.length_utf8EncodeChar] at hn
      have hp := Char.utf8Size_pos c
      cases n with
      | zero => omega
      | succ m =>
        have hh := firstChar_encode c (utf8 s)
        have hd : (String.utf8EncodeChar c ++ utf8 s).drop c.utf8Size = utf8 s := by
          rw [← String.length_utf8EncodeChar, drop_left]
        have ht := fromUtf8Fuel_utf8 s m (by omega)
        rw [utf8_cons]
        cases hbs : String.utf8EncodeChar c ++ utf8 s with
        | nil =>
          have := congrArg List.length hbs
          rw [length_append, String.length_utf8EncodeChar, length_nil] at this
          omega
        | cons b bs =>
          rw [hbs] at hh hd
          simp only [fromUtf8Fuel, hh, hd, ht, Option.map_some]

/-- Encoding then decoding gives the string back. -/
@[simp] lemma fromUtf8_utf8 (s : Str) : fromUtf8 (utf8 s) = some s :=
  fromUtf8Fuel_utf8 s _ le_rfl

lemma utf8_injective {t : Str} (h : utf8 s = utf8 t) : s = t := by
  have := congrArg fromUtf8 h
  simpa using this

lemma utf8_of_fromUtf8Fuel : ∀ (n : ℕ) (bs : Bytes) (s : Str),
    fromUtf8Fuel n bs = some s → utf8 s = bs
  | n, [], s, h => by
      cases n <;> (simp only [fromUtf8Fuel, Option.some.injEq] at h; subst h; rfl)
  | 0, _ :: _, s, h => by simp [fromUtf8Fuel] at h
  | n + 1, b :: bs, s, h => by
      rw [fromUtf8Fuel] at h
      cases hc : firstChar (b :: bs) with
      | none => simp [hc] at h
      | some c =>
        simp only [hc, Option.map_eq_some_iff] at h
        obtain ⟨t, ht, rfl⟩ := h
        rw [utf8_cons, utf8_of_fromUtf8Fuel n _ t ht]
        exact encode_of_firstChar hc

/-- What decodes is the encoding of what it decodes to. -/
lemma utf8_of_fromUtf8 {bs : Bytes} (h : fromUtf8 bs = some s) : utf8 s = bs :=
  utf8_of_fromUtf8Fuel _ _ _ h

/-! ### ASCII inside an encoding -/

/-- The byte of an ASCII character. -/
def byteOf (c : Char) : UInt8 := UInt8.ofNat c.toNat

lemma encode_ascii (h : c.toNat < 128) : String.utf8EncodeChar c = [byteOf c] := by
  have hle : c.val ≤ 127 := by
    exact Nat.lt_succ_iff.mp h
  rw [String.utf8EncodeChar_eq_singleton (Char.utf8Size_eq_one_iff.mpr hle)]
  rfl

/-- Every byte of a longer encoding has its top bit set. -/
lemma encode_nonascii (h : 128 ≤ c.toNat) : ∀ b ∈ String.utf8EncodeChar c, 128 ≤ b.toNat := by
  have hv : c.val.toNat = c.toNat := rfl
  intro b hb
  simp only [String.utf8EncodeChar] at hb
  split_ifs at hb with h1 h2 h3
  · omega
  all_goals
    simp only [mem_cons, not_mem_nil, or_false] at hb
    rcases hb with rfl | hb
    · simp only [UInt8.toNat_ofNat']
      omega
  · subst hb
    simp only [UInt8.toNat_ofNat']
    omega
  · rcases hb with rfl | rfl <;> (simp only [UInt8.toNat_ofNat']; omega)
  · rcases hb with rfl | rfl | rfl <;> (simp only [UInt8.toNat_ofNat']; omega)

lemma byteOf_toNat (h : c.toNat < 128) : (byteOf c).toNat = c.toNat := by
  rw [byteOf, UInt8.toNat_ofNat']
  omega

/-- An ASCII byte of an encoded string is one of its ASCII characters. -/
lemma mem_utf8_ascii {b : UInt8} (hb : b.toNat < 128) :
    b ∈ utf8 s ↔ ∃ c ∈ s, c.toNat = b.toNat := by
  rw [utf8, mem_flatMap]
  refine exists_congr fun c => and_congr_right fun _ => ⟨fun h => ?_, fun h => ?_⟩
  · by_cases hc : c.toNat < 128
    · rw [encode_ascii hc, mem_singleton] at h
      rw [h, byteOf_toNat hc]
    · exact absurd (encode_nonascii (by omega) b h) (by omega)
  · rw [encode_ascii (by omega), mem_singleton]
    exact UInt8.toNat_inj.mp (by rw [byteOf_toNat (by omega), h])

lemma mem_utf8_iff (hc : c.toNat < 128) : byteOf c ∈ utf8 s ↔ c ∈ s := by
  rw [mem_utf8_ascii (by rwa [byteOf_toNat hc]), byteOf_toNat hc]
  constructor
  · rintro ⟨d, hd, heq⟩
    rwa [← Char.toNat_inj.mp heq]
  · exact fun h => ⟨c, h, rfl⟩

/-- An ASCII byte of an encoded string cuts the string where it cuts the encoding. -/
lemma utf8_eq_append {b : UInt8} (hb : b.toNat < 128) {ys : Bytes} : ∀ {t : Str} {xs : Bytes},
    utf8 t = xs ++ b :: ys →
      ∃ t₁ c t₂, t = t₁ ++ c :: t₂ ∧ utf8 t₁ = xs ∧ c.toNat = b.toNat ∧ utf8 t₂ = ys := by
  intro t
  induction t with
  | nil => intro xs h; simp at h
  | cons c t ih =>
    intro xs h
    rcases append_eq_append_iff.mp h with ⟨zs, hxs, hr⟩ | ⟨zs, henc, hr⟩
    · obtain ⟨t₁, d, t₂, rfl, ht₁, hd, ht₂⟩ := ih hr
      exact ⟨c :: t₁, d, t₂, rfl, by rw [utf8_cons, ht₁, hxs], hd, ht₂⟩
    · -- the byte comes from the first character, or right after it
      cases zs with
      | nil =>
        rw [append_nil] at henc
        obtain ⟨t₁, d, t₂, rfl, ht₁, hd, ht₂⟩ := ih (show utf8 t = [] ++ b :: ys from hr.symm)
        exact ⟨c :: t₁, d, t₂, rfl, by rw [utf8_cons, ht₁, append_nil, henc], hd, ht₂⟩
      | cons z zs =>
        obtain ⟨rfl, hys⟩ := List.cons.inj hr
        by_cases hc : c.toNat < 128
        · rw [encode_ascii hc] at henc
          have hl := congrArg List.length henc
          simp only [length_append, length_cons, length_nil] at hl
          obtain rfl : xs = [] := length_eq_zero_iff.mp (by omega)
          obtain rfl : zs = [] := length_eq_zero_iff.mp (by omega)
          rw [nil_append, singleton_inj] at henc
          exact ⟨[], c, t, rfl, rfl, by rw [← henc, byteOf_toNat hc], hys.symm⟩
        · have hm : b ∈ String.utf8EncodeChar c := by rw [henc]; simp
          have := encode_nonascii (Nat.not_lt.mp hc) b hm
          omega

/-- Decoding goes around an ASCII byte. -/
lemma fromUtf8_append_ascii (hc : c.toNat < 128) (xs ys : Bytes) :
    fromUtf8 (xs ++ byteOf c :: ys) =
      (fromUtf8 xs).bind fun s => (fromUtf8 ys).map fun t => s ++ c :: t := by
  ext u
  simp only [Option.bind_eq_some_iff, Option.map_eq_some_iff]
  constructor
  · intro h
    have hb := byteOf_toNat hc
    obtain ⟨s, d, t, rfl, rfl, hd, rfl⟩ :=
      utf8_eq_append (by rw [hb]; exact hc) (utf8_of_fromUtf8 h)
    obtain rfl : d = c := Char.toNat_inj.mp (hd.trans hb)
    exact ⟨s, fromUtf8_utf8 s, t, fromUtf8_utf8 t, rfl⟩
  · rintro ⟨s, hs, t, ht, rfl⟩
    rw [← utf8_of_fromUtf8 hs, ← utf8_of_fromUtf8 ht, ← fromUtf8_utf8 (s ++ c :: t), utf8_append,
      utf8_cons, encode_ascii hc, singleton_append]

/-- A byte test that only ASCII passes holds of an encoding when it holds of its characters. -/
lemma all_utf8_iff {p : UInt8 → Bool} (hp : ∀ b, p b = true → b.toNat < 128) :
    (utf8 s).all p = true ↔ ∀ c ∈ s, c.toNat < 128 ∧ p (byteOf c) = true := by
  simp only [all_eq_true, utf8, mem_flatMap]
  constructor
  · intro h c hc
    by_cases hlt : c.toNat < 128
    · exact ⟨hlt, h _ ⟨c, hc, by rw [encode_ascii hlt]; exact mem_singleton_self _⟩⟩
    · obtain ⟨b, hb⟩ : ∃ b, b ∈ String.utf8EncodeChar c := by
        refine exists_mem_of_length_pos ?_
        rw [String.length_utf8EncodeChar]
        exact Char.utf8Size_pos c
      exact absurd (hp b (h b ⟨c, hc, hb⟩))
        (Nat.not_lt.mpr (encode_nonascii (Nat.not_lt.mp hlt) b hb))
  · rintro h b ⟨c, hc, hb⟩
    obtain ⟨hlt, hpc⟩ := h c hc
    rw [encode_ascii hlt, mem_singleton] at hb
    rw [hb]
    exact hpc

/-! ## Cutting at a byte -/

/-- `str::split_at`, which needs a place between two characters. -/
def splitAtByte (s : Str) (mid : ℕ) : Option (Str × Str) :=
  if mid ≤ (utf8 s).length then do
    return (← fromUtf8 ((utf8 s).take mid), ← fromUtf8 ((utf8 s).drop mid))
  else none

lemma splitAtByte_append (a b : Str) : splitAtByte (a ++ b) (utf8 a).length = some (a, b) := by
  rw [splitAtByte, utf8_append, if_pos (by simp), take_left, drop_left, fromUtf8_utf8,
    fromUtf8_utf8]
  rfl

/-- One byte that is not ASCII is no text. -/
lemma fromUtf8_singleton {b : UInt8} (hb : 128 ≤ b.toNat) : fromUtf8 [b] = none := by
  rw [Option.eq_none_iff_forall_ne_some]
  intro t ht
  have hby : utf8 t = [b] := utf8_of_fromUtf8 ht
  cases t with
  | nil => cases hby
  | cons c rest =>
    rw [utf8_cons] at hby
    have hs : c.utf8Size = 1 := by
      have hp := Char.utf8Size_pos c
      have hl := congrArg List.length hby
      rw [length_append, String.length_utf8EncodeChar, length_singleton] at hl
      omega
    have hc : c.toNat < 128 :=
      Nat.lt_succ_iff.mpr (UInt32.le_iff_toNat_le.mp (Char.utf8Size_eq_one_iff.mp hs))
    rw [encode_ascii hc, singleton_append, List.cons.injEq] at hby
    rw [← hby.1, byteOf_toNat hc] at hb
    omega

/-- The last byte can be cut off if it is a character. -/
lemma splitAtByte_last (s : Str) (c : Char) :
    splitAtByte (s ++ [c]) ((utf8 (s ++ [c])).length - 1) =
      if c.toNat < 128 then some (s, [c]) else none := by
  split_ifs with hc
  · have hl : (utf8 (s ++ [c])).length - 1 = (utf8 s).length := by
      simp [encode_ascii hc]
    rw [hl, splitAtByte_append]
  · have hp := Char.utf8Size_pos c
    rcases eq_nil_or_concat' (String.utf8EncodeChar c) with hn | ⟨init, last, hco⟩
    · rw [← String.length_utf8EncodeChar, hn] at hp
      cases hp
    · have hla : 128 ≤ last.toNat := by
        refine encode_nonascii (Nat.not_lt.mp hc) last ?_
        rw [hco]
        exact mem_append_right _ mem_cons_self
      have hb : utf8 (s ++ [c]) = (utf8 s ++ init) ++ [last] := by
        rw [utf8_append, utf8_cons, utf8_nil, append_nil, hco, append_assoc]
      have hl : ((utf8 s ++ init) ++ [last]).length - 1 = (utf8 s ++ init).length := by
        rw [length_append, length_singleton, Nat.add_sub_cancel]
      rw [splitAtByte, if_pos (Nat.sub_le _ _), hb, hl, take_left, drop_left,
        fromUtf8_singleton hla]
      cases fromUtf8 (utf8 s ++ init) with
      | none => rfl
      | some before => rfl

/-! ## Shape -/

/-- `char::is_whitespace`: the Unicode `White_Space` property. -/
def isWhitespace (c : Char) : Bool :=
  let n := c.toNat
  (9 ≤ n && n ≤ 13) || n == 0x20 || n == 0x85 || n == 0xa0 || n == 0x1680 ||
    (0x2000 ≤ n && n ≤ 0x200a) || n == 0x2028 || n == 0x2029 || n == 0x202f || n == 0x205f ||
    n == 0x3000

/-- `str::trim`. -/
def trim (s : Str) : Str := (s.dropWhile isWhitespace).rdropWhile isWhitespace

lemma trim_eq_nil_iff : trim s = [] ↔ ∀ c ∈ s, isWhitespace c = true := by
  rw [trim, rdropWhile_eq_nil_iff]
  constructor
  · intro h c hc
    by_contra hne
    have hd : s.dropWhile isWhitespace ≠ [] := by
      rw [ne_eq, dropWhile_eq_nil_iff]
      exact fun ha => hne (ha c hc)
    have hh := dropWhile_get_zero_not isWhitespace s (length_pos_of_ne_nil hd)
    exact hh (h _ (get_mem _ _))
  · exact fun h c hc => h c (dropWhile_sublist _ |>.subset hc)

/-- Trimming only removes characters. -/
lemma mem_of_mem_trim (h : c ∈ trim s) : c ∈ s :=
  (dropWhile_sublist _).subset (( rdropWhile_prefix isWhitespace _).subset h)

/-- What is not white space stays. -/
lemma mem_trim (h : c ∈ s) (hc : isWhitespace c = false) : c ∈ trim s := by
  have hd : c ∈ s.dropWhile isWhitespace := by
    rw [← takeWhile_append_dropWhile (p := isWhitespace) (l := s), mem_append] at h
    rcases h with h | h
    · rw [mem_takeWhile_imp h] at hc
      cases hc
    · exact h
  rw [← rdropWhile_append_rtakeWhile (p := isWhitespace) (l := s.dropWhile isWhitespace),
    mem_append] at hd
  rcases hd with hd | hd
  · exact hd
  · rw [mem_rtakeWhile_imp hd] at hc
    cases hc

/-- A string trimmed twice is blank if it was blank. -/
lemma trim_trim_eq_nil_iff : trim (trim s) = [] ↔ trim s = [] := by
  constructor
  · intro h
    rw [trim_eq_nil_iff] at h ⊢
    intro c hc
    by_contra hs
    exact hs (h c (mem_trim hc (by simpa using hs)))
  · intro h
    rw [h]
    rfl

/-- Trimming once is enough. -/
lemma trim_trim (s : Str) : trim (trim s) = trim s := by
  have hd : (trim s).dropWhile isWhitespace = trim s := by
    have hp : trim s <+: s.dropWhile isWhitespace := rdropWhile_prefix _ _
    cases ht : trim s with
    | nil => rfl
    | cons c rest =>
      -- the first character that is left was the first that was not white space
      rw [ht] at hp
      obtain ⟨more, hm⟩ := hp
      have hf : isWhitespace c = false := by
        have hh := List.head?_dropWhile_not isWhitespace s
        rw [← hm, cons_append] at hh
        simpa using hh
      rw [dropWhile_cons_of_neg (by simp [hf])]
  conv_lhs => rw [trim, hd]
  rw [trim, rdropWhile_idempotent]

lemma trim_space_cons (s : Str) : trim (' ' :: s) = trim s := rfl

/-- What `trim` takes off: white space on either side. -/
lemma exists_trim_append (s : Str) : ∃ after, s.dropWhile isWhitespace = trim s ++ after ∧
    ∀ c ∈ after, isWhitespace c = true := by
  refine ⟨(s.dropWhile isWhitespace).rtakeWhile isWhitespace, ?_, fun c hc => ?_⟩
  · exact rdropWhile_append_rtakeWhile.symm
  · exact mem_rtakeWhile_imp hc

/-- Nothing is trimmed off a string without white space at its ends. -/
lemma trim_of_ends (hf : ∀ c ∈ s.head?, isWhitespace c = false)
    (hl : ∀ c ∈ s.getLast?, isWhitespace c = false) : trim s = s := by
  have hd : s.dropWhile isWhitespace = s := by
    rw [dropWhile_eq_self_iff]
    intro hp
    have hz := hf s[0] (by rw [List.head?_eq_getElem?, List.getElem?_eq_getElem hp]; rfl)
    simp [hz]
  rw [trim, hd, rdropWhile_eq_self_iff]
  intro hne
  simp [hl _ (getLast_mem_getLast? hne)]

/-- Nothing is trimmed off a string without white space. -/
lemma trim_of_forall (h : ∀ c ∈ s, isWhitespace c = false) : trim s = s :=
  trim_of_ends (fun c hc => h c (mem_of_mem_head? hc))
    fun c hc => h c (mem_of_mem_getLast? hc)

/-- `s.split("\r\n")`. -/
def splitCrlf : Str → List Str
  | [] => [[]]
  | '\r' :: '\n' :: rest => [] :: splitCrlf rest
  | c :: rest =>
    match splitCrlf rest with
    | [] => [[c]]
    | line :: lines => (c :: line) :: lines

/-- `str::lines`: every line feed ends a line, and a carriage return before it goes with it. -/
def strLines (s : Str) : List Str :=
  let parts := s.splitOn '\n'
  let last := parts.getLastD []
  (parts.dropLast.map fun line => if line.getLast? = some '\r' then line.dropLast else line) ++
    if last = [] then [] else [last]

/-- `str::split_whitespace`. -/
def splitWhitespace (s : Str) : List Str := (s.splitOnP isWhitespace).filter (· ≠ [])

/-- Words with a space between two of them are told apart again. -/
lemma splitWhitespace_intercalate {words : List Str}
    (h : ∀ word ∈ words, word ≠ [] ∧ ∀ c ∈ word, isWhitespace c = false) :
    splitWhitespace ([' '].intercalate words) = words := by
  induction words with
  | nil => rfl
  | cons word more ih =>
    obtain ⟨⟨hne, hs⟩, hm⟩ := forall_mem_cons.mp h
    cases more with
    | nil =>
      rw [intercalate_singleton, splitWhitespace, splitOnP_eq_singleton hs]
      simp [hne]
    | cons next more =>
      rw [intercalate_cons_cons, append_assoc, singleton_append,
        splitWhitespace, splitOnP_append_cons_of_forall_mem hs ' ' rfl,
        filter_cons_of_pos (by simpa using hne)]
      exact congrArg (word :: ·) (ih hm)

/-- `s.split_once(sep)`: what stands before and after the first separator. -/
def splitOnce (sep : Char) : Str → Option (Str × Str)
  | [] => none
  | c :: rest => if c = sep then some ([], rest) else (splitOnce sep rest).map (Prod.map (c :: ·) id)

lemma splitOnce_append {a : Str} (h : sep ∉ a) (b : Str) :
    splitOnce sep (a ++ sep :: b) = some (a, b) := by
  induction a with
  | nil => simp [splitOnce]
  | cons c a ih =>
    rw [mem_cons, not_or] at h
    rw [cons_append, splitOnce, if_neg (Ne.symm h.1), ih h.2]
    rfl

/-- `str::rsplit_once` for one character. -/
def rsplitOnce (sep : Char) (s : Str) : Option (Str × Str) :=
  (splitOnce sep s.reverse).map fun p => (p.2.reverse, p.1.reverse)

lemma splitOnce_eq_none : splitOnce sep s = none ↔ sep ∉ s := by
  induction s with
  | nil => simp [splitOnce]
  | cons c rest ih =>
    rw [splitOnce]
    by_cases hc : c = sep
    · simp [hc]
    · rw [if_neg hc, Option.map_eq_none_iff, ih, mem_cons, not_or]
      exact ⟨fun h => ⟨fun heq => hc heq.symm, h⟩, fun h => h.2⟩

/-- The parts around the first separator. -/
lemma splitOnce_eq_some {a b : Str} (h : splitOnce sep s = some (a, b)) :
    s = a ++ sep :: b ∧ sep ∉ a := by
  induction s generalizing a with
  | nil => cases h
  | cons c rest ih =>
    rw [splitOnce] at h
    by_cases hc : c = sep
    · rw [if_pos hc] at h
      cases h
      exact ⟨by rw [hc, nil_append], not_mem_nil⟩
    · rw [if_neg hc, Option.map_eq_some_iff] at h
      obtain ⟨⟨a', b'⟩, hr, heq⟩ := h
      cases heq
      obtain ⟨hs, hn⟩ := ih hr
      refine ⟨by rw [hs]; rfl, ?_⟩
      rintro (_ | ⟨_, hm⟩)
      · exact hc rfl
      · exact hn hm

lemma rsplitOnce_eq_none : rsplitOnce sep s = none ↔ sep ∉ s := by
  rw [rsplitOnce, Option.map_eq_none_iff, splitOnce_eq_none, mem_reverse]

lemma rsplitOnce_append {b : Str} (h : sep ∉ b) (a : Str) :
    rsplitOnce sep (a ++ sep :: b) = some (a, b) := by
  have hb : sep ∉ b.reverse := by rwa [mem_reverse]
  rw [rsplitOnce, reverse_append, reverse_cons, append_assoc, singleton_append,
    splitOnce_append hb]
  simp

/-- The parts around the last separator. -/
lemma rsplitOnce_eq_some {a b : Str} (h : rsplitOnce sep s = some (a, b)) :
    s = a ++ sep :: b ∧ sep ∉ b := by
  rw [rsplitOnce, Option.map_eq_some_iff] at h
  obtain ⟨⟨x, y⟩, hsp, heq⟩ := h
  cases heq
  obtain ⟨hs, hn⟩ := splitOnce_eq_some hsp
  refine ⟨?_, by rwa [mem_reverse]⟩
  rw [← reverse_reverse s, hs, reverse_append, reverse_cons, append_assoc,
    singleton_append]

/-- The characters of the pieces of a text are its characters but the separators. -/
lemma mem_splitOn_iff (hne : c ≠ sep) (s : Str) :
    (∃ piece ∈ s.splitOn sep, c ∈ piece) ↔ c ∈ s := by
  induction s with
  | nil => simp
  | cons d s ih =>
    obtain ⟨first, others, hs⟩ := exists_cons_of_ne_nil (splitOn_ne_nil sep s)
    rw [hs] at ih
    rw [List.splitOn, splitOnP_cons_eq_if_modifyHead, ← List.splitOn, hs]
    by_cases hd : d = sep
    · have hcd : c ≠ d := hd ▸ hne
      simpa [hd, hne] using ih
    · simp only [beq_iff_eq, hd, mem_cons, ← ih]
      simp [or_assoc]

/-- A piece is a part of the text without the separator. -/
lemma piece_of_mem_splitOn {piece : Str} (h : piece ∈ s.splitOn sep) :
    sep ∉ piece ∧ piece.Sublist s := by
  induction s generalizing piece with
  | nil =>
    rw [splitOn_nil, mem_singleton] at h
    rw [h]
    exact ⟨not_mem_nil, List.Sublist.refl []⟩
  | cons d s ih =>
    obtain ⟨first, others, hs⟩ := exists_cons_of_ne_nil (splitOn_ne_nil sep s)
    rw [hs] at ih
    rw [List.splitOn, splitOnP_cons_eq_if_modifyHead, ← List.splitOn, hs] at h
    by_cases hd : d = sep
    · simp only [beq_iff_eq, hd] at h
      rcases mem_cons.mp h with rfl | h
      · exact ⟨not_mem_nil, nil_sublist _⟩
      · obtain ⟨hsep, hsub⟩ := ih h
        exact ⟨hsep, hsub.cons d⟩
    · simp only [beq_iff_eq, hd] at h
      rcases mem_cons.mp h with rfl | h
      · obtain ⟨hsep, hsub⟩ := ih mem_cons_self
        exact ⟨not_mem_cons_of_ne_of_not_mem (Ne.symm hd) hsep, hsub.cons_cons d⟩
      · obtain ⟨hsep, hsub⟩ := ih (mem_cons_of_mem first h)
        exact ⟨hsep, hsub.cons d⟩

/-- `str::trim_end_matches` for one character. -/
def trimEndMatches (c : Char) (s : Str) : Str := s.rdropWhile (· == c)

/-- `str::eq_ignore_ascii_case`. -/
def eqIgnoreAsciiCase (a b : Str) : Bool := a.map Char.toLower == b.map Char.toLower

/-- `str::to_ascii_lowercase`. -/
def toAsciiLowercase (s : Str) : Str := s.map Char.toLower

/-- Only letters become other characters. -/
lemma toLower_eq_iff {d : Char} (hd : d.isAlpha = false) : c.toLower = d ↔ c = d := by
  unfold Char.isAlpha Char.isUpper Char.isLower at hd
  rw [Bool.or_eq_false_iff] at hd
  obtain ⟨hu, hl⟩ := hd
  simp only [Bool.and_eq_false_iff, decide_eq_false_iff_not] at hu hl
  unfold Char.toLower
  by_cases hc : c.val ≥ 'A'.val ∧ c.val ≤ 'Z'.val
  · -- neither a letter nor its lower-case form is `d`
    rw [dif_pos hc]
    obtain ⟨hlo, hhi⟩ := hc
    have hlo : 65 ≤ c.val.toNat := UInt32.le_iff_toNat_le.mp hlo
    have hhi : c.val.toNat ≤ 90 := UInt32.le_iff_toNat_le.mp hhi
    have hu : ¬(65 ≤ d.val.toNat ∧ d.val.toNat ≤ 90) := hu
    have hl : ¬97 ≤ d.val.toNat ∨ ¬d.val.toNat ≤ 122 := hl
    constructor
    · intro h
      have hv : c.val + 32 = d.val := congrArg Char.val h
      have hn := congrArg UInt32.toNat hv
      simp only [UInt32.toNat_add, UInt32.reduceToNat] at hn
      omega
    · rintro rfl
      omega
  · rw [dif_neg hc]

lemma mem_toAsciiLowercase {d : Char} (hd : d.isAlpha = false) :
    d ∈ toAsciiLowercase s ↔ d ∈ s := by
  rw [toAsciiLowercase, mem_map]
  constructor
  · rintro ⟨c, hc, heq⟩
    rwa [← (toLower_eq_iff hd).mp heq]
  · intro h
    exact ⟨d, h, (toLower_eq_iff hd).mpr rfl⟩

@[simp] lemma length_toAsciiLowercase (s : Str) : (toAsciiLowercase s).length = s.length :=
  length_map _

/-! ## Numbers -/

/-- Decimal digits of a number, as `to_string` writes them. -/
def decimal (n : ℕ) : Str := Nat.toDigits 10 n

/-- A number may be written with a leading plus sign. -/
def stripPlus : Str → Str
  | '+' :: rest => rest
  | s => s

/-- `s.parse()` into an unsigned integer below `bound`. -/
def parseUnsigned (bound : ℕ) (s : Str) : Option ℕ :=
  let digits := stripPlus s
  if digits ≠ [] ∧ digits.all Char.isDigit ∧ Nat.ofDigitChars 10 digits 0 < bound then
    some (Nat.ofDigitChars 10 digits 0)
  else none

lemma isDigit_of_mem_decimal {n : ℕ} (h : c ∈ decimal n) : c.isDigit = true :=
  Nat.isDigit_of_mem_toDigits (by decide) (by decide) h

/-- Digits are no white space. -/
lemma isWhitespace_of_isDigit (h : c.isDigit = true) : isWhitespace c = false := by
  simp only [Char.isDigit, Bool.and_eq_true, decide_eq_true_eq] at h
  obtain ⟨hlo, hhi⟩ : 48 ≤ c.toNat ∧ c.toNat ≤ 57 := h
  simp only [isWhitespace, Bool.or_eq_false_iff, Bool.and_eq_false_iff, decide_eq_false_iff_not,
    beq_eq_false_iff_ne]
  omega

lemma trim_digits (h : ∀ c ∈ s, c.isDigit = true) : trim s = s :=
  trim_of_forall fun c hc => isWhitespace_of_isDigit (h c hc)

lemma trim_decimal (n : ℕ) : trim (decimal n) = decimal n :=
  trim_digits fun _ hc => isDigit_of_mem_decimal hc

lemma decimal_ne_nil (n : ℕ) : decimal n ≠ [] := Nat.toDigits_ne_nil

lemma stripPlus_digits (h : ∀ c ∈ s, c.isDigit = true) : stripPlus s = s := by
  unfold stripPlus
  split
  · exact absurd (h '+' mem_cons_self) (by decide)
  · rfl

/-- The text is a number in decimal digits, perhaps with zeros in front. -/
structure Numeral (text : Str) (n : ℕ) : Prop where
  ne_nil : text ≠ []
  digits : ∀ c ∈ text, c.isDigit = true
  value : Nat.ofDigitChars 10 text 0 = n

lemma numeral_decimal (n : ℕ) : Numeral (decimal n) n :=
  ⟨decimal_ne_nil n, fun _ hc => isDigit_of_mem_decimal hc, Nat.ofDigitChars_ten_toDigits⟩

/-- Zeros in front do not change the value. -/
lemma Numeral.zeros {text : Str} {n : ℕ} (h : Numeral text n) (k : ℕ) :
    Numeral (List.replicate k '0' ++ text) n := by
  refine ⟨append_ne_nil_of_right_ne_nil _ h.ne_nil, fun c hc => ?_, ?_⟩
  · rcases mem_append.mp hc with hz | hd
    · rw [eq_of_mem_replicate hz]
      decide
    · exact h.digits c hd
  · induction k with
    | zero => exact h.value
    | succ k ih => exact ih

lemma Numeral.parseUnsigned {text : Str} {bound n : ℕ} (h : Numeral text n) (hn : n < bound) :
    parseUnsigned bound text = some n := by
  rw [Core.parseUnsigned, stripPlus_digits h.digits, h.value,
    if_pos ⟨h.ne_nil, all_eq_true.mpr h.digits, hn⟩]

/-- What `decimal` prints reads back as the same number. -/
lemma parseUnsigned_decimal {bound n : ℕ} (h : n < bound) :
    parseUnsigned bound (decimal n) = some n := (numeral_decimal n).parseUnsigned h

end Core
