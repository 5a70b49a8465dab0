import Veysrs.Core.Text

/-!
# IP addresses

`std::net::IpAddr` and the text its `Display` writes: dotted decimals for version 4; groups of
hexadecimal digits for version 6, with the first longest run of two or more zero groups left out
and a mapped version 4 address at the end written in decimals.  No text of an address has a
character other than hexadecimal digits, colons and dots (`isAddressChar_of_mem_text`).

`parse` is `FromStr for IpAddr`.  Its reader is greedy: a number takes every digit there is, and is
refused if they are too many.
-/

namespace Core

inductive IpAddr where
  | v4 (a b c d : UInt8)
  | v6 (segments : Vector UInt16 8)
  deriving DecidableEq, Repr

open List

namespace IpAddr

def v4Text (a b c d : ℕ) : Str := ['.'].intercalate ([a, b, c, d].map decimal)

/-- `{:x}`. -/
def hex (n : ℕ) : Str := Nat.toDigits 16 n

/-- A run of zero groups. -/
structure Span where
  start : ℕ := 0
  len : ℕ := 0

/-- The loop that looks for the longest run; `index` is the position of the group it looks at. -/
def zeroSpan (longest current : Span) (index : ℕ) : List UInt16 → Span
  | [] => longest
  | segment :: rest =>
    if segment = 0 then
      let current : Span :=
        { start := if current.len = 0 then index else current.start, len := current.len + 1 }
      zeroSpan (if longest.len < current.len then current else longest) current (index + 1) rest
    else zeroSpan longest {} (index + 1) rest

/-- Groups separated by colons. -/
def groups (chunk : List UInt16) : Str := [':'].intercalate (chunk.map fun s => hex s.toNat)

def v6Text (segments : List UInt16) : Str :=
  -- a mapped version 4 address
  if segments.take 6 = [0, 0, 0, 0, 0, 0xffff] then
    let ab := (segments.getD 6 0).toNat
    let cd := (segments.getD 7 0).toNat
    "::ffff:".toList ++ v4Text (ab / 256) (ab % 256) (cd / 256) (cd % 256)
  else
    let zeroes := zeroSpan {} {} 0 segments
    if 1 < zeroes.len then
      groups (segments.take zeroes.start) ++ "::".toList ++
        groups (segments.drop (zeroes.start + zeroes.len))
    else groups segments

/-- `Display for IpAddr`. -/
def text : IpAddr → Str
  | v4 a b c d => v4Text a.toNat b.toNat c.toNat d.toNat
  | v6 segments => v6Text segments.toList

/-! ## Characters -/

def isAddressChar (c : Char) : Bool :=
  c.isDigit || ('a' ≤ c && c ≤ 'f') || c == ':' || c == '.'

lemma isAddressChar_of_mem_hex (n : ℕ) : ∀ c ∈ hex n, isAddressChar c = true := by
  induction n using Nat.strongRecOn with
  | ind n ih =>
    have hd : ∀ d < 16, isAddressChar (Nat.digitChar d) = true := by decide
    intro c hc
    rw [hex, Nat.toDigits_eq_if (by decide)] at hc
    split_ifs at hc with hlt
    · rw [mem_singleton] at hc
      exact hc ▸ hd n hlt
    · rw [mem_append, mem_singleton] at hc
      rcases hc with hc | rfl
      · exact ih (n / 16) (by omega) c hc
      · exact hd _ (Nat.mod_lt n (by decide))

lemma forall_mem_intercalate {p : Char → Bool} {sep : Char} (hs : p sep = true)
    {parts : List Str} (h : ∀ part ∈ parts, ∀ c ∈ part, p c = true) :
    ∀ c ∈ [sep].intercalate parts, p c = true := by
  induction parts with
  | nil => simp
  | cons part parts ih =>
    have hp := h part mem_cons_self
    have hr := ih fun q hq => h q (mem_cons_of_mem part hq)
    cases parts with
    | nil => simpa using hp
    | cons q parts =>
      intro c hc
      rw [intercalate_cons_cons, mem_append, mem_append,
        mem_singleton] at hc
      rcases hc with (hc | rfl) | hc
      · exact hp c hc
      · exact hs
      · exact hr c hc

lemma isAddressChar_of_mem_v4Text {a b c d : ℕ} :
    ∀ x ∈ v4Text a b c d, isAddressChar x = true := by
  refine forall_mem_intercalate rfl fun part hp x hx => ?_
  obtain ⟨n, _, rfl⟩ := mem_map.mp hp
  simp [isAddressChar, isDigit_of_mem_decimal hx]

lemma isAddressChar_of_mem_groups {chunk : List UInt16} :
    ∀ x ∈ groups chunk, isAddressChar x = true := by
  refine forall_mem_intercalate rfl fun part hp x hx => ?_
  obtain ⟨s, _, rfl⟩ := mem_map.mp hp
  exact isAddressChar_of_mem_hex _ x hx

/-- **The text of an address is made of hexadecimal digits, colons and dots.** -/
lemma isAddressChar_of_mem_text (ip : IpAddr) : ∀ x ∈ ip.text, isAddressChar x = true := by
  cases ip with
  | v4 a b c d => exact isAddressChar_of_mem_v4Text
  | v6 segments =>
    simp only [text, v6Text]
    split_ifs
    · exact forall_mem_append.mpr ⟨all_eq_true.mp rfl, isAddressChar_of_mem_v4Text⟩
    · exact forall_mem_append.mpr ⟨forall_mem_append.mpr
        ⟨isAddressChar_of_mem_groups, all_eq_true.mp rfl⟩, isAddressChar_of_mem_groups⟩
    · exact isAddressChar_of_mem_groups

/-- There is no white space in the text of an address. -/
lemma trim_text (ip : IpAddr) : trim ip.text = ip.text := by
  refine trim_of_forall fun c hc => ?_
  have ha := isAddressChar_of_mem_text ip c hc
  rw [Bool.eq_false_iff]
  intro hs
  have hw : ∀ n ∈ [0x20, 0x85, 0xa0, 0x1680, 0x2028, 0x2029, 0x202f, 0x205f, 0x3000] ++
      List.range' 9 5 ++ List.range' 0x2000 11, isAddressChar (Char.ofNat n) = false := by
    decide
  have hm : c.toNat ∈ [0x20, 0x85, 0xa0, 0x1680, 0x2028, 0x2029, 0x202f, 0x205f, 0x3000] ++
      List.range' 9 5 ++ List.range' 0x2000 11 := by
    simp only [isWhitespace, Bool.or_eq_true, Bool.and_eq_true, decide_eq_true_eq,
      beq_iff_eq] at hs
    simp only [mem_append, mem_cons, mem_range'_1]
    omega
  have hn := hw _ hm
  rw [Char.ofNat_toNat, ha] at hn
  cases hn

example : (v6 #v[0x2001, 0xdb8, 0, 0, 1, 0, 0, 1]).text = "2001:db8::1:0:0:1".toList := by decide

/-! ## Reading -/

/-- `char::to_digit`, for a radix up to sixteen. -/
def toDigit (radix : ℕ) (c : Char) : Option ℕ :=
  let value :=
    if c.isDigit then some (c.toNat - 48)
    else if 'a' ≤ c ∧ c ≤ 'f' then some (c.toNat - 87)
    else if 'A' ≤ c ∧ c ≤ 'F' then some (c.toNat - 55)
    else none
  value.filter (· < radix)

/-- `Parser::read_number`, with what is left of the text. -/
def readNumber (radix maxDigits bound : ℕ) (allowZeroPrefix : Bool) (s : Str) : Option (ℕ × Str) :=
  let digits := s.takeWhile fun c => (toDigit radix c).isSome
  let value := (digits.filterMap (toDigit radix)).foldl (fun n d => n * radix + d) 0
  if digits = [] ∨ maxDigits < digits.length ∨
      (!allowZeroPrefix ∧ digits.head? = some '0' ∧ 1 < digits.length) ∨ bound ≤ value then none
  else some (value, s.drop digits.length)

/-- `Parser::read_given_char`. -/
def readGivenChar (c : Char) : Str → Option Str
  | [] => none
  | d :: rest => if d = c then some rest else none

/-- `Parser::read_ipv4_addr`; no octet but zero starts with a zero. -/
def readIpv4Addr (s : Str) : Option ((ℕ × ℕ × ℕ × ℕ) × Str) := do
  let (a, s) ← readNumber 10 3 256 false s
  let (b, s) ← readNumber 10 3 256 false (← readGivenChar '.' s)
  let (c, s) ← readNumber 10 3 256 false (← readGivenChar '.' s)
  let (d, s) ← readNumber 10 3 256 false (← readGivenChar '.' s)
  return ((a, b, c, d), s)

/-- `Parser::read_separator`: a colon stands before every group but the first. -/
def readSeparator {α : Type} (first : Bool) (inner : Str → Option α) (s : Str) : Option α :=
  if first then inner s else (readGivenChar ':' s).bind inner

/-- The groups read, whether the last two are an embedded version 4 address, and what is left. -/
structure Groups where
  groups : List ℕ
  ipv4 : Bool
  rest : Str

/-- `read_groups`, with the number of groups there is room for. -/
def readGroups : ℕ → Bool → Str → Groups
  | 0, _, s => ⟨[], false, s⟩
  | limit + 1, first, s =>
    -- an embedded address takes two groups
    match if 0 < limit then readSeparator first readIpv4Addr s else none with
    | some ((a, b, c, d), rest) => ⟨[a * 256 + b, c * 256 + d], true, rest⟩
    | none =>
      match readSeparator first (readNumber 16 4 65536 true) s with
      | none => ⟨[], false, s⟩
      | some (group, rest) =>
        let more := readGroups limit false rest
        { more with groups := group :: more.groups }

/-- `Parser::read_ipv6_addr`. -/
def readIpv6Addr (s : Str) : Option (List ℕ × Str) :=
  let head := readGroups 8 true s
  if head.groups.length = 8 then some (head.groups, head.rest)
  else if head.ipv4 then none
  else do
    let rest ← readGivenChar ':' (← readGivenChar ':' head.rest)
    -- the colons stand for one group at least
    let tail := readGroups (8 - (head.groups.length + 1)) true rest
    let zeroes := List.replicate (8 - head.groups.length - tail.groups.length) 0
    return (head.groups ++ zeroes ++ tail.groups, tail.rest)

def ofGroups (groups : List ℕ) : IpAddr :=
  v6 (Vector.ofFn fun i : Fin 8 => UInt16.ofNat (groups.getD i 0))

/-- `FromStr for IpAddr`: the text has to be read to its end. -/
def parse (s : Str) : Option IpAddr :=
  match readIpv4Addr s with
  | some ((a, b, c, d), rest) =>
    if rest = [] then some (v4 (.ofNat a) (.ofNat b) (.ofNat c) (.ofNat d)) else none
  | none =>
    match readIpv6Addr s with
    | some (groups, rest) => if rest = [] then some (ofGroups groups) else none
    | none => none

example : parse "2001:db8::1:0:0:1".toList = some (v6 #v[0x2001, 0xdb8, 0, 0, 1, 0, 0, 1]) := by
  decide

end IpAddr

end Core
