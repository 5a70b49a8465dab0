import Veysrs.Core.Text

/-!
# FastCGI records

The record layer of FastCGI for the one request a connection carries: a header of eight bytes, the
content, and padding that means nothing.  `parse` cuts one record off the front of a byte string;
it undoes `Record.encode` whatever follows (`parse_encode`), and so does `parseAll` for a whole
stream (`parseAll_encodeAll`).  `chunks` is the cutting of a content into records, and `scan` the
output in the records of a response.
-/

namespace Core

open List

/-! ## Cutting into pieces -/

section Chunks

variable {α : Type*}

/-- `slice::chunks`, with the length as fuel: every piece takes at least one element. -/
def chunksFuel (n : ℕ) : ℕ → List α → List (List α)
  | _, [] => []
  | 0, x :: xs => [x :: xs]
  | fuel + 1, x :: xs => (x :: xs).take n :: chunksFuel n fuel ((x :: xs).drop n)

def chunks (n : ℕ) (xs : List α) : List (List α) := chunksFuel n xs.length xs

lemma flatten_chunks (n : ℕ) (xs : List α) : (chunks n xs).flatten = xs := by
  suffices h : ∀ fuel (xs : List α), (chunksFuel n fuel xs).flatten = xs from h _ xs
  intro fuel
  induction fuel with
  | zero =>
    intro xs
    cases xs with
    | nil => rfl
    | cons x xs => simp [chunksFuel]
  | succ fuel ih =>
    intro xs
    cases xs with
    | nil => rfl
    | cons x xs => rw [chunksFuel, flatten_cons, ih, take_append_drop]

lemma chunks_eq_cons (n : ℕ) {xs : List α} (h : xs ≠ []) :
    ∃ others, chunks n xs = xs.take n :: others := by
  cases xs with
  | nil => exact absurd rfl h
  | cons x xs => exact ⟨_, rfl⟩

lemma chunks_spec {n : ℕ} (hn : 0 < n) (xs : List α) :
    ∀ piece ∈ chunks n xs, piece ≠ [] ∧ piece.length ≤ n := by
  suffices h : ∀ fuel (xs : List α), xs.length ≤ fuel →
      ∀ piece ∈ chunksFuel n fuel xs, piece ≠ [] ∧ piece.length ≤ n from h _ xs le_rfl
  intro fuel
  induction fuel with
  | zero =>
    intro xs hl
    obtain rfl := eq_nil_of_length_eq_zero (Nat.le_zero.mp hl)
    simp [chunksFuel]
  | succ fuel ih =>
    intro xs hl
    cases xs with
    | nil => simp [chunksFuel]
    | cons x xs =>
      intro piece hp
      rw [chunksFuel, mem_cons] at hp
      rcases hp with rfl | hp
      · refine ⟨?_, length_take_le _ _⟩
        obtain ⟨m, rfl⟩ : ∃ m, n = m + 1 := ⟨n - 1, by omega⟩
        simp
      · refine ih _ ?_ piece hp
        simp only [length_drop] at hl ⊢
        omega

end Chunks

namespace FastCgi

/-! ## Records -/

def beginRequest : UInt8 := 1
def endRequest : UInt8 := 3
def params : UInt8 := 4
def stdin : UInt8 := 5
def stdout : UInt8 := 6
def stderr : UInt8 := 7

/-- A record of request 1; its length and that of its padding fit the header's fields. -/
structure Record where
  kind : UInt8
  content : Bytes
  padding : Bytes
  reserved : UInt8
  content_fits : content.length < 65536
  padding_fits : padding.length < 256

def Record.header (r : Record) : Bytes :=
  [1, r.kind, 0, 1, UInt8.ofNat (r.content.length / 256), UInt8.ofNat r.content.length,
    UInt8.ofNat r.padding.length, r.reserved]

def Record.encode (r : Record) : Bytes := r.header ++ (r.content ++ r.padding)

/-- What the front of a byte string is. -/
inductive Parsed where
  | incomplete
  | malformed
  | record (kind : UInt8) (content rest : Bytes)
  deriving DecidableEq, Repr

/-- Cut a record of request 1 off the front. -/
def parse : Bytes → Parsed
  | version :: kind :: id1 :: id0 :: length1 :: length0 :: padding :: _ :: rest =>
    if version ≠ 1 ∨ [id1, id0] ≠ [0, 1] then .malformed
    else
      let length := length1.toNat * 256 + length0.toNat
      if rest.length < length + padding.toNat then .incomplete
      else .record kind (rest.take length) (rest.drop (length + padding.toNat))
  | _ => .incomplete

/-- The fields of a header say how long content and padding are. -/
lemma Record.length_fields (r : Record) :
    (UInt8.ofNat (r.content.length / 256)).toNat * 256 + (UInt8.ofNat r.content.length).toNat =
      r.content.length ∧ (UInt8.ofNat r.padding.length).toNat = r.padding.length := by
  have hc := r.content_fits
  have hp := r.padding_fits
  simp only [UInt8.toNat_ofNat']
  omega

lemma parse_encode (r : Record) (rest : Bytes) :
    parse (r.encode ++ rest) = .record r.kind r.content rest := by
  obtain ⟨hl, hp⟩ := r.length_fields
  have hlo : ¬(r.content ++ r.padding ++ rest).length < r.content.length + r.padding.length := by
    simp only [length_append]
    omega
  have ht : (r.content ++ r.padding ++ rest).take r.content.length = r.content := by
    rw [append_assoc, take_left]
  have hd : (r.content ++ r.padding ++ rest).drop (r.content.length + r.padding.length) =
      rest := by
    rw [← length_append, drop_left]
  simp only [Record.encode, Record.header, cons_append, parse, hl, hp]
  simp

lemma parse_eq_record {bs : Bytes} {kind : UInt8} {content rest : Bytes}
    (h : parse bs = .record kind content rest) : rest.length + content.length + 8 ≤ bs.length := by
  unfold parse at h
  split at h
  · simp only at h
    split_ifs at h with hid hs
    obtain ⟨-, rfl, rfl⟩ := h
    simp only [length_cons, length_drop, length_take]
    omega
  · cases h

/-- What the front of a byte string is known to be, it is with more bytes after it. -/
lemma parse_append {bs : Bytes} (h : parse bs ≠ .incomplete) (more : Bytes) :
    parse (bs ++ more) = match parse bs with
      | .record kind content rest => .record kind content (rest ++ more)
      | parsed => parsed := by
  unfold parse at h
  split at h
  case h_2 => exact absurd rfl h
  case h_1 version kind id1 id0 length1 length0 padding reserved rest =>
    simp only [cons_append, parse]
    by_cases hid : version ≠ 1 ∨ [id1, id0] ≠ [0, 1]
    · simp only [if_pos hid]
    · simp only [if_neg hid] at h ⊢
      by_cases hs : rest.length < length1.toNat * 256 + length0.toNat + padding.toNat
      · exact absurd (if_pos hs) h
      · have hl : ¬(rest ++ more).length <
            length1.toNat * 256 + length0.toNat + padding.toNat := by
          rw [length_append]
          omega
        simp only [if_neg hs, if_neg hl]
        rw [take_append_of_le_length (by omega), drop_append_of_le_length (by omega)]

/-- The records of a whole stream; nothing if it is not made of records.  The number of bytes is
fuel enough. -/
def parseAllFuel : ℕ → Bytes → Option (List (UInt8 × Bytes))
  | _, [] => some []
  | 0, _ :: _ => none
  | fuel + 1, b :: bs =>
    match parse (b :: bs) with
    | .record kind content rest => (parseAllFuel fuel rest).map ((kind, content) :: ·)
    | _ => none

def parseAll (bs : Bytes) : Option (List (UInt8 × Bytes)) := parseAllFuel bs.length bs

/-- A record without its padding. -/
def Record.item (r : Record) : UInt8 × Bytes := (r.kind, r.content)

lemma length_encode_pos (r : Record) : 0 < r.encode.length := by
  simp [Record.encode, Record.header]

/-- The records written one after another are read back. -/
lemma parseAll_encodeAll (rs : List Record) :
    parseAll (rs.flatMap Record.encode) = some (rs.map Record.item) := by
  suffices h : ∀ fuel, (rs.flatMap Record.encode).length ≤ fuel →
      parseAllFuel fuel (rs.flatMap Record.encode) = some (rs.map Record.item) from h _ le_rfl
  induction rs with
  | nil =>
    intro fuel _
    cases fuel <;> rfl
  | cons r rs ih =>
    intro fuel hf
    have hpos := length_encode_pos r
    rw [flatMap_cons, length_append] at hf
    obtain ⟨fuel, rfl⟩ : ∃ m, fuel = m + 1 := ⟨fuel - 1, by omega⟩
    have hp := parse_encode r (rs.flatMap Record.encode)
    rw [flatMap_cons]
    cases hbs : r.encode ++ rs.flatMap Record.encode with
    | nil =>
      have hn := congrArg List.length hbs
      rw [length_append, length_nil] at hn
      omega
    | cons b bs =>
      rw [hbs] at hp
      simp only [parseAllFuel, hp, ih fuel (by omega)]
      rfl

/-! ## The output of a response -/

/-- How the records of a response end: with an END_REQUEST, in bytes that are no record of it, or
before the END_REQUEST has come. -/
inductive Ending where
  | ended
  | malformed
  | cut
  deriving DecidableEq, Repr

/-- The output in the records up to the END_REQUEST, and how the records end.  A record takes a
byte at least. -/
def scanFuel : ℕ → Bytes → Bytes × Ending
  | 0, _ => ([], .cut)
  | fuel + 1, bytes =>
    match parse bytes with
    | .incomplete => ([], .cut)
    | .malformed => ([], .malformed)
    | .record kind content rest =>
      if kind = stdout then (content ++ (scanFuel fuel rest).1, (scanFuel fuel rest).2)
      else if kind = endRequest then ([], if content.length = 8 then .ended else .malformed)
      else scanFuel fuel rest

def scan (bytes : Bytes) : Bytes × Ending := scanFuel (bytes.length + 1) bytes

lemma scanFuel_eq (fuel : ℕ) : ∀ bytes : Bytes, bytes.length < fuel →
    scanFuel fuel bytes = scan bytes := by
  suffices h : ∀ m n : ℕ, ∀ bytes : Bytes, bytes.length < m → bytes.length < n →
      scanFuel m bytes = scanFuel n bytes from
    fun bytes hl => h fuel _ bytes hl (Nat.lt_succ_self _)
  intro m
  induction m with
  | zero => exact fun _ _ hm _ => absurd hm (Nat.not_lt_zero _)
  | succ m ih =>
    intro n bytes hm hn
    obtain ⟨n, rfl⟩ : ∃ k, n = k + 1 := ⟨n - 1, by omega⟩
    rw [scanFuel, scanFuel]
    cases hp : parse bytes with
    | incomplete => rfl
    | malformed => rfl
    | record kind content rest =>
      have hl := parse_eq_record hp
      simp only [ih n rest (by omega) (by omega)]

lemma scan_record {bytes rest content : Bytes} {kind : UInt8}
    (h : parse bytes = .record kind content rest) :
    scan bytes =
      if kind = stdout then (content ++ (scan rest).1, (scan rest).2)
      else if kind = endRequest then ([], if content.length = 8 then .ended else .malformed)
      else scan rest := by
  have hl := parse_eq_record h
  rw [scan, scanFuel, h]
  simp only [scanFuel_eq bytes.length rest (by omega)]

end FastCgi

end Core
