import Veysrs.Core.Text

/-!
# Reading JSON

A reader of JSON texts, with all kinds of values, white space and escapes.  A number is kept as its
text.  The functions that call each other take fuel, one unit for each value or member.

An object whose members are strings and numbers is read as what was written (`parse_object`).
For strings it is enough that every character is escaped as the reader expects
(`readString_flatMap`).
-/

namespace Core

open List

inductive Json where
  | null
  | bool (b : Bool)
  | num (text : Str)
  | str (s : Str)
  | arr (items : List Json)
  | obj (members : List (Str × Json))

namespace Json

def isSpace (c : Char) : Bool := c = ' ' || c = '\t' || c = '\n' || c = '\r'

def skipSpace (s : Str) : Str := s.dropWhile isSpace

/-! ## Strings -/

def hexValue (c : Char) : Option ℕ :=
  if '0' ≤ c ∧ c ≤ '9' then some (c.toNat - 48)
  else if 'a' ≤ c ∧ c ≤ 'f' then some (c.toNat - 87)
  else if 'A' ≤ c ∧ c ≤ 'F' then some (c.toNat - 55)
  else none

/-- Four hexadecimal digits. -/
def readUnit : Str → Option (ℕ × Str)
  | a :: b :: c :: d :: rest => do
      return (4096 * (← hexValue a) + 256 * (← hexValue b) + 16 * (← hexValue c) + (← hexValue d),
        rest)
  | _ => none

/-- The character of a code unit, or of two that belong together. -/
def readUnicode (s : Str) : Option (Char × Str) := do
  let (unit, rest) ← readUnit s
  if 0xd800 ≤ unit ∧ unit < 0xdc00 then
    match rest with
    | '\\' :: 'u' :: rest => do
        let (low, rest) ← readUnit rest
        if 0xdc00 ≤ low ∧ low < 0xe000 then
          return (Char.ofNat (0x10000 + 0x400 * (unit - 0xd800) + (low - 0xdc00)), rest)
        else none
    | _ => none
  else if 0xdc00 ≤ unit ∧ unit < 0xe000 then none
  else return (Char.ofNat unit, rest)

def simpleEscape (c : Char) : Option Char :=
  if c = '"' ∨ c = '\\' ∨ c = '/' then some c
  else if c = 'b' then some '\x08'
  else if c = 'f' then some '\x0c'
  else if c = 'n' then some '\n'
  else if c = 'r' then some '\r'
  else if c = 't' then some '\t'
  else none

/-- What a backslash announces. -/
def readEscape : Str → Option (Char × Str)
  | [] => none
  | c :: rest => if c = 'u' then readUnicode rest else (simpleEscape c).map (·, rest)

/-- A string, from behind its first quote. -/
def readString : ℕ → Str → Option (Str × Str)
  | 0, _ => none
  | _ + 1, [] => none
  | fuel + 1, c :: rest =>
    if c = '"' then some ([], rest)
    else if c = '\\' then do
      let (c, rest) ← readEscape rest
      (readString fuel rest).map (Prod.map (c :: ·) id)
    else if c.toNat < 32 then none
    else (readString fuel rest).map (Prod.map (c :: ·) id)

/-! ## Numbers -/

def readDigits (s : Str) : Option (Str × Str) :=
  if s.takeWhile Char.isDigit = [] then none
  else some (s.takeWhile Char.isDigit, s.dropWhile Char.isDigit)

/-- A zero has no digit behind it. -/
def readInt (s : Str) : Option (Str × Str) :=
  if s.head? = some '0' then some (['0'], s.tail) else readDigits s

def readFraction (s : Str) : Option (Str × Str) :=
  if s.head? = some '.' then (readDigits s.tail).map (Prod.map ('.' :: ·) id) else some ([], s)

/-- A sign among these, if there is one. -/
def readSign (signs : List Char) (s : Str) : Str × Str :=
  if s.head?.any signs.contains then (s.take 1, s.drop 1) else ([], s)

def readExponent (s : Str) : Option (Str × Str) :=
  if s.head? = some 'e' ∨ s.head? = some 'E' then do
    let (sign, rest) := readSign ['+', '-'] s.tail
    (readDigits rest).map (Prod.map ((s.take 1 ++ sign) ++ ·) id)
  else some ([], s)

def readNumber (s : Str) : Option (Json × Str) := do
  let (sign, s) := readSign ['-'] s
  let (int, s) ← readInt s
  let (fraction, s) ← readFraction s
  let (exponent, s) ← readExponent s
  return (.num (sign ++ int ++ fraction ++ exponent), s)

/-! ## Values -/

mutual

def readValue : ℕ → Str → Option (Json × Str)
  | 0, _ => none
  | fuel + 1, s =>
    if s.head? = some '"' then
      (readString (s.length + 1) s.tail).map (Prod.map .str id)
    else if s.head? = some '{' then
      if (skipSpace s.tail).head? = some '}' then some (.obj [], (skipSpace s.tail).tail)
      else (readMembers fuel (skipSpace s.tail)).map (Prod.map .obj id)
    else if s.head? = some '[' then
      if (skipSpace s.tail).head? = some ']' then some (.arr [], (skipSpace s.tail).tail)
      else (readItems fuel (skipSpace s.tail)).map (Prod.map .arr id)
    else if "null".toList.isPrefixOf s then some (.null, s.drop 4)
    else if "true".toList.isPrefixOf s then some (.bool true, s.drop 4)
    else if "false".toList.isPrefixOf s then some (.bool false, s.drop 5)
    else readNumber s

/-- The members of an object, from the first quote on. -/
def readMembers : ℕ → Str → Option (List (Str × Json) × Str)
  | 0, _ => none
  | fuel + 1, s =>
    if s.head? = some '"' then do
      let (name, rest) ← readString (s.length + 1) s.tail
      if (skipSpace rest).head? = some ':' then do
        let (value, rest) ← readValue fuel (skipSpace (skipSpace rest).tail)
        let rest := skipSpace rest
        if rest.head? = some ',' then
          (readMembers fuel (skipSpace rest.tail)).map (Prod.map ((name, value) :: ·) id)
        else if rest.head? = some '}' then some ([(name, value)], rest.tail)
        else none
      else none
    else none

/-- The items of an array. -/
def readItems : ℕ → Str → Option (List Json × Str)
  | 0, _ => none
  | fuel + 1, s => do
      let (value, rest) ← readValue fuel s
      let rest := skipSpace rest
      if rest.head? = some ',' then
        (readItems fuel (skipSpace rest.tail)).map (Prod.map (value :: ·) id)
      else if rest.head? = some ']' then some ([value], rest.tail)
      else none

end

/-- The value of a whole text. -/
def parse (s : Str) : Option Json := do
  let (value, rest) ← readValue (s.length + 1) (skipSpace s)
  if skipSpace rest = [] then some value else none

/-! ## Strings that were written -/

/-- Inside a string, the text stands for the character. -/
def Escapes (text : Str) (c : Char) : Prop :=
  ∀ fuel rest, readString (fuel + 1) (text ++ rest) =
    (readString fuel rest).map (Prod.map (c :: ·) id)

variable {c : Char} {escape : Char → Str} {s rest : Str}

lemma Escapes.ne_nil {text : Str} (h : Escapes text c) : text ≠ [] := by
  rintro rfl
  have hq := h 0 ['"']
  simp [readString] at hq

lemma escapes_self (hq : c ≠ '"') (hb : c ≠ '\\') (hc : 32 ≤ c.toNat) :
    Escapes [c] c := by
  intro fuel rest
  rw [singleton_append, readString, if_neg hq, if_neg hb,
    if_neg (Nat.not_lt.mpr hc)]

lemma escapes_simple {e : Char} (he : e ≠ 'u') (h : simpleEscape e = some c) :
    Escapes ['\\', e] c := by
  intro fuel rest
  have hes : readEscape (e :: rest) = some (c, rest) := by
    rw [readEscape, if_neg he, h]
    rfl
  rw [cons_append, singleton_append, readString, hes]
  rfl

/-- A character below the surrogates, by its number. -/
lemma escapes_unicode {digits : Str} (hl : c.toNat < 0xd800)
    (h : ∀ rest, readUnit (digits ++ rest) = some (c.toNat, rest)) :
    Escapes ('\\' :: 'u' :: digits) c := by
  intro fuel rest
  have hes : readEscape ('u' :: (digits ++ rest)) = some (c, rest) := by
    rw [readEscape, if_pos rfl, readUnicode, h]
    simp only [Option.bind_eq_bind, Option.bind_some]
    rw [if_neg (by omega), if_neg (by omega), Char.ofNat_toNat]
    rfl
  rw [cons_append, cons_append, readString, hes]
  rfl

/-- **A string is read back if its characters are escaped.** -/
lemma readString_flatMap (h : ∀ c ∈ s, Escapes (escape c) c) (rest : Str) :
    ∀ fuel, s.length < fuel →
      readString fuel (s.flatMap escape ++ '"' :: rest) = some (s, rest) := by
  induction s with
  | nil =>
    intro fuel hf
    obtain ⟨fuel, rfl⟩ := Nat.exists_eq_succ_of_ne_zero (Nat.ne_of_gt hf)
    rfl
  | cons c s ih =>
    intro fuel hf
    obtain ⟨hc, hs⟩ := forall_mem_cons.mp h
    obtain ⟨fuel, rfl⟩ := Nat.exists_eq_succ_of_ne_zero (Nat.ne_of_gt (Nat.zero_lt_of_lt hf))
    rw [flatMap_cons, append_assoc, hc, ih hs fuel (Nat.lt_of_succ_lt_succ hf)]
    rfl

lemma length_le_flatMap (h : ∀ c ∈ s, Escapes (escape c) c) :
    s.length ≤ (s.flatMap escape).length := by
  induction s with
  | nil => exact Nat.le_refl 0
  | cons c s ih =>
    obtain ⟨hc, hs⟩ := forall_mem_cons.mp h
    have hp := length_pos_of_ne_nil hc.ne_nil
    have hle := ih hs
    rw [flatMap_cons, length_append, length_cons]
    omega

/-- The reader has fuel enough for a string in the text that it is given. -/
lemma readString_quoted (h : ∀ c ∈ s, Escapes (escape c) c) (rest : Str) :
    readString (('"' :: (s.flatMap escape ++ '"' :: rest)).length + 1)
      (s.flatMap escape ++ '"' :: rest) = some (s, rest) := by
  have hl := length_le_flatMap h
  refine readString_flatMap h rest _ ?_
  rw [length_cons, length_append]
  omega

/-! ## Values that were written -/

/-- What stands behind a member of an object. -/
def Ends (rest : Str) : Prop := rest.head? = some ',' ∨ rest.head? = some '\x7d'

/-- A text that is read as that value, whatever follows it in an object. -/
structure Scalar (text : Str) (value : Json) : Prop where
  solid : ∃ c, text.head? = some c ∧ isSpace c = false
  reads : ∀ fuel rest, Ends rest → readValue (fuel + 1) (text ++ rest) = some (value, rest)

lemma readValue_quote (fuel : ℕ) (s : Str) :
    readValue (fuel + 1) ('"' :: s) =
      (readString (('"' :: s).length + 1) s).map (Prod.map .str id) := by
  rw [readValue, List.head?_cons, if_pos rfl, tail_cons]

lemma readValue_brace (fuel : ℕ) (h : (skipSpace s).head? ≠ some '\x7d') :
    readValue (fuel + 1) ('\x7b' :: s) =
      (readMembers fuel (skipSpace s)).map (Prod.map .obj id) := by
  rw [readValue, List.head?_cons, tail_cons, if_neg (by decide), if_pos rfl, if_neg h]

lemma readValue_digit (fuel : ℕ) (hc : c.isDigit = true) (s : Str) :
    readValue (fuel + 1) (c :: s) = readNumber (c :: s) := by
  have hne : ∀ d : Char, d.isDigit = false → c ≠ d := by
    rintro d hd rfl
    rw [hc] at hd
    cases hd
  have hw : ∀ word : Str, (∃ d, word.head? = some d ∧ d.isDigit = false) →
      ¬word.isPrefixOf (c :: s) = true := by
    rintro word ⟨d, hh, hd⟩ hp
    obtain ⟨rest, hr⟩ := isPrefixOf_iff_prefix.mp hp
    cases word with
    | nil => cases hh
    | cons e word =>
      rw [Option.some.inj hh] at hr
      exact hne d hd (List.cons.inj hr).1.symm
  rw [readValue, List.head?_cons, if_neg (fun h => hne '"' (by decide) (Option.some.inj h)),
    if_neg (fun h => hne '\x7b' (by decide) (Option.some.inj h)),
    if_neg (fun h => hne '[' (by decide) (Option.some.inj h)),
    if_neg (hw "null".toList ⟨'n', rfl, by decide⟩),
    if_neg (hw "true".toList ⟨'t', rfl, by decide⟩),
    if_neg (hw "false".toList ⟨'f', rfl, by decide⟩)]

lemma scalar_string (h : ∀ c ∈ s, Escapes (escape c) c) :
    Scalar ('"' :: (s.flatMap escape ++ ['"'])) (.str s) := by
  refine ⟨⟨'"', rfl, by decide⟩, fun fuel rest _ => ?_⟩
  rw [cons_append, append_assoc, singleton_append, readValue_quote,
    readString_quoted h]
  rfl

lemma Ends.not_digit (h : Ends rest) :
    rest.takeWhile Char.isDigit = [] ∧ rest.dropWhile Char.isDigit = rest := by
  cases rest with
  | nil => exact ⟨rfl, rfl⟩
  | cons c rest =>
    have hc : c.isDigit = false := by
      rcases h with h | h
      · rw [Option.some.inj h]
        decide
      · rw [Option.some.inj h]
        decide
    rw [takeWhile_cons, dropWhile_cons, hc]
    exact ⟨rfl, rfl⟩

lemma readDigits_append {digits : Str} (hne : digits ≠ [])
    (hd : ∀ c ∈ digits, c.isDigit = true)
    (hr : rest.takeWhile Char.isDigit = [] ∧ rest.dropWhile Char.isDigit = rest) :
    readDigits (digits ++ rest) = some (digits, rest) := by
  rw [readDigits, takeWhile_append_of_pos hd, dropWhile_append_of_pos hd,
    hr.1, hr.2, append_nil, if_neg hne]

/-- The first digit of a number is not a zero. -/
lemma head?_decimal {n : ℕ} (h : (decimal n).head? = some '0') : n = 0 := by
  induction n using Nat.strong_induction_on with
  | _ n ih =>
    by_cases hs : n < 10
    · have hd : ∀ m < 10, [Nat.digitChar m].head? = some '0' → m = 0 := by decide
      rw [decimal, Nat.toDigits_of_lt_base hs] at h
      exact hd n hs h
    · rw [decimal, Nat.toDigits_of_base_le (by decide) (Nat.le_of_not_lt hs), ← decimal,
        List.head?_append_of_ne_nil _ (decimal_ne_nil (n / 10))] at h
      have hz := ih (n / 10) (by omega) h
      omega

lemma readInt_decimal (n : ℕ)
    (hr : rest.takeWhile Char.isDigit = [] ∧ rest.dropWhile Char.isDigit = rest) :
    readInt (decimal n ++ rest) = some (decimal n, rest) := by
  rw [readInt, List.head?_append_of_ne_nil _ (decimal_ne_nil n)]
  split_ifs with hz
  · obtain rfl := head?_decimal hz
    rfl
  · exact readDigits_append (decimal_ne_nil n) (fun c hc => isDigit_of_mem_decimal hc) hr

/-- Nothing, or a point and digits. -/
def Fraction (fraction : Str) : Prop :=
  fraction = [] ∨ ∃ digits, digits ≠ [] ∧ (∀ c ∈ digits, c.isDigit = true) ∧
    fraction = '.' :: digits

lemma readFraction_append {fraction : Str} (h : Fraction fraction) (hr : Ends rest) :
    readFraction (fraction ++ rest) = some (fraction, rest) := by
  rcases h with rfl | ⟨digits, hne, hd, rfl⟩
  · have hp : rest.head? ≠ some '.' := by
      rcases hr with h | h
      · rw [h]
        decide
      · rw [h]
        decide
    rw [nil_append, readFraction, if_neg hp]
  · rw [cons_append, readFraction, List.head?_cons, tail_cons,
      readDigits_append hne hd hr.not_digit]
    rfl

lemma readExponent_of_ends (h : Ends rest) : readExponent rest = some ([], rest) := by
  have hexp : ¬(rest.head? = some 'e' ∨ rest.head? = some 'E') := by
    rcases h with h | h
    · rw [h]
      decide
    · rw [h]
      decide
  rw [readExponent, if_neg hexp]

/-- A number without a sign or an exponent. -/
lemma scalar_number (n : ℕ) {fraction : Str} (h : Fraction fraction) :
    Scalar (decimal n ++ fraction) (.num (decimal n ++ fraction)) := by
  obtain ⟨c, digits, hd⟩ := exists_cons_of_ne_nil (decimal_ne_nil n)
  have hc : c.isDigit = true := isDigit_of_mem_decimal (hd ▸ mem_cons_self)
  refine ⟨⟨c, by rw [hd]; rfl, ?_⟩, fun fuel rest hr => ?_⟩
  · rw [Bool.eq_false_iff]
    intro hs
    simp only [isSpace, Bool.or_eq_true, decide_eq_true_eq] at hs
    rcases hs with ((rfl | rfl) | rfl) | rfl
    all_goals exact absurd hc (by decide)
  · have hf : (fraction ++ rest).takeWhile Char.isDigit = [] ∧
        (fraction ++ rest).dropWhile Char.isDigit = fraction ++ rest := by
      rcases h with rfl | ⟨digits, -, -, rfl⟩
      · exact hr.not_digit
      · exact ⟨rfl, rfl⟩
    have hsi : readSign ['-'] (c :: digits ++ (fraction ++ rest)) =
        ([], c :: digits ++ (fraction ++ rest)) := by
      have hm : c ≠ '-' := by
        rintro rfl
        exact absurd hc (by decide)
      rw [readSign]
      simpa using hm
    have hre : readNumber (c :: digits ++ (fraction ++ rest)) =
        some (.num (decimal n ++ fraction), rest) := by
      rw [readNumber, hsi, ← hd]
      simp only [readInt_decimal n hf, readFraction_append h hr,
        readExponent_of_ends hr, Option.bind_eq_bind, Option.bind_some, append_nil]
      rfl
    calc readValue (fuel + 1) (decimal n ++ fraction ++ rest)
        = readValue (fuel + 1) (c :: (digits ++ (fraction ++ rest))) := by
          rw [append_assoc, hd]
          rfl
      _ = readNumber (c :: (digits ++ (fraction ++ rest))) := readValue_digit fuel hc _
      _ = some (.num (decimal n ++ fraction), rest) := hre

/-! ## Objects that were written -/

/-- A member as it is written: its name, and the text of its value. -/
def memberText (name text : Str) : Str := '"' :: (name ++ '"' :: ':' :: text)

/-- A name without escapes, and a value that can be read. -/
structure Member (name text : Str) (value : Json) : Prop where
  name : ∀ c ∈ name, Escapes [c] c
  scalar : Scalar text value

lemma skipSpace_of_solid (h : ∃ c, s.head? = some c ∧ isSpace c = false) : skipSpace s = s := by
  obtain ⟨c, hh, hc⟩ := h
  cases s with
  | nil => rfl
  | cons d s =>
    rw [Option.some.inj hh] at *
    rw [skipSpace, dropWhile_cons, hc]
    rfl

lemma Ends.solid (h : Ends rest) : ∃ c, rest.head? = some c ∧ isSpace c = false := by
  rcases h with h | h
  · exact ⟨',', h, by decide⟩
  · exact ⟨'\x7d', h, by decide⟩

/-- One round over the members. -/
lemma readMembers_member {name text : Str} {value : Json} (h : Member name text value)
    (hr : Ends rest) (fuel : ℕ) :
    readMembers (fuel + 2) (memberText name text ++ rest) =
      if rest.head? = some ',' then
        (readMembers (fuel + 1) (skipSpace rest.tail)).map (Prod.map ((name, value) :: ·) id)
      else if rest.head? = some '\x7d' then some ([(name, value)], rest.tail)
      else none := by
  have hn : readString (('"' :: (name ++ '"' :: (':' :: text ++ rest))).length + 1)
      (name ++ '"' :: (':' :: text ++ rest)) = some (name, ':' :: text ++ rest) := by
    have hq := readString_quoted h.name (':' :: text ++ rest)
    rwa [flatMap_singleton'] at hq
  have hs : ∃ c, (text ++ rest).head? = some c ∧ isSpace c = false := by
    obtain ⟨c, hh, hc⟩ := h.scalar.solid
    refine ⟨c, ?_, hc⟩
    rw [List.head?_append, hh]
    rfl
  have ht : memberText name text ++ rest = '"' :: (name ++ '"' :: (':' :: text ++ rest)) := by
    simp [memberText]
  have hco : skipSpace (':' :: text ++ rest) = ':' :: (text ++ rest) :=
    skipSpace_of_solid ⟨':', rfl, by decide⟩
  rw [ht, readMembers, List.head?_cons, tail_cons, hn]
  simp only [Option.bind_eq_bind, Option.bind_some, hco, List.head?_cons, if_true,
    tail_cons, skipSpace_of_solid hs, h.scalar.reads fuel rest hr,
    skipSpace_of_solid hr.solid]

/-- The text between the braces of an object. -/
def membersText (members : List (Str × Str × Json)) : Str :=
  [','].intercalate (members.map fun m => memberText m.1 m.2.1)

lemma membersText_cons (m next : Str × Str × Json) (members : List (Str × Str × Json)) :
    membersText (m :: next :: members) =
      memberText m.1 m.2.1 ++ ',' :: membersText (next :: members) := by
  simp [membersText]

lemma head?_membersText (m : Str × Str × Json) (members : List (Str × Str × Json)) :
    (membersText (m :: members)).head? = some '"' := by
  cases members with
  | nil => rfl
  | cons next members => rw [membersText_cons]; rfl

lemma length_le_membersText : ∀ members : List (Str × Str × Json),
    members.length ≤ (membersText members).length
  | [] => Nat.le_refl 0
  | [m] => by
      show 1 ≤ (membersText [m]).length
      simp [membersText, memberText]
  | m :: next :: members => by
      have ih := length_le_membersText (next :: members)
      simp only [membersText_cons, length_append, length_cons] at ih ⊢
      omega

/-- The members of an object, with the texts and the values they are read as. -/
lemma readMembers_written (rest : Str) : ∀ (members : List (Str × Str × Json)), members ≠ [] →
    (∀ m ∈ members, Member m.1 m.2.1 m.2.2) → ∀ fuel, members.length < fuel →
    readMembers fuel (membersText members ++ '\x7d' :: rest) =
      some (members.map fun m => (m.1, m.2.2), rest)
  | [], hne, _, _, _ => absurd rfl hne
  | [m], _, h, fuel, hf => by
      obtain ⟨fuel, rfl⟩ := Nat.exists_eq_add_of_le' (show 2 ≤ fuel from hf)
      have hs := readMembers_member (h m (mem_singleton_self m))
        (show Ends ('\x7d' :: rest) from .inr rfl) fuel
      rw [List.head?_cons, if_neg (by decide), if_pos rfl] at hs
      simpa [membersText] using hs
  | m :: next :: members, _, h, fuel, hf => by
      obtain ⟨hm, hn⟩ := forall_mem_cons.mp h
      obtain ⟨fuel, rfl⟩ := Nat.exists_eq_add_of_le' (show 2 ≤ fuel by
        rw [length_cons] at hf
        omega)
      have ih := readMembers_written rest (next :: members) (cons_ne_nil _ _) hn (fuel + 1)
        (Nat.lt_of_succ_lt_succ hf)
      have hso : skipSpace (membersText (next :: members) ++ '\x7d' :: rest) =
          membersText (next :: members) ++ '\x7d' :: rest := by
        refine skipSpace_of_solid ⟨'"', ?_, by decide⟩
        rw [List.head?_append, head?_membersText]
        rfl
      have hen : Ends (',' :: (membersText (next :: members) ++ '\x7d' :: rest)) := .inl rfl
      have hs := readMembers_member hm hen fuel
      rw [List.head?_cons, tail_cons, hso, ih] at hs
      rw [membersText_cons, append_assoc, cons_append, hs]
      rfl

/-- **An object of strings and numbers is read as what was written.** -/
lemma parse_object {members : List (Str × Str × Json)} (hne : members ≠ [])
    (h : ∀ m ∈ members, Member m.1 m.2.1 m.2.2) {space : Str} (hsp : skipSpace space = []) :
    parse ('\x7b' :: (membersText members ++ '\x7d' :: space)) =
      some (.obj (members.map fun m => (m.1, m.2.2))) := by
  have hh : (membersText members ++ '\x7d' :: space).head? = some '"' := by
    obtain ⟨m, rest, rfl⟩ := exists_cons_of_ne_nil hne
    rw [List.head?_append, head?_membersText]
    rfl
  have hs : skipSpace (membersText members ++ '\x7d' :: space) =
      membersText members ++ '\x7d' :: space := skipSpace_of_solid ⟨'"', hh, by decide⟩
  have hf : members.length < ('\x7b' :: (membersText members ++ '\x7d' :: space)).length := by
    have hle := length_le_membersText members
    rw [length_cons, length_append]
    omega
  have hr := readMembers_written space members hne h _ hf
  rw [parse, skipSpace_of_solid ⟨'\x7b', rfl, by decide⟩,
    readValue_brace _ (by rw [hs, hh]; decide), hs, hr]
  simp only [Option.map_some, Prod.map_apply, id_eq, Option.bind_eq_bind, Option.bind_some, hsp,
    if_true]

end Json

end Core
