import Veysrs.Core.Subslice
import Veysrs.Core.Text

/-!
# Text in lines

`joinLines` writes lines with a carriage return and a line feed between them.  Cutting the text at
these pairs gives the lines back exactly if none of them holds such a pair (`splitCrlf_joinLines`),
and the empty line that ends such a text is then the first in it, whatever follows
(`findSub_joinLines`).  A lone carriage return or line feed inside a line does no harm to either.
-/

namespace Core

open List

/-! ## Cutting -/

/-- No line break inside. -/
def OneLine (s : Str) : Prop := splitCrlf s = [s]

lemma splitCrlf_ne_nil : ∀ s : Str, splitCrlf s ≠ []
  | [] => by simp [splitCrlf]
  | c :: s => by
      rw [splitCrlf.eq_def]
      split
      · simp
      · simp
      · split <;> simp

lemma splitCrlf_crlf (s : Str) : splitCrlf ('\r' :: '\n' :: s) = [] :: splitCrlf s := rfl

lemma splitCrlf_cons {c : Char} {s : Str} (h : ¬ (c = '\r' ∧ s.head? = some '\n')) :
    splitCrlf (c :: s) = (splitCrlf s).modifyHead (c :: ·) := by
  have hne := splitCrlf_ne_nil s
  rw [splitCrlf.eq_def]
  split
  · simp_all
  · simp_all
  · rename_i hc
    obtain ⟨rfl, rfl⟩ := List.cons.inj hc
    cases hs : splitCrlf s with
    | nil => exact absurd hs hne
    | cons line lines => rfl

/-- A line break cuts a text in two. -/
lemma splitCrlf_append (s t : Str) :
    splitCrlf (s ++ '\r' :: '\n' :: t) = splitCrlf s ++ splitCrlf t := by
  fun_induction splitCrlf s with
  | case1 => rfl
  | case2 s ih => rw [cons_append, cons_append, splitCrlf_crlf, ih]; rfl
  | case3 c s hcr hs ih => exact absurd hs (splitCrlf_ne_nil s)
  | case4 c s hcr line lines hs ih =>
    have hc : ¬ (c = '\r' ∧ (s ++ '\r' :: '\n' :: t).head? = some '\n') := by
      rintro ⟨rfl, hh⟩
      cases s with
      | nil => simp at hh
      | cons d s =>
        simp only [cons_append, List.head?_cons, Option.some.injEq] at hh
        exact hcr s rfl (by rw [hh])
    rw [cons_append, splitCrlf_cons hc, ih, hs]
    rfl

lemma oneLine_nil : OneLine [] := rfl

lemma oneLine_cons {c : Char} {s : Str} :
    OneLine (c :: s) ↔ ¬ (c = '\r' ∧ s.head? = some '\n') ∧ OneLine s := by
  by_cases hc : c = '\r' ∧ s.head? = some '\n'
  · obtain ⟨rfl, hh⟩ := hc
    cases s with
    | nil => simp at hh
    | cons d s =>
      simp only [List.head?_cons, Option.some.injEq] at hh
      subst hh
      simp [OneLine, splitCrlf_crlf]
  · have hne := splitCrlf_ne_nil s
    rw [OneLine, OneLine, splitCrlf_cons hc]
    cases hs : splitCrlf s with
    | nil => exact absurd hs hne
    | cons line lines => simp [hc]

/-- Without a carriage return there is nothing to cut at. -/
lemma oneLine_of_not_mem {s : Str} (h : '\r' ∉ s) : OneLine s := by
  induction s with
  | nil => exact oneLine_nil
  | cons c s ih =>
    rw [mem_cons, not_or] at h
    exact oneLine_cons.mpr ⟨fun hc => h.1 hc.1.symm, ih h.2⟩

/-! ## Joining -/

/-- The lines of a text, with a line break between every two. -/
def joinLines (lines : List Str) : Str := "\r\n".toList.intercalate lines

lemma utf8_crlf (s : Str) : utf8 ('\r' :: '\n' :: s) = 0x0d :: 0x0a :: utf8 s := rfl

lemma joinLines_singleton (l : Str) : joinLines [l] = l := by simp [joinLines]

lemma joinLines_cons_cons (l m : Str) (lines : List Str) :
    joinLines (l :: m :: lines) = l ++ '\r' :: '\n' :: joinLines (m :: lines) := by
  simp [joinLines]

lemma splitCrlf_joinLines_eq_flatMap {lines : List Str} (hne : lines ≠ []) :
    splitCrlf (joinLines lines) = lines.flatMap splitCrlf := by
  induction lines with
  | nil => exact absurd rfl hne
  | cons l lines ih =>
    cases lines with
    | nil => simp [joinLines_singleton]
    | cons m lines =>
      rw [joinLines_cons_cons, splitCrlf_append, ih (cons_ne_nil m lines)]
      rfl

/-- **A text is cut into the lines it was joined from exactly if no line breaks inside.** -/
lemma splitCrlf_joinLines {lines : List Str} (hne : lines ≠ []) :
    splitCrlf (joinLines lines) = lines ↔ ∀ l ∈ lines, OneLine l := by
  rw [splitCrlf_joinLines_eq_flatMap hne]
  clear hne
  have hlen : ∀ ls : List Str, ls.length ≤ (ls.flatMap splitCrlf).length := by
    intro ls
    induction ls with
    | nil => simp
    | cons l ls ih =>
      have := length_pos_of_ne_nil (splitCrlf_ne_nil l)
      simp only [flatMap_cons, length_append, length_cons]
      omega
  induction lines with
  | nil => simp
  | cons l lines ih =>
    rw [flatMap_cons, forall_mem_cons]
    constructor
    · intro h
      -- the lines behind make at least as many pieces, so the first one makes only one
      have ho : (splitCrlf l).length = 1 := by
        have hp := length_pos_of_ne_nil (splitCrlf_ne_nil l)
        have ha := congrArg List.length h
        have := hlen lines
        simp only [length_append, length_cons] at ha
        omega
      obtain ⟨m, hm⟩ := length_eq_one_iff.mp ho
      rw [hm, singleton_append, List.cons.injEq] at h
      exact ⟨by rw [OneLine, hm, h.1], ih.mp h.2⟩
    · rintro ⟨hl, hli⟩
      rw [hl, ih.mpr hli]
      rfl

lemma joinLines_splitCrlf (s : Str) : joinLines (splitCrlf s) = s := by
  fun_induction splitCrlf s with
  | case1 => rfl
  | case2 s ih =>
    cases hs : splitCrlf s with
    | nil => exact absurd hs (splitCrlf_ne_nil s)
    | cons line lines => rw [joinLines_cons_cons, ← hs, ih, nil_append]
  | case3 c s hcr hs ih => exact absurd hs (splitCrlf_ne_nil s)
  | case4 c s hcr line lines hs ih =>
    rw [hs] at ih
    cases lines with
    | nil =>
      rw [joinLines_singleton] at ih ⊢
      rw [ih]
    | cons m lines =>
      rw [joinLines_cons_cons] at ih ⊢
      rw [cons_append, ih]

lemma oneLine_of_mem_splitCrlf {s l : Str} (h : l ∈ splitCrlf s) : OneLine l :=
  (splitCrlf_joinLines (splitCrlf_ne_nil s)).mp (by rw [joinLines_splitCrlf]) l h

lemma length_utf8_le_joinLines {l : Str} {lines : List Str} (h : l ∈ lines) :
    (utf8 l).length ≤ (utf8 (joinLines lines)).length := by
  induction lines with
  | nil => simp at h
  | cons k lines ih =>
    cases lines with
    | nil =>
      rw [mem_singleton] at h
      rw [h, joinLines_singleton]
    | cons m lines =>
      rw [joinLines_cons_cons, utf8_append, length_append]
      rcases mem_cons.mp h with rfl | h
      · omega
      · have := ih h
        simp only [utf8_cons, length_append]
        omega

/-- Every line break takes room. -/
lemma length_le_joinLines (lines : List Str) :
    lines.length ≤ (utf8 (joinLines lines)).length + 1 := by
  induction lines with
  | nil => simp
  | cons l lines ih =>
    cases lines with
    | nil => simp
    | cons m lines =>
      rw [joinLines_cons_cons, utf8_append, utf8_crlf]
      simp only [length_append, length_cons] at ih ⊢
      omega

/-! ## The end of a text -/

/-- The bytes of two line breaks in a row. -/
def blankLine : Bytes := [0x0d, 0x0a, 0x0d, 0x0a]

lemma not_mem_encode {c d : Char} (hd : d.toNat < 128) (h : c ≠ d) :
    byteOf d ∉ String.utf8EncodeChar c := by
  intro hm
  have hb : (byteOf d).toNat < 128 := by rwa [byteOf_toNat hd]
  have hu8 : byteOf d ∈ utf8 [c] := by simpa using hm
  obtain ⟨c', hc', heq⟩ := (mem_utf8_ascii hb).mp hu8
  rw [mem_singleton] at hc'
  subst hc'
  rw [byteOf_toNat hd] at heq
  exact h (Char.toNat_inj.mp heq)

/-- After a carriage return inside a line comes something other than a line feed, and at its end
what comes behind the line. -/
lemma head?_ne_lf {s : Str} (h : OneLine ('\r' :: s)) {t : Bytes} (ht : t.head? ≠ some 0x0a) :
    (utf8 s ++ t).head? ≠ some 0x0a := by
  cases s with
  | nil => exact ht
  | cons c s =>
    have hc : c ≠ '\n' := fun hc => (oneLine_cons.mp h).1 ⟨rfl, by rw [hc]; rfl⟩
    have hlf : (0x0a : UInt8) ∉ String.utf8EncodeChar c := not_mem_encode (by decide) hc
    intro hh
    refine hlf (mem_of_mem_head? ?_)
    rw [utf8_cons, append_assoc, List.head?_append_of_ne_nil] at hh
    · exact hh
    · exact ne_nil_of_length_pos
        (by rw [String.length_utf8EncodeChar]; exact Char.utf8Size_pos c)

/-- A blank line cannot begin inside a line. -/
lemma findSub_oneLine {l : Str} (h : OneLine l) (t : Bytes) :
    findSub blankLine (utf8 l ++ 0x0d :: t) =
      (findSub blankLine (0x0d :: t)).map (· + (utf8 l).length) := by
  induction l with
  | nil => simp
  | cons c l ih =>
    have hl := (oneLine_cons.mp h).2
    by_cases hc : c = '\r'
    · subst hc
      have hm : blankLine.isPrefixOf (0x0d :: (utf8 l ++ 0x0d :: t)) = false := by
        have hh := head?_ne_lf h (t := 0x0d :: t) (by simp)
        cases hbs : utf8 l ++ 0x0d :: t with
        | nil => rfl
        | cons b bs =>
          rw [hbs, List.head?_cons] at hh
          have hb : ((0x0a : UInt8) == b) = false := by
            rw [beq_eq_false_iff_ne]
            exact fun heq => hh (by rw [heq])
          simp [blankLine, List.isPrefixOf, hb]
      have hs : findSub blankLine (0x0d :: (utf8 l ++ 0x0d :: t)) =
          (findSub blankLine (utf8 l ++ 0x0d :: t)).map (· + 1) := by
        rw [findSub, if_neg (by simp [hm])]
      rw [utf8_cons, show String.utf8EncodeChar '\r' = [0x0d] from rfl, singleton_append,
        cons_append, hs, ih hl, Option.map_map]
      rfl
    · have hcr : (0x0d : UInt8) ∉ String.utf8EncodeChar c := not_mem_encode (by decide) hc
      rw [utf8_cons, append_assoc, blankLine, findSub_skip hcr, ← blankLine, ih hl,
        Option.map_map, length_append]
      congr 1
      funext n
      simp only [Function.comp_apply]
      omega

lemma findSub_crlf {rest : Bytes} (h : ¬ [0x0d, 0x0a] <+: rest) :
    findSub blankLine (0x0d :: 0x0a :: rest) = (findSub blankLine rest).map (· + 2) := by
  have hm : blankLine.isPrefixOf (0x0d :: 0x0a :: rest) = false := by
    rw [Bool.eq_false_iff, ne_eq, blankLine]
    simpa using h
  rw [findSub, if_neg (by simp [hm]), findSub, if_neg (by simp [blankLine, List.isPrefixOf]),
    Option.map_map]
  rfl

/-- A line that holds something does not begin with a line break. -/
lemma not_crlf_append {l : Str} (hne : l ≠ []) (h : OneLine l) (t : Bytes) :
    ¬ [0x0d, 0x0a] <+: utf8 l ++ 0x0d :: t := by
  cases l with
  | nil => exact absurd rfl hne
  | cons c l =>
    by_cases hc : c = '\r'
    · subst hc
      have hh := head?_ne_lf h (t := 0x0d :: t) (by simp)
      rw [utf8_cons, show String.utf8EncodeChar '\r' = [0x0d] from rfl, singleton_append,
        cons_append, cons_prefix_cons]
      rintro ⟨_, hp⟩
      obtain ⟨bs, hbs⟩ := hp
      rw [← hbs] at hh
      exact hh rfl
    · have hcr : (0x0d : UInt8) ∉ String.utf8EncodeChar c := not_mem_encode (by decide) hc
      intro hp
      refine hcr ?_
      have hpos : 0 < (String.utf8EncodeChar c).length := by
        rw [String.length_utf8EncodeChar]
        exact Char.utf8Size_pos c
      obtain ⟨bs, hbs⟩ := hp
      cases henc : String.utf8EncodeChar c with
      | nil => simp [henc] at hpos
      | cons b enc =>
        rw [utf8_cons, henc] at hbs
        have := List.cons.inj hbs
        rw [this.1]
        exact mem_cons_self

/-- **The blank line behind joined lines is the first one.** -/
lemma findSub_joinLines {lines : List Str} (hne : lines ≠ [])
    (h : ∀ l ∈ lines, l ≠ [] ∧ OneLine l) (rest : Bytes) :
    findSub blankLine (utf8 (joinLines lines) ++ (blankLine ++ rest)) =
      some (utf8 (joinLines lines)).length := by
  induction lines with
  | nil => exact absurd rfl hne
  | cons l lines ih =>
    have hl := h l mem_cons_self
    cases lines with
    | nil =>
      rw [joinLines_singleton]
      exact (findSub_oneLine hl.2 _).trans (by simp [blankLine, findSub, List.isPrefixOf])
    | cons m lines =>
      have hm := h m (by simp)
      have hla := ih (cons_ne_nil m lines) fun k hk => h k (mem_cons_of_mem l hk)
      have hc : ¬ [0x0d, 0x0a] <+: utf8 (joinLines (m :: lines)) ++ (blankLine ++ rest) := by
        cases lines with
        | nil =>
          rw [joinLines_singleton]
          exact not_crlf_append hm.1 hm.2 _
        | cons k lines =>
          rw [joinLines_cons_cons, utf8_append, append_assoc]
          exact not_crlf_append hm.1 hm.2 _
      rw [joinLines_cons_cons, utf8_append, append_assoc, utf8_crlf, cons_append,
        findSub_oneLine hl.2, cons_append, findSub_crlf hc, hla]
      simp only [Option.map_some, length_append, length_cons, Option.some.injEq]
      omega

/-! ## Lines of bytes -/

/-- Lines whose bytes need not be text. -/
def byteLines (lines : List Bytes) : Bytes := [0x0d, 0x0a].intercalate lines

lemma byteLines_singleton (l : Bytes) : byteLines [l] = l := by simp [byteLines]

lemma byteLines_cons_cons (l m : Bytes) (lines : List Bytes) :
    byteLines (l :: m :: lines) = l ++ 0x0d :: 0x0a :: byteLines (m :: lines) := by
  simp [byteLines]

lemma utf8_joinLines (lines : List Str) : utf8 (joinLines lines) = byteLines (lines.map utf8) := by
  induction lines with
  | nil => rfl
  | cons l lines ih =>
    cases lines with
    | nil => rw [joinLines_singleton, map_singleton, byteLines_singleton]
    | cons m lines =>
      simp only [map_cons] at ih ⊢
      rw [joinLines_cons_cons, utf8_append, utf8_crlf, ih, byteLines_cons_cons]

/-- The two empty lines at the end are the empty line that ends the text. -/
lemma byteLines_blank {lines : List Bytes} (hne : lines ≠ []) :
    byteLines (lines ++ [[], []]) = byteLines lines ++ blankLine := by
  induction lines with
  | nil => exact absurd rfl hne
  | cons l lines ih =>
    cases lines with
    | nil => simp [byteLines, List.intercalate, List.intersperse, blankLine]
    | cons m lines =>
      have hr := ih (cons_ne_nil m lines)
      rw [cons_append, cons_append, byteLines_cons_cons, byteLines_cons_cons,
        ← cons_append, hr, append_assoc, cons_append, cons_append]

lemma findSub_byteLines {lines : List Bytes} (hne : lines ≠ [])
    (h : ∀ l ∈ lines, l ≠ [] ∧ 0x0d ∉ l) (rest : Bytes) :
    findSub blankLine (byteLines lines ++ (blankLine ++ rest)) = some (byteLines lines).length := by
  induction lines with
  | nil => exact absurd rfl hne
  | cons l lines ih =>
    obtain ⟨hl, hcr⟩ := h l mem_cons_self
    cases lines with
    | nil =>
      rw [byteLines_singleton, blankLine, findSub_skip hcr]
      simp [findSub]
    | cons m lines =>
      obtain ⟨hm, hmcr⟩ := h m (by simp)
      have hla := ih (cons_ne_nil m lines) fun k hk => h k (mem_cons_of_mem l hk)
      have hc : ¬ [0x0d, 0x0a] <+: byteLines (m :: lines) ++ (blankLine ++ rest) := by
        rintro ⟨bs, hbs⟩
        -- the next line would begin with a carriage return
        cases m with
        | nil => exact hm rfl
        | cons b m =>
          have hf : (byteLines ((b :: m) :: lines) ++ (blankLine ++ rest)).head? =
              some b := by
            cases lines with
            | nil => rw [byteLines_singleton]; rfl
            | cons k lines => rw [byteLines_cons_cons]; rfl
          rw [← hbs] at hf
          exact hmcr (Option.some.inj hf ▸ mem_cons_self)
      rw [byteLines_cons_cons, append_assoc, cons_append, cons_append, blankLine,
        findSub_skip hcr, ← blankLine, findSub_crlf hc, hla]
      simp only [Option.map_some, length_append, length_cons, Option.some.injEq]
      omega

/-- Lines that are text together are text. -/
lemma exists_text_of_byteLines {lines : List Bytes} : ∀ {text : Str},
    utf8 text = byteLines lines → ∃ texts : List Str, lines = texts.map utf8 := by
  induction lines with
  | nil => exact fun _ => ⟨[], rfl⟩
  | cons l lines ih =>
    intro text h
    cases lines with
    | nil => exact ⟨[text], by rw [map_singleton, h, byteLines_singleton]⟩
    | cons m lines =>
      obtain ⟨t₁, -, t₂, -, ht₁, -, ht₂⟩ := utf8_eq_append (by decide) h
      obtain ⟨t₃, -, t₄, -, -, -, ht₄⟩ :=
        utf8_eq_append (by decide) (show utf8 t₂ = [] ++ 0x0a :: byteLines (m :: lines) from ht₂)
      obtain ⟨texts, ht⟩ := ih ht₄
      exact ⟨t₁ :: texts, by rw [map_cons, ht₁, ht]⟩

end Core
