import Veysrs.Config.Rules

/-!
# Quoted arguments

How the documentation of the rule files lets an argument be written: between double quotes, with a
backslash before a backslash, a quote and the letters for a line feed, a carriage return and a tab.

Three loops of `config/veysrule.rs` follow the quotes of a line, each with its own two flags.  The
two that look for a mark are one function of the model, `beforeUnquoted`; the third one is
`tokenizeFrom`.  For each of them one lemma says that it comes out of an escaped text in the state
it went in (`beforeUnquoted_escaped`, `tokenizeFrom_escaped`), one what it does at a whole argument,
and the line follows by induction over its arguments.
-/

namespace Veysrs

open Core List

/-! ## Writing an argument -/

/-- A character inside double quotes. -/
def escapeChar (c : Char) : Str :=
  if c = '\\' then ['\\', '\\']
  else if c = '"' then ['\\', '"']
  else if c = '\n' then ['\\', 'n']
  else if c = '\r' then ['\\', 'r']
  else if c = '\t' then ['\\', 't']
  else [c]

def escaped (s : Str) : Str := s.flatMap escapeChar

def quoteArgument (s : Str) : Str := '"' :: (escaped s ++ ['"'])

/-- The arguments in quotes, with a space between two of them. -/
def quotedLine (args : List Str) : Str := [' '].intercalate (args.map quoteArgument)

@[simp] lemma escaped_nil : escaped [] = [] := rfl

@[simp] lemma escaped_cons (c : Char) (s : Str) : escaped (c :: s) = escapeChar c ++ escaped s :=
  rfl

@[simp] lemma quotedLine_singleton (a : Str) : quotedLine [a] = quoteArgument a := by
  simp [quotedLine]

lemma quotedLine_cons_cons (a b : Str) (more : List Str) :
    quotedLine (a :: b :: more) = quoteArgument a ++ ' ' :: quotedLine (b :: more) := by
  simp [quotedLine]

/-- What the letter after a backslash stands for. -/
def unescape (ch : Char) : Char :=
  if ch = 'n' then '\n' else if ch = 'r' then '\r' else if ch = 't' then '\t' else ch

/-- A character is written after a backslash, or as it is. -/
lemma escapeChar_cases (c : Char) :
    (∃ letter, escapeChar c = ['\\', letter] ∧ unescape letter = c) ∨
      escapeChar c = [c] ∧ c ≠ '\\' ∧ c ≠ '"' := by
  unfold escapeChar
  split_ifs with hb hq hf hr ht
  · exact .inl ⟨'\\', rfl, hb.symm⟩
  · exact .inl ⟨'"', rfl, hq.symm⟩
  · exact .inl ⟨'n', rfl, hf.symm⟩
  · exact .inl ⟨'r', rfl, hr.symm⟩
  · exact .inl ⟨'t', rfl, ht.symm⟩
  · exact .inr ⟨rfl, hb, hq⟩

/-- A line of quoted arguments begins and ends with a quote. -/
lemma exists_quotedLine_eq {args : List Str} (hne : args ≠ []) :
    ∃ inner, quotedLine args = '"' :: (inner ++ ['"']) := by
  induction args with
  | nil => exact absurd rfl hne
  | cons a more ih =>
    cases more with
    | nil => exact ⟨escaped a, quotedLine_singleton a⟩
    | cons b more =>
      obtain ⟨inner, hi⟩ := ih (cons_ne_nil b more)
      refine ⟨escaped a ++ '"' :: ' ' :: '"' :: inner, ?_⟩
      rw [quotedLine_cons_cons, hi]
      simp [quoteArgument]

/-! ## Looking for a mark -/

section Mark

variable {mark : Char}

/-- Inside quotes no mark is seen. -/
lemma beforeUnquoted_escaped (s rest : Str) :
    beforeUnquoted mark true false (escaped s ++ rest) =
      (beforeUnquoted mark true false rest).map (escaped s ++ ·) := by
  induction s with
  | nil => simp
  | cons c s ih =>
    rcases escapeChar_cases c with ⟨letter, hw, -⟩ | ⟨hw, hb, hq⟩
    · simp [hw, beforeUnquoted, ih, Function.comp_def]
    · simp [hw, beforeUnquoted, hb, hq, ih, Function.comp_def]

lemma beforeUnquoted_quoteArgument (s rest : Str) :
    beforeUnquoted mark false false (quoteArgument s ++ rest) =
      (beforeUnquoted mark false false rest).map (quoteArgument s ++ ·) := by
  have hc : beforeUnquoted mark true false ('"' :: rest) =
      (beforeUnquoted mark false false rest).map ('"' :: ·) := rfl
  have ho : beforeUnquoted mark false false ('"' :: (escaped s ++ '"' :: rest)) =
      (beforeUnquoted mark true false (escaped s ++ '"' :: rest)).map ('"' :: ·) := rfl
  rw [quoteArgument, cons_append, append_assoc, singleton_append, ho, beforeUnquoted_escaped,
    hc]
  simp [Function.comp_def]

/-- No mark but a quote or a space is found in a line of quoted arguments. -/
lemma beforeUnquoted_quotedLine (hs : mark ≠ ' ') (args : List Str) :
    beforeUnquoted mark false false (quotedLine args) = none := by
  induction args with
  | nil => rfl
  | cons a more ih =>
    cases more with
    | nil =>
      rw [quotedLine_singleton, ← append_nil (quoteArgument a),
        beforeUnquoted_quoteArgument]
      rfl
    | cons b more =>
      rw [quotedLine_cons_cons, beforeUnquoted_quoteArgument]
      simp [beforeUnquoted, hs.symm, ih]

end Mark

/-! ## Cutting into words -/

section Words

variable (tokens : List Str) (current : Str)

/-- An escaped text is read back. -/
lemma tokenizeFrom_escaped (s rest : Str) :
    tokenizeFrom tokens current true false (escaped s ++ rest) =
      tokenizeFrom tokens (current ++ s) true false rest := by
  induction s generalizing current with
  | nil => simp
  | cons c s ih =>
    rw [escaped_cons, append_assoc]
    rcases escapeChar_cases c with ⟨letter, hw, hr⟩ | ⟨hw, hb, hq⟩
    · have hl :
          tokenizeFrom tokens current true false ('\\' :: letter :: (escaped s ++ rest)) =
            tokenizeFrom tokens (current ++ [unescape letter]) true false (escaped s ++ rest) := rfl
      rw [hw, cons_append, singleton_append, hl, hr, ih,
        append_assoc, singleton_append]
    · rw [hw]
      simp [tokenizeFrom, hb, hq, ih]

lemma tokenizeFrom_quoteArgument (s rest : Str) :
    tokenizeFrom tokens [] false false (quoteArgument s ++ rest) =
      tokenizeFrom tokens s false false rest := by
  have ho : tokenizeFrom tokens [] false false ('"' :: (escaped s ++ '"' :: rest)) =
      tokenizeFrom tokens [] true false (escaped s ++ '"' :: rest) := rfl
  rw [quoteArgument, cons_append, append_assoc, singleton_append, ho,
    tokenizeFrom_escaped]
  rfl

/-- A word that is not empty is one of the arguments. -/
lemma tokenizeFrom_quotedLine {args : List Str} (har : ∀ a ∈ args, a ≠ []) :
    tokenizeFrom tokens [] false false (quotedLine args) = .ok (tokens ++ args) := by
  induction args generalizing tokens with
  | nil => simp [quotedLine, tokenizeFrom]
  | cons a more ih =>
    obtain ⟨ha, hm⟩ := forall_mem_cons.mp har
    cases more with
    | nil =>
      rw [quotedLine_singleton, ← append_nil (quoteArgument a),
        tokenizeFrom_quoteArgument]
      simp [tokenizeFrom, ha]
    | cons b more =>
      have hs : tokenizeFrom tokens a false false (' ' :: quotedLine (b :: more)) =
          tokenizeFrom (tokens ++ [a]) [] false false (quotedLine (b :: more)) := by
        have hsp : tokenizeFrom tokens a false false (' ' :: quotedLine (b :: more)) =
            tokenizeFrom (if a = [] then tokens else tokens ++ [a]) [] false false
              (quotedLine (b :: more)) := rfl
        rw [hsp, if_neg ha]
      rw [quotedLine_cons_cons, tokenizeFrom_quoteArgument, hs, ih _ hm,
        append_assoc, singleton_append]

end Words

/-! ## The line -/

/-- **Quotes protect the arguments of a rule.**  A line of quoted arguments keeps its end, has no
white space around it, is no key with a value, and its words are the arguments. -/
theorem quoted_arguments_protected {args : List Str} (hne : args ≠ [])
    (hargs : ∀ a ∈ args, a ≠ []) :
    stripRuleComment (quotedLine args) = quotedLine args ∧
      trim (quotedLine args) = quotedLine args ∧
      hasUnquotedEquals (quotedLine args) = false ∧
      tokenizeRuleLine (quotedLine args) = .ok args := by
  have hmark : ∀ mark, mark ≠ ' ' → beforeUnquoted mark false false (quotedLine args) = none :=
    fun mark hspace => beforeUnquoted_quotedLine hspace args
  refine ⟨?_, ?_, ?_, ?_⟩
  · rw [stripRuleComment, hmark '#' (by decide)]
    rfl
  · obtain ⟨inner, hinner⟩ := exists_quotedLine_eq hne
    have hquote : isWhitespace '"' = false := by decide
    rw [hinner]
    apply trim_of_ends
    · simp [hquote]
    · simp [List.getLast?_cons, hquote]
  · rw [hasUnquotedEquals, hmark '=' (by decide)]
    rfl
  · rw [tokenizeRuleLine, tokenizeFrom_quotedLine [] hargs, nil_append]

/-- A text with every character that has a meaning in a line. -/
theorem quoted_header_protected :
    tokenizeRuleLine "\"header\" \"X-A\" \"a # = \\\"b\\\" \\\\ \\n\"".toList =
      .ok ["header".toList, "X-A".toList, "a # = \"b\" \\ \n".toList] :=
  (@quoted_arguments_protected ["header".toList, "X-A".toList, "a # = \"b\" \\ \n".toList]
    (by decide) (by decide)).2.2.2

end Veysrs
