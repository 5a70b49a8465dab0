import Veysrs.Config.Rules

/-!
# Lines of a rule file

What `parse_veysrule_content` makes of a file, line by line.

**Panics.**  The only place where reading a line can panic is `parse_duration`, which cuts the last
byte off its argument: `NoPanic` holds of everything else, and a line ends the program exactly if it
is an `expires` directive whose argument ends in a character that is not ASCII
(`parseLine_panics_iff`).  The other cut at a byte, in `strip_rule_comment`, is at the start of a
character (`commentSlice_eq`).

**Refused lines.**  `LinesRun` is the run over the lines, with the numbers of the lines that are
refused.  Emptying those lines changes nothing (`LinesRun.blank`).
-/

namespace Veysrs

open Core List

/-! ## Panics -/

/-- The computation does not panic. -/
def NoPanic {α : Type} (x : Except RuleError α) : Prop := x ≠ .error .panic

section NoPanic

variable {α β : Type}

@[simp] lemma noPanic_ok (a : α) : NoPanic (.ok a) := by
  intro h
  cases h

@[simp] lemma noPanic_pure (a : α) : NoPanic (pure a) := noPanic_ok a

@[simp] lemma noPanic_message (text : Str) :
    NoPanic (.error (.message text) : Except RuleError α) := by
  intro h
  cases h

@[simp] lemma noPanic_refuse (text : String) : NoPanic (refuse text : Except RuleError α) :=
  noPanic_message _

lemma noPanic_bind {x : Except RuleError α} {f : α → Except RuleError β} (hx : NoPanic x)
    (hf : ∀ a, NoPanic (f a)) : NoPanic (x >>= f) := by
  cases x with
  | ok a => exact hf a
  | error e =>
    intro h
    exact hx (congrArg Except.error (Except.error.inj h))

end NoPanic

/-! ### Words and values -/

@[simp] lemma noPanic_tokenizeFrom (tokens : List Str) (current : Str) (quoted escaped : Bool)
    (line : Str) : NoPanic (tokenizeFrom tokens current quoted escaped line) := by
  induction line generalizing tokens current quoted escaped with
  | nil =>
    rw [tokenizeFrom]
    split_ifs <;> simp
  | cons ch rest ih =>
    rw [tokenizeFrom]
    split_ifs <;> simp [ih]

@[simp] lemma noPanic_validateRewritePattern (stack : List Char) (escaped : Bool) (pattern : Str) :
    NoPanic (validateRewritePattern stack escaped pattern) := by
  induction pattern generalizing stack escaped with
  | nil =>
    rw [validateRewritePattern]
    split_ifs <;> simp
  | cons ch rest ih =>
    rw [validateRewritePattern]
    split_ifs
    · exact ih _ _
    · exact ih _ _
    · exact ih _ _
    · split
      · exact ih _ _
      · split_ifs
        · exact ih _ _
        · simp

@[simp] lemma noPanic_parseCidr (value : Str) : NoPanic (parseCidr value) := by
  unfold parseCidr
  repeat' split
  all_goals simp

@[simp] lemma noPanic_parseStatus (value : Str) : NoPanic (parseStatus value) := by
  unfold parseStatus
  repeat' split
  all_goals simp

@[simp] lemma noPanic_needArgument (name : String) (args : List Str) :
    NoPanic (needArgument name args) := by
  unfold needArgument
  split_ifs <;> simp

@[simp] lemma noPanic_rewriteRule (pattern replacement : Str) (status : Option Str) :
    NoPanic (rewriteRule pattern replacement status) := by
  unfold rewriteRule
  split_ifs
  · simp
  · exact noPanic_bind (noPanic_validateRewritePattern _ _ _) fun _ => noPanic_refuse _
  · refine noPanic_bind (noPanic_validateRewritePattern _ _ _) fun _ => ?_
    cases status with
    | none => exact noPanic_ok _
    | some status => exact noPanic_bind (noPanic_parseStatus status) fun _ => noPanic_pure _

/-! ### Directives -/

@[simp] lemma noPanic_rewriteDirective (rewrites : List RewriteRule) (args : List Str) :
    NoPanic (rewriteDirective rewrites args) := by
  simp only [rewriteDirective]
  split
  · refine noPanic_bind (noPanic_rewriteRule _ _ _) fun rule => ?_
    split_ifs <;> simp
  · refine noPanic_bind (noPanic_rewriteRule _ _ _) fun rule => ?_
    split_ifs <;> simp
  · exact noPanic_bind (noPanic_refuse _) fun rule => by split_ifs <;> simp

@[simp] lemma noPanic_redirectDirective (args : List Str) : NoPanic (redirectDirective args) := by
  unfold redirectDirective
  split
  · refine noPanic_bind (noPanic_parseStatus _) fun status => ?_
    split_ifs <;> simp
  · simp

@[simp] lemma noPanic_errorPageDirective (args : List Str) : NoPanic (errorPageDirective args) := by
  unfold errorPageDirective
  split
  · refine noPanic_bind (noPanic_parseStatus _) fun status => ?_
    split_ifs <;> simp
  · simp

@[simp] lemma noPanic_methodsDirective (name : String) (args : List Str) :
    NoPanic (methodsDirective name args) := by
  refine noPanic_bind (noPanic_needArgument name args) fun _ => ?_
  split_ifs <;> simp

@[simp] lemma noPanic_indexDirective (name : String) (args : List Str) :
    NoPanic (indexDirective name args) := by
  refine noPanic_bind (noPanic_needArgument name args) fun _ => ?_
  split_ifs <;> simp

lemma NativeDirective.noPanic_of {ν : Type} {name : String} {read : List Str → Except RuleError ν}
    {set : ν → DirectoryConfig → DirectoryConfig} (h : ∀ args, NoPanic (read args))
    (args : List Str) (config : DirectoryConfig) :
    NoPanic ((NativeDirective.of name read set).apply args config) :=
  noPanic_bind (h args) fun _ => noPanic_pure _

/-- Of the native directives only `expires` can panic. -/
lemma noPanic_nativeDirectives : ∀ directive ∈ nativeDirectives, directive.name ≠ "expires" →
    ∀ args config, NoPanic (directive.apply args config) := by
  simp only [nativeDirectives, forall_mem_cons]
  refine ⟨?_, ?_, ?_, ?_, fun _ args config => noPanic_bind (noPanic_rewriteDirective _ _) fun _ =>
    noPanic_pure _, ?_, ?_, ?_, ?_, ?_, ?_, fun h => absurd rfl h, ?_, ?_,
    fun _ h => absurd h not_mem_nil⟩
  all_goals
    intro _
    refine NativeDirective.noPanic_of fun args => ?_
    simp only [headerDirective, removeHeaderDirective, networkDirective, switchDirective,
      mimeDirective, noPanic_redirectDirective, noPanic_methodsDirective, noPanic_indexDirective,
      noPanic_errorPageDirective]
    repeat' split
    all_goals simp

lemma RootDirective.noPanic_of {ν : Type} {key : String} {read : Str → Except RuleError ν}
    {set : ν → ServerConfig → ServerConfig} (h : ∀ val, NoPanic (read val)) (val : Str)
    (config : ServerConfig) : NoPanic ((RootDirective.of key read set).apply val config) :=
  noPanic_bind (h val) fun _ => noPanic_pure _

lemma noPanic_rootDirectives :
    ∀ directive ∈ rootDirectives, ∀ val config, NoPanic (directive.apply val config) := by
  simp only [rootDirectives, forall_mem_cons, not_mem_nil, false_imp_iff, implies_true, and_true]
  and_intros
  all_goals
    refine RootDirective.noPanic_of fun val => ?_
    simp only [readNumber, readPort, readPath, readLogFormat, readLogDestination, readBoolean,
      readCompressionLevel, readCompressionMime, readPositive, readSecurity, readVhost, readProxy,
      readFastcgi, readFrontController]
    repeat' split
    all_goals simp

lemma noPanic_keyDirective (isRoot : Bool) (key val : Str) (state : RuleState) :
    NoPanic (keyDirective isRoot key val state) := by
  unfold keyDirective
  split
  · rename_i directive hf
    split_ifs
    · exact noPanic_bind
        (noPanic_rootDirectives directive (mem_of_find?_eq_some hf) val state.server)
        fun _ => noPanic_pure _
    · simp
  · split_ifs
    · simp only [denyHiddenDirective]
      split_ifs <;> simp
    · refine noPanic_bind ?_ fun _ => noPanic_pure _
      unfold denyIpDirective
      split <;> simp
    · refine noPanic_bind ?_ fun _ => noPanic_pure _
      unfold legacyHeaderDirective
      repeat' split
      all_goals simp
    · refine noPanic_bind ?_ fun _ => noPanic_pure _
      unfold redirect404Directive
      split_ifs <;> simp
    · simp

/-! ### Durations -/

/-- The argument ends in a character of several bytes. -/
def EndsInside (value : Str) : Prop := ∃ suffix, value.getLast? = some suffix ∧ 128 ≤ suffix.toNat

/-- `parse_duration` panics where `split_at` does. -/
lemma parseDuration_panics_iff {value : Str} :
    parseDuration value = .error .panic ↔ EndsInside value := by
  unfold parseDuration EndsInside
  cases hla : value.getLast? with
  | none =>
    refine iff_of_false (noPanic_refuse _) ?_
    simp
  | some suffix =>
    simp only [Option.some.injEq, exists_eq_left']
    split_ifs with hl
    · exact iff_of_true rfl hl
    · refine iff_of_false ?_ hl
      show NoPanic _
      repeat' split
      all_goals simp

/-- That is where the last byte cannot be cut off. -/
lemma endsInside_iff_splitAtByte {value : Str} :
    EndsInside value ↔ splitAtByte value ((utf8 value).length - 1) = none := by
  rcases eq_nil_or_concat' value with rfl | ⟨init, suffix, rfl⟩
  · refine iff_of_false ?_ (by decide)
    rintro ⟨suffix, hn, -⟩
    cases hn
  · rw [splitAtByte_last, EndsInside]
    by_cases hc : suffix.toNat < 128
    · simp [hc]
    · simp [Nat.not_lt.mp hc]

/-! ### Lines -/

/-- The line is an `expires` directive with this argument. -/
def ExpiresLine (line value : Str) : Prop :=
  hasUnquotedEquals (trim (stripRuleComment line)) = false ∧
    tokenizeRuleLine (trim (stripRuleComment line)) = .ok ["expires".toList, value]

/-- An `expires` directive whose argument ends in a character of several bytes. -/
def LinePanics (line : Str) : Prop := ∃ value, ExpiresLine line value ∧ EndsInside value

lemma expiresDirective_panics_iff {args : List Str} :
    expiresDirective args = .error .panic ↔ ∃ value, args = [value] ∧ EndsInside value := by
  unfold expiresDirective
  split
  · simp [parseDuration_panics_iff]
  · rename_i ha
    exact iff_of_false (noPanic_refuse _) fun ⟨value, hv, _⟩ => ha value hv

lemma except_bind_pure_eq_error {α β : Type} {x : Except RuleError α} {f : α → β} {e : RuleError} :
    (do return f (← x)) = Except.error e ↔ x = .error e := by
  cases x with
  | ok a => exact iff_of_false (fun h => by cases h) fun h => by cases h
  | error e' =>
    constructor
    · exact fun h => congrArg Except.error (Except.error.inj h)
    · exact fun h => congrArg Except.error (Except.error.inj h)

/-- The directives are told apart by their names, so the panicking one is `expires`. -/
lemma nativeDirective_panics_iff {name : Str} {args : List Str} {config : DirectoryConfig} :
    nativeDirective name args config = .error .panic ↔
      name = "expires".toList ∧ ∃ value, args = [value] ∧ EndsInside value := by
  rw [← expiresDirective_panics_iff]
  by_cases hn : name = "expires".toList
  · subst hn
    have hex : nativeDirective "expires".toList args config =
        (do return { config with expires := some (← expiresDirective args) }) := rfl
    rw [hex, except_bind_pure_eq_error, and_iff_right rfl]
  · refine iff_of_false ?_ fun h => hn h.1
    unfold nativeDirective
    split
    · rename_i directive hfi
      refine noPanic_nativeDirectives directive (mem_of_find?_eq_some hfi) ?_ args config
      rintro hex
      have hf := List.find?_some hfi
      rw [hex, decide_eq_true_eq] at hf
      exact hn hf.symm
    · exact noPanic_message _

lemma parseNativeDirective_panics_iff {line : Str} {config : DirectoryConfig} :
    parseNativeDirective line config = .error .panic ↔
      ∃ value, tokenizeRuleLine line = .ok ["expires".toList, value] ∧ EndsInside value := by
  rw [parseNativeDirective]
  have hc : NoPanic (tokenizeRuleLine line) := noPanic_tokenizeFrom _ _ _ _ _
  cases hw : tokenizeRuleLine line with
  | error e =>
    rw [hw] at hc
    refine iff_of_false (fun h => hc (congrArg Except.error (Except.error.inj h))) ?_
    rintro ⟨value, hok, -⟩
    cases hok
  | ok words =>
    cases words with
    | nil =>
      refine iff_of_false (noPanic_pure config) ?_
      rintro ⟨value, hok, -⟩
      cases hok
    | cons name args =>
      refine nativeDirective_panics_iff.trans ?_
      simp only [Except.ok.injEq, List.cons.injEq]
      constructor
      · rintro ⟨hn, value, ha, hend⟩
        exact ⟨value, ⟨hn, ha⟩, hend⟩
      · rintro ⟨value, ⟨hn, ha⟩, hend⟩
        exact ⟨hn, value, ha, hend⟩

/-- **What ends the program is an `expires` directive**, whatever the lines before it were. -/
lemma parseLine_panics_iff (isRoot : Bool) (state : RuleState) (line : Str) :
    parseLine isRoot state line = .error .panic ↔ LinePanics line := by
  simp only [parseLine, LinePanics, ExpiresLine]
  generalize trim (stripRuleComment line) = trimmed
  by_cases hb : trimmed = []
  · subst hb
    refine iff_of_false (by simp) ?_
    rintro ⟨value, ⟨-, hw⟩, -⟩
    cases hw
  · rw [if_neg hb]
    cases hasUnquotedEquals trimmed with
    | false =>
      rw [Bool.not_false, if_pos rfl, except_bind_pure_eq_error,
        parseNativeDirective_panics_iff]
      simp
    | true =>
      refine iff_of_false ?_ ?_
      · rw [Bool.not_true, if_neg Bool.false_ne_true]
        show NoPanic _
        split
        · simp
        · exact noPanic_keyDirective _ _ _ _
      · rintro ⟨value, ⟨hequals, -⟩, -⟩
        cases hequals

lemma parseStep_eq_none_iff (fileName : Str) (isRoot : Bool) (parsed : ParsedRules)
    (line : Str × ℕ) : parseStep fileName isRoot parsed line = none ↔ LinePanics line.1 := by
  rw [← parseLine_panics_iff isRoot parsed.state, parseStep]
  split
  · rename_i hl
    simp [hl]
  · rename_i hl
    simp [hl]
  · rename_i hl
    simp [hl]

/-- **A file is parsed to its end unless one of its lines panics.** -/
lemma parseVeysruleContent_eq_none_iff {content fileName : Str} {isRoot : Bool} :
    parseVeysruleContent content fileName isRoot = none ↔
      ∃ line ∈ strLines content, LinePanics line := by
  rw [parseVeysruleContent]
  generalize ({} : ParsedRules) = parsed, 1 = number
  induction strLines content generalizing parsed number with
  | nil => simp
  | cons line lines ih =>
    rw [zipIdx_cons, foldlM_cons, exists_mem_cons_iff,
      ← parseStep_eq_none_iff fileName isRoot parsed (line, number)]
    cases parseStep fileName isRoot parsed (line, number) with
    | none => simp
    | some next => simpa using ih next (number + 1)

/-! ### Slices -/

/-- `strip_rule_comment` as the source has it: the byte at which the comment starts. -/
def commentIndex (quoted escaped : Bool) (idx : ℕ) : Str → Option ℕ
  | [] => none
  | ch :: rest =>
    let next := idx + ch.utf8Size
    if escaped then commentIndex quoted false next rest
    else if ch = '\\' ∧ quoted then commentIndex quoted true next rest
    else if ch = '"' then commentIndex (!quoted) false next rest
    else if ch = '#' ∧ !quoted then some idx
    else commentIndex quoted false next rest

/-- The line up to that byte, if the line can be cut there. -/
def commentSlice (line : Str) : Option Str :=
  match commentIndex false false 0 line with
  | none => some line
  | some idx => (splitAtByte line idx).map Prod.fst

lemma commentIndex_eq (quoted escaped : Bool) (idx : ℕ) (line : Str) :
    commentIndex quoted escaped idx line =
      (beforeUnquoted '#' quoted escaped line).map fun before => idx + (utf8 before).length := by
  induction line generalizing quoted escaped idx with
  | nil => rfl
  | cons ch rest ih =>
    rw [commentIndex, beforeUnquoted]
    split_ifs
    all_goals
      simp [ih, Function.comp_def, Nat.add_assoc]

lemma beforeUnquoted_append {mark : Char} {quoted escaped : Bool} {line before : Str}
    (h : beforeUnquoted mark quoted escaped line = some before) : ∃ rest, line = before ++ rest := by
  induction line generalizing quoted escaped before with
  | nil => cases h
  | cons ch rest ih =>
    rw [beforeUnquoted] at h
    split_ifs at h
    all_goals try
      obtain ⟨before, hb, rfl⟩ := Option.map_eq_some_iff.mp h
      obtain ⟨more, rfl⟩ := ih hb
      exact ⟨more, rfl⟩
    cases h
    exact ⟨ch :: rest, rfl⟩

/-- The comment starts at a character, so that the line can be cut there. -/
lemma commentSlice_eq (line : Str) : commentSlice line = some (stripRuleComment line) := by
  rw [commentSlice, commentIndex_eq, stripRuleComment]
  cases hb : beforeUnquoted '#' false false line with
  | none => rfl
  | some before =>
    obtain ⟨rest, rfl⟩ := beforeUnquoted_append hb
    simp [splitAtByte_append]

/-- No cut and no sum of the parser goes wrong: comments and units of time are cut off at a
character, and every line has a result. -/
structure ParsesSafely (content fileName : Str) (isRoot : Bool) : Prop where
  comments : ∀ line ∈ strLines content, (commentSlice line).isSome
  durations : ∀ line ∈ strLines content, ∀ value, ExpiresLine line value →
    (splitAtByte value ((utf8 value).length - 1)).isSome
  returns : (parseVeysruleContent content fileName isRoot).isSome

/-- **When a rule file can be parsed**: if no line is an `expires` directive with an argument that
ends in a character that is not ASCII. -/
theorem parsesSafely_iff (content fileName : Str) (isRoot : Bool) :
    ParsesSafely content fileName isRoot ↔ ∀ line ∈ strLines content, ¬ LinePanics line := by
  constructor
  · intro hsafe line hline hpanics
    refine Option.ne_none_iff_isSome.mpr hsafe.returns ?_
    rw [parseVeysruleContent_eq_none_iff]
    exact ⟨line, hline, hpanics⟩
  · intro hcalm
    refine ⟨fun line _ => ?_, fun line hline value hexpires => ?_, ?_⟩
    · rw [commentSlice_eq]
      rfl
    · rw [← Option.ne_none_iff_isSome, ne_eq, ← endsInside_iff_splitAtByte]
      exact fun hend => hcalm line hline ⟨value, hexpires, hend⟩
    · rw [← Option.ne_none_iff_isSome, ne_eq, parseVeysruleContent_eq_none_iff]
      exact fun ⟨line, hline, hpanics⟩ => hcalm line hline hpanics

/-- The last byte of the argument is the second one of its character. -/
theorem expires_accented_panics : ¬ ParsesSafely "expires 5é".toList ".veysrule".toList false := by
  intro hsafe
  have hreturns := hsafe.returns
  revert hreturns
  decide

/-! ## Refused lines -/

/-- A run over the lines from `number` on: the configurations before and after it, and the lines
that were refused with their messages. -/
inductive LinesRun (isRoot : Bool) :
    ℕ → RuleState → List Str → RuleState → List (ℕ × Str) → Prop where
  | nil (number : ℕ) (state : RuleState) : LinesRun isRoot number state [] state []
  | taken {number : ℕ} {state next final : RuleState} {line : Str} {lines : List Str}
      {refused : List (ℕ × Str)} (hline : parseLine isRoot state line = .ok next)
      (hrest : LinesRun isRoot (number + 1) next lines final refused) :
      LinesRun isRoot number state (line :: lines) final refused
  | refused {number : ℕ} {state final : RuleState} {line text : Str} {lines : List Str}
      {refused : List (ℕ × Str)} (hline : parseLine isRoot state line = .error (.message text))
      (hrest : LinesRun isRoot (number + 1) state lines final refused) :
      LinesRun isRoot number state (line :: lines) final ((number, text) :: refused)

/-- The errors that are reported for refused lines. -/
def errorsOf (fileName : Str) (refused : List (ℕ × Str)) : List ConfigParseError :=
  refused.map fun entry => ⟨fileName, entry.1, entry.2⟩

section Run

variable {isRoot : Bool} {number : ℕ} {state final : RuleState} {lines : List Str}
  {refused : List (ℕ × Str)}

/-- The loop of the parser is such a run. -/
lemma exists_linesRun {fileName : Str} {errors : List ConfigParseError} {parsed : ParsedRules}
    (h : (lines.zipIdx number).foldlM (parseStep fileName isRoot) ⟨state, errors⟩ = some parsed) :
    ∃ refused, LinesRun isRoot number state lines parsed.state refused ∧
      parsed.errors = errors ++ errorsOf fileName refused := by
  induction lines generalizing number state errors with
  | nil =>
    cases h
    exact ⟨[], .nil number state, (append_nil errors).symm⟩
  | cons line lines ih =>
    rw [zipIdx_cons, foldlM_cons] at h
    cases hl : parseLine isRoot state line with
    | ok next =>
      simp only [parseStep, hl] at h
      obtain ⟨refused, hr, her⟩ := ih h
      exact ⟨refused, .taken hl hr, her⟩
    | error e =>
      cases e with
      | message text =>
        simp only [parseStep, hl] at h
        obtain ⟨refused, hr, her⟩ := ih h
        refine ⟨(number, text) :: refused, .refused hl hr, ?_⟩
        rw [her, append_assoc]
        rfl
      | panic =>
        simp only [parseStep, hl] at h
        cases h

/-- And such a run is the loop of the parser. -/
lemma LinesRun.foldlM_eq (h : LinesRun isRoot number state lines final refused) (fileName : Str)
    (errors : List ConfigParseError) :
    (lines.zipIdx number).foldlM (parseStep fileName isRoot) ⟨state, errors⟩ =
      some ⟨final, errors ++ errorsOf fileName refused⟩ := by
  induction h generalizing errors with
  | nil number state => simp [errorsOf]
  | taken hl hr ih => simp [parseStep, hl, ih]
  | refused hl hr ih => simp [parseStep, hl, ih, errorsOf]

/-- A refused line is the one with its number. -/
lemma LinesRun.line_of_mem (h : LinesRun isRoot number state lines final refused) :
    ∀ entry ∈ refused, ∃ line before, (line, entry.1) ∈ lines.zipIdx number ∧
      parseLine isRoot before line = .error (.message entry.2) := by
  induction h with
  | nil number state => simp
  | taken hl hre ih =>
    intro entry hen
    obtain ⟨line, before, hm, hr⟩ := ih entry hen
    exact ⟨line, before, mem_cons_of_mem _ hm, hr⟩
  | refused hl hre ih =>
    intro entry hen
    rcases mem_cons.mp hen with rfl | hen
    · exact ⟨_, _, mem_cons_self, hl⟩
    · obtain ⟨line, before, hm, hr⟩ := ih entry hen
      exact ⟨line, before, mem_cons_of_mem _ hm, hr⟩

lemma LinesRun.le_of_mem (h : LinesRun isRoot number state lines final refused) {entry : ℕ × Str}
    (hen : entry ∈ refused) : number ≤ entry.1 := by
  obtain ⟨line, before, hm, -⟩ := h.line_of_mem entry hen
  exact le_snd_of_mem_zipIdx hm

/-- No line is refused twice. -/
lemma LinesRun.pairwise (h : LinesRun isRoot number state lines final refused) :
    (refused.map Prod.fst).Pairwise (· < ·) := by
  induction h with
  | nil number state => exact List.Pairwise.nil
  | taken hli hr ih => exact ih
  | refused hli hr ih =>
    refine pairwise_cons.mpr ⟨?_, ih⟩
    intro later hl
    obtain ⟨entry, hen, rfl⟩ := mem_map.mp hl
    exact hr.le_of_mem hen

/-! ### Emptying lines -/

/-- The line, or an empty one if it has one of the numbers. -/
def blanked (numbers : List ℕ) (line : Str × ℕ) : Str := if line.2 ∈ numbers then [] else line.1

/-- The content with an empty line for each of the numbers. -/
def blankLines (numbers : List ℕ) (content : Str) : Str :=
  ['\n'].intercalate (((content.splitOn '\n').zipIdx 1).map (blanked numbers))

lemma parseLine_nil (isRoot : Bool) (state : RuleState) : parseLine isRoot state [] = .ok state :=
  rfl

/-- **Without the refused lines the run is the same**, and nothing is refused. -/
lemma LinesRun.blank {numbers : List ℕ} (h : LinesRun isRoot number state lines final refused)
    (hnu : ∀ n, number ≤ n → (n ∈ numbers ↔ n ∈ refused.map Prod.fst)) :
    LinesRun isRoot number state ((lines.zipIdx number).map (blanked numbers)) final [] := by
  induction h with
  | nil number state => exact .nil number state
  | @taken number state next final line lines refused hl hr ih =>
    have hk : number ∉ numbers := by
      rw [hnu number le_rfl]
      intro hm
      obtain ⟨entry, hen, hnum⟩ := mem_map.mp hm
      have hle := hr.le_of_mem hen
      omega
    rw [zipIdx_cons, map_cons, blanked, if_neg hk]
    exact .taken hl (ih fun n hn => hnu n (Nat.le_of_succ_le hn))
  | @refused number state final line text lines refused hl hr ih =>
    have hb : number ∈ numbers := by
      rw [hnu number le_rfl]
      exact mem_cons_self
    rw [zipIdx_cons, map_cons, blanked, if_pos hb]
    refine .taken (parseLine_nil isRoot state) (ih fun n hn => ?_)
    rw [hnu n (Nat.le_of_succ_le hn), map_cons, mem_cons]
    exact or_iff_right (by omega)

/-- An empty line at the end is not missed. -/
lemma LinesRun.drop_blank (h : LinesRun isRoot number state (lines ++ [[]]) final []) :
    LinesRun isRoot number state lines final [] := by
  induction lines generalizing number state with
  | nil =>
    cases h with
    | taken hl hr =>
      cases hl
      cases hr
      exact .nil _ _
  | cons line lines ih =>
    cases h with
    | taken hl hr => exact .taken hl (ih hr)

end Run

/-! ### Lines of a text -/

/-- A carriage return before a line feed goes with it. -/
def chopReturn (line : Str) : Str := if line.getLast? = some '\r' then line.dropLast else line

/-- What stands between line feeds, as lines. -/
def linesOf (parts : List Str) : List Str :=
  parts.dropLast.map chopReturn ++ if parts.getLastD [] = [] then [] else [parts.getLastD []]

lemma strLines_eq (content : Str) : strLines content = linesOf (content.splitOn '\n') := rfl

lemma linesOf_singleton (part : Str) : linesOf [part] = if part = [] then [] else [part] := rfl

lemma linesOf_cons_cons (part next : Str) (parts : List Str) :
    linesOf (part :: next :: parts) = chopReturn part :: linesOf (next :: parts) := rfl

lemma chopReturn_blanked (numbers : List ℕ) (part : Str) (number : ℕ) :
    chopReturn (blanked numbers (part, number)) = blanked numbers (chopReturn part, number) := by
  unfold blanked
  split_ifs
  · rfl
  · rfl

/-- Emptying the parts empties the lines, but for an empty line at the end that is none. -/
lemma blank_linesOf (numbers : List ℕ) {parts : List Str} (hne : parts ≠ []) (number : ℕ) :
    ∃ tail, (tail = [] ∨ tail = [[]]) ∧
      ((linesOf parts).zipIdx number).map (blanked numbers) =
        linesOf ((parts.zipIdx number).map (blanked numbers)) ++ tail := by
  induction parts generalizing number with
  | nil => exact absurd rfl hne
  | cons part parts ih =>
    cases parts with
    | nil =>
      rw [zipIdx_singleton, map_singleton, linesOf_singleton, linesOf_singleton]
      by_cases hp : part = []
      · exact ⟨[], .inl rfl, by simp [blanked, hp]⟩
      · by_cases hb : number ∈ numbers
        · exact ⟨[[]], .inr rfl, by simp [blanked, hp, hb]⟩
        · exact ⟨[], .inl rfl, by simp [blanked, hp, hb]⟩
    | cons next parts =>
      obtain ⟨tail, ht, hl⟩ := ih (cons_ne_nil next parts) (number + 1)
      refine ⟨tail, ht, ?_⟩
      rw [zipIdx_cons, map_cons] at hl
      rw [linesOf_cons_cons, zipIdx_cons, map_cons, hl, zipIdx_cons,
        map_cons, zipIdx_cons, map_cons, linesOf_cons_cons, chopReturn_blanked]
      rfl

lemma splitOn_blankLines (numbers : List ℕ) (content : Str) :
    (blankLines numbers content).splitOn '\n' =
      ((content.splitOn '\n').zipIdx 1).map (blanked numbers) := by
  refine splitOn_intercalate '\n' ?_ ?_
  · intro part hp
    obtain ⟨⟨piece, number⟩, hm, rfl⟩ := mem_map.mp hp
    rw [blanked]
    split_ifs
    · exact not_mem_nil
    · exact (piece_of_mem_splitOn (fst_mem_of_mem_zipIdx hm)).1
  · simp [splitOn_ne_nil]

/-- A run over the emptied lines is one over the lines of the emptied text. -/
lemma LinesRun.of_blank {isRoot : Bool} {state final : RuleState} {numbers : List ℕ} {content : Str}
    (h : LinesRun isRoot 1 state (((strLines content).zipIdx 1).map (blanked numbers)) final []) :
    LinesRun isRoot 1 state (strLines (blankLines numbers content)) final [] := by
  rw [strLines_eq, splitOn_blankLines]
  obtain ⟨tail, ht, hl⟩ := blank_linesOf numbers (splitOn_ne_nil '\n' content) 1
  rw [strLines_eq, hl] at h
  rcases ht with rfl | rfl
  · rwa [append_nil] at h
  · exact h.drop_blank

/-! ### A bad line changes nothing -/

lemma server_parseLine {state state' : RuleState} {line : Str}
    (h : parseLine false state line = .ok state') : state'.server = state.server := by
  rcases parseLine_cases h with rfl | ⟨_, _, _, _, _, rfl⟩ | ⟨key, val, hk⟩
  · rfl
  · rfl
  · rcases keyDirective_cases hk with ⟨hr, -⟩ | ⟨_, rfl⟩ | ⟨_, _, _, rfl⟩
    · cases hr
    · rfl
    · rfl

/-- What is returned for a file: at most one error for a line, with the number of that line, and the
configurations that the file has without those lines. -/
structure BadLinesIgnored (content fileName : Str) (isRoot : Bool) (parsed : ParsedRules) :
    Prop where
  ordered : (parsed.errors.map (·.lineNumber)).Pairwise (· < ·)
  located : ∀ error ∈ parsed.errors, error.fileName = fileName ∧
    ∃ line before, (line, error.lineNumber) ∈ (strLines content).zipIdx 1 ∧
      parseLine isRoot before line = .error (.message error.message)
  same : parseVeysruleContent (blankLines (parsed.errors.map (·.lineNumber)) content) fileName
    isRoot = some ⟨parsed.state, []⟩
  server : isRoot = false → parsed.state.server = {}

lemma badLinesIgnored_of_eq_some {content fileName : Str} {isRoot : Bool} {parsed : ParsedRules}
    (h : parseVeysruleContent content fileName isRoot = some parsed) :
    BadLinesIgnored content fileName isRoot parsed := by
  obtain ⟨refused, hr, her⟩ := exists_linesRun h
  rw [nil_append] at her
  have hn : parsed.errors.map (·.lineNumber) = refused.map Prod.fst := by
    rw [her, errorsOf, map_map]
    rfl
  constructor
  · rw [hn]
    exact hr.pairwise
  · intro error herr
    rw [her] at herr
    obtain ⟨entry, hen, rfl⟩ := mem_map.mp herr
    exact ⟨rfl, hr.line_of_mem entry hen⟩
  · have hb := hr.blank fun n _ => iff_of_eq (congrArg (n ∈ ·) hn)
    exact hb.of_blank.foldlM_eq fileName []
  · rintro rfl
    refine keeps_parseVeysruleContent (I := fun state => state.server = {}) rfl ?_ h
    intro state state' line hs hl
    rw [server_parseLine hl, hs]

/-- **A bad rule line changes nothing, unless it panics.** -/
theorem bad_lines_ignored_iff (content fileName : Str) (isRoot : Bool) :
    (∃ parsed, parseVeysruleContent content fileName isRoot = some parsed ∧
        BadLinesIgnored content fileName isRoot parsed) ↔
      ∀ line ∈ strLines content, ¬ LinePanics line := by
  constructor
  · rintro ⟨parsed, hparsed, -⟩ line hline hpanics
    have hnone : parseVeysruleContent content fileName isRoot = none :=
      parseVeysruleContent_eq_none_iff.mpr ⟨line, hline, hpanics⟩
    rw [hparsed] at hnone
    cases hnone
  · intro hcalm
    cases hparsed : parseVeysruleContent content fileName isRoot with
    | some parsed => exact ⟨parsed, rfl, badLinesIgnored_of_eq_some hparsed⟩
    | none =>
      obtain ⟨line, hline, hpanics⟩ := parseVeysruleContent_eq_none_iff.mp hparsed
      exact absurd hpanics (hcalm line hline)

/-- The first line is not taken either. -/
theorem accented_expires_not_ignored :
    ¬ ∃ parsed, parseVeysruleContent "methods GET\nexpires 5é".toList ".veysrule".toList false =
        some parsed ∧
      BadLinesIgnored "methods GET\nexpires 5é".toList ".veysrule".toList false parsed := by
  rintro ⟨parsed, hparsed, -⟩
  have hnone : parseVeysruleContent "methods GET\nexpires 5é".toList ".veysrule".toList false =
      none := by
    decide
  rw [hnone] at hparsed
  cases hparsed

end Veysrs
