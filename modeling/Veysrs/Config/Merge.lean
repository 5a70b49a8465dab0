import Veysrs.Config.Directory

/-!
# Merging rules

What `DirectoryConfig::merge` does to the lists of a configuration.

**Sets.**  A list that is extended by what is not in it yet has the elements of both lists
(`mem_foldl_pushUnless`), so over any number of levels the addresses and networks of all of them are
there (`mem_denyIps_chain` and the two like it).

**Merging twice.**  Both ways to extend a list, by what is new and by giving the first entry of a
name its value, are idempotent (`foldl_pushUnless_again`, `foldl_setFirst_again`); and both go
through the removal of names (`filter_foldl_pushUnless`, `filter_foldl_setFirst`), so that what a
level adds and removes is added and removed again with no effect (`merge_again`).
-/

namespace Veysrs

open Core List

/-! ## What is new is pushed -/

section Push

variable {α : Type} {same : α → α → Bool}

/-- The same for an equality: the elements of both lists. -/
lemma mem_foldl_pushUnless [DecidableEq α] {a : α} (child items : List α) :
    a ∈ child.foldl (pushUnless (· = ·)) items ↔ a ∈ items ∨ a ∈ child := by
  induction child generalizing items with
  | nil => simp
  | cons item child ih =>
    rw [foldl_cons, ih, mem_cons]
    have hp : a ∈ pushUnless (· = ·) items item ↔ a ∈ items ∨ a = item := by
      rw [pushUnless]
      split_ifs with ht
      · have hm : item ∈ items := by simpa using ht
        exact ⟨.inl, fun h => h.elim id fun heq => heq ▸ hm⟩
      · simp
    rw [hp, or_assoc]

/-- What is there stays. -/
lemma any_foldl_pushUnless {item : α} (child : List α) : ∀ {items : List α},
    items.any (same · item) = true → (child.foldl (pushUnless same) items).any (same · item) = true := by
  induction child with
  | nil => exact id
  | cons other child ih =>
    intro items h
    refine ih ?_
    rw [pushUnless]
    split_ifs
    · exact h
    · rw [any_append, h, Bool.true_or]

/-- Everything that was to be pushed is there in the end. -/
lemma any_foldl_pushUnless_of_mem (hr : ∀ a, same a a = true) (child : List α) :
    ∀ {items : List α}, ∀ item ∈ child,
      (child.foldl (pushUnless same) items).any (same · item) = true := by
  induction child with
  | nil => exact fun item hi => absurd hi not_mem_nil
  | cons first child ih =>
    intro items item hi
    rcases mem_cons.mp hi with rfl | hi
    · refine any_foldl_pushUnless child ?_
      rw [pushUnless]
      split_ifs with ht
      · exact ht
      · rw [any_append, any_cons, hr, Bool.true_or, Bool.or_true]
    · exact ih item hi

lemma foldl_pushUnless_of_any (child : List α) : ∀ {items : List α},
    (∀ item ∈ child, items.any (same · item) = true) →
      child.foldl (pushUnless same) items = items := by
  induction child with
  | nil => exact fun _ => rfl
  | cons item child ih =>
    intro items h
    obtain ⟨hi, hc⟩ := forall_mem_cons.mp h
    rw [foldl_cons, pushUnless, if_pos hi]
    exact ih hc

/-- **Nothing is new the second time.** -/
lemma foldl_pushUnless_again (hr : ∀ a, same a a = true) (child items : List α) :
    child.foldl (pushUnless same) (child.foldl (pushUnless same) items) =
      child.foldl (pushUnless same) items :=
  foldl_pushUnless_of_any child (any_foldl_pushUnless_of_mem hr child)

/-- Elements that are the same are kept or taken out together, so it does not matter whether some
are taken out before or after others are pushed. -/
lemma filter_foldl_pushUnless {keep : α → Bool}
    (hk : ∀ a b, same a b = true → keep a = keep b) (child : List α) : ∀ items : List α,
    (child.foldl (pushUnless same) items).filter keep =
      (child.filter keep).foldl (pushUnless same) (items.filter keep) := by
  induction child with
  | nil => exact fun _ => rfl
  | cons item child ih =>
    intro items
    rw [foldl_cons, ih, filter_cons]
    cases hi : keep item with
    | true =>
      have ha : (items.filter keep).any (same · item) = items.any (same · item) := by
        rw [any_filter]
        refine congrArg (List.any items) (funext fun a => ?_)
        cases hs : same a item with
        | true => rw [hk a item hs, hi, Bool.true_and]
        | false => rw [Bool.and_false]
      rw [if_pos rfl, foldl_cons, pushUnless, pushUnless, ha]
      split_ifs
      · rfl
      · rw [filter_append, filter_cons_of_pos hi, filter_nil]
    | false =>
      rw [if_neg Bool.false_ne_true, pushUnless]
      split_ifs
      · rfl
      · rw [filter_append, filter_cons_of_neg (by rw [hi]; exact Bool.false_ne_true),
          filter_nil, append_nil]

end Push

/-! ## The first entry of a name gets the value -/

section Set

variable {κ ν : Type} {same : κ → κ → Bool}

lemma setFirst_of_not_any {entry : κ × ν} {items : List (κ × ν)}
    (h : items.any (same ·.1 entry.1) = false) : setFirst same entry items = items ++ [entry] := by
  induction items with
  | nil => rfl
  | cons first items ih =>
    rw [any_cons, Bool.or_eq_false_iff] at h
    rw [setFirst, if_neg (by rw [h.1]; exact Bool.false_ne_true), ih h.2, cons_append]

lemma setFirst_append_of_any {entry : κ × ν} {items : List (κ × ν)}
    (h : items.any (same ·.1 entry.1) = true) (more : List (κ × ν)) :
    setFirst same entry (items ++ more) = setFirst same entry items ++ more := by
  induction items with
  | nil => cases h
  | cons first items ih =>
    rw [cons_append, setFirst, setFirst]
    split_ifs with hf
    · rfl
    · rw [any_cons, Bool.or_eq_true] at h
      rw [ih (h.resolve_left hf), cons_append]

lemma setFirst_append_of_not_any {entry : κ × ν} {items : List (κ × ν)}
    (h : items.any (same ·.1 entry.1) = false) (more : List (κ × ν)) :
    setFirst same entry (items ++ more) = items ++ setFirst same entry more := by
  induction items with
  | nil => rfl
  | cons first items ih =>
    rw [any_cons, Bool.or_eq_false_iff] at h
    rw [cons_append, setFirst, if_neg (by rw [h.1]; exact Bool.false_ne_true), ih h.2,
      cons_append]

/-- Names that are there stay, and no other of a kind comes in but the new one. -/
lemma any_setFirst {p : κ → Bool} (entry : κ × ν) (items : List (κ × ν)) :
    (setFirst same entry items).any (p ·.1) =
      (items.any (p ·.1) || (!items.any (same ·.1 entry.1) && p entry.1)) := by
  induction items with
  | nil => simp [setFirst]
  | cons first items ih =>
    rw [setFirst]
    split_ifs with hf
    · simp [hf]
    · simp [ih, hf, Bool.or_assoc]

lemma any_foldl_setFirst {p : κ → Bool} (child : List (κ × ν)) : ∀ {items : List (κ × ν)},
    items.any (p ·.1) = true →
      (child.foldl (fun items entry => setFirst same entry items) items).any (p ·.1) = true := by
  induction child with
  | nil => exact id
  | cons entry child ih =>
    intro items h
    refine ih ?_
    rw [any_setFirst, h, Bool.true_or]

/-- Every name that was to be set is there in the end. -/
lemma any_foldl_setFirst_of_mem (hr : ∀ k, same k k = true) (child : List (κ × ν)) :
    ∀ items : List (κ × ν), ∀ entry ∈ child,
      (child.foldl (fun items entry => setFirst same entry items) items).any
        (same ·.1 entry.1) = true := by
  induction child with
  | nil => exact fun _ entry hen => absurd hen not_mem_nil
  | cons first child ih =>
    intro items entry hen
    rcases mem_cons.mp hen with rfl | hen
    · refine any_foldl_setFirst (p := (same · entry.1)) child ?_
      rw [any_setFirst (p := (same · entry.1)), hr, Bool.and_true, Bool.or_not_self]
    · exact ih _ entry hen

lemma foldl_setFirst_append (child : List (κ × ν)) : ∀ {items : List (κ × ν)},
    (∀ entry ∈ child, items.any (same ·.1 entry.1) = true) → ∀ more : List (κ × ν),
      child.foldl (fun items entry => setFirst same entry items) (items ++ more) =
        child.foldl (fun items entry => setFirst same entry items) items ++ more := by
  induction child with
  | nil => exact fun _ _ => rfl
  | cons entry child ih =>
    intro items h more
    obtain ⟨hen, hc⟩ := forall_mem_cons.mp h
    rw [foldl_cons, setFirst_append_of_any hen]
    refine ih (fun other ho => ?_) more
    rw [any_setFirst (p := (same · other.1)), hc other ho, Bool.true_or]

/-! ### Lists that differ in one value -/

/-- Equal but for the value of the first entry of a name. -/
def DifferAt (same : κ → κ → Bool) (name : κ) (items items' : List (κ × ν)) : Prop :=
  ∃ before k v v' after, items = before ++ (k, v) :: after ∧ items' = before ++ (k, v') :: after ∧
    before.any (same ·.1 name) = false ∧ same k name = true

/-- Setting that value makes them equal. -/
lemma DifferAt.setFirst_eq {entry : κ × ν} {items items' : List (κ × ν)}
    (h : DifferAt same entry.1 items items') :
    setFirst same entry items = setFirst same entry items' := by
  obtain ⟨before, k, v, v', after, rfl, rfl, hb, hk⟩ := h
  rw [setFirst_append_of_not_any hb, setFirst_append_of_not_any hb, setFirst, if_pos hk,
    setFirst, if_pos hk]

/-- Setting another one keeps them so. -/
lemma DifferAt.setFirst {name : κ} {items items' : List (κ × ν)}
    (h : DifferAt same name items items') (entry : κ × ν) :
    DifferAt same name (setFirst same entry items) (setFirst same entry items') := by
  obtain ⟨before, k, v, v', after, rfl, rfl, hb, hk⟩ := h
  cases ht : before.any (same ·.1 entry.1) with
  | true =>
    refine ⟨Veysrs.setFirst same entry before, k, v, v', after, setFirst_append_of_any ht _,
      setFirst_append_of_any ht _, ?_, hk⟩
    rw [any_setFirst (p := (same · name)), hb, ht]
    rfl
  | false =>
    rw [setFirst_append_of_not_any ht, setFirst_append_of_not_any ht, Veysrs.setFirst,
      Veysrs.setFirst]
    split_ifs
    · exact ⟨before, k, entry.2, entry.2, after, rfl, rfl, hb, hk⟩
    · exact ⟨before, k, v, v', _, rfl, rfl, hb, hk⟩

lemma DifferAt.foldl {name : κ} (child : List (κ × ν)) : ∀ {items items' : List (κ × ν)},
    DifferAt same name items items' →
      DifferAt same name (child.foldl (fun items entry => Veysrs.setFirst same entry items) items)
        (child.foldl (fun items entry => Veysrs.setFirst same entry items) items') := by
  induction child with
  | nil => exact id
  | cons entry child ih => exact fun h => ih (h.setFirst entry)

lemma differAt_setFirst {entry : κ × ν} {items : List (κ × ν)}
    (h : items.any (same ·.1 entry.1) = true) :
    DifferAt same entry.1 (setFirst same entry items) items := by
  induction items with
  | nil => cases h
  | cons first items ih =>
    rw [setFirst]
    split_ifs with hf
    · exact ⟨[], first.1, entry.2, first.2, items, rfl, rfl, rfl, hf⟩
    · rw [any_cons, Bool.or_eq_true] at h
      obtain ⟨before, k, v, v', after, hs, hi, hb, hk⟩ := ih (h.resolve_left hf)
      refine ⟨first :: before, k, v, v', after, by rw [hs]; rfl, by rw [hi]; rfl, ?_, hk⟩
      rw [any_cons, hb, Bool.or_false, Bool.eq_false_iff]
      exact hf

/-- **The values are the same the second time**: what an earlier entry sets is set again by the last
one of its name. -/
lemma foldl_setFirst_again (hr : ∀ k, same k k = true) (child items : List (κ × ν)) :
    child.foldl (fun items entry => setFirst same entry items)
        (child.foldl (fun items entry => setFirst same entry items) items) =
      child.foldl (fun items entry => setFirst same entry items) items := by
  induction child using List.reverseRecOn with
  | nil => rfl
  | append_singleton child entry ih =>
    have hm := any_foldl_setFirst_of_mem hr child items
    simp only [foldl_append, foldl_cons, foldl_nil]
    generalize child.foldl (fun items entry => setFirst same entry items) items = once at ih hm
    cases ht : once.any (same ·.1 entry.1) with
    | true =>
      have hd := (differAt_setFirst ht).foldl child
      rw [ih] at hd
      exact hd.setFirst_eq
    | false =>
      rw [setFirst_of_not_any ht, foldl_setFirst_append child hm, ih,
        setFirst_append_of_not_any ht, setFirst, if_pos (hr entry.1)]

/-- Names that are the same are kept or taken out together. -/
lemma filter_setFirst {keep : κ → Bool} (hk : ∀ a b, same a b = true → keep a = keep b)
    (entry : κ × ν) (items : List (κ × ν)) :
    (setFirst same entry items).filter (keep ·.1) =
      if keep entry.1 then setFirst same entry (items.filter (keep ·.1))
      else items.filter (keep ·.1) := by
  induction items with
  | nil =>
    rw [filter_nil, setFirst]
    rw [filter_cons, filter_nil]
  | cons first items ih =>
    rw [setFirst]
    by_cases hf : same first.1 entry.1 = true
    · have hs := hk _ _ hf
      rw [if_pos hf, filter_cons, filter_cons]
      simp only [hs]
      split_ifs
      · rw [setFirst, if_pos hf]
      · rfl
    · rw [if_neg hf, filter_cons, filter_cons, ih]
      split_ifs
      · rw [setFirst, if_neg hf]
      · rfl
      · rfl
      · rfl

lemma filter_foldl_setFirst {keep : κ → Bool} (hk : ∀ a b, same a b = true → keep a = keep b)
    (child : List (κ × ν)) : ∀ items : List (κ × ν),
    (child.foldl (fun items entry => setFirst same entry items) items).filter (keep ·.1) =
      (child.filter (keep ·.1)).foldl (fun items entry => setFirst same entry items)
        (items.filter (keep ·.1)) := by
  induction child with
  | nil => exact fun _ => rfl
  | cons entry child ih =>
    intro items
    rw [foldl_cons, ih, filter_setFirst hk, filter_cons]
    cases keep entry.1 with
    | true => rfl
    | false => rfl

end Set

/-! ## A chain of levels -/

/-- What is in a list of the merged levels is in that list of one of them. -/
lemma mem_chain {α : Type} (field : DirectoryConfig → List α) {a : α}
    (hm : ∀ config child : DirectoryConfig,
      a ∈ field (config.merge child) ↔ a ∈ field config ∨ a ∈ field child)
    (first : DirectoryConfig) (rest : List DirectoryConfig) :
    a ∈ field (rest.foldl DirectoryConfig.merge first) ↔
      ∃ level ∈ first :: rest, a ∈ field level := by
  induction rest generalizing first with
  | nil => simp
  | cons level rest ih =>
    rw [foldl_cons, ih]
    simp only [mem_cons, exists_eq_or_imp, hm, or_assoc]

section Chain

variable (first : DirectoryConfig) (rest : List DirectoryConfig)

lemma mem_denyIps_chain (ip : IpAddr) :
    ip ∈ (rest.foldl DirectoryConfig.merge first).denyIps ↔
      ∃ level ∈ first :: rest, ip ∈ level.denyIps := by
  refine mem_chain DirectoryConfig.denyIps (fun config child => ?_) first rest
  simp only [DirectoryConfig.merge, foldl_removeNamed, mem_foldl_pushUnless]

lemma mem_denyNetworks_chain (network : Cidr) :
    network ∈ (rest.foldl DirectoryConfig.merge first).denyNetworks ↔
      ∃ level ∈ first :: rest, network ∈ level.denyNetworks := by
  refine mem_chain DirectoryConfig.denyNetworks (fun config child => ?_) first rest
  simp only [DirectoryConfig.merge, foldl_removeNamed, mem_foldl_pushUnless]

lemma mem_allowNetworks_chain (network : Cidr) :
    network ∈ (rest.foldl DirectoryConfig.merge first).allowNetworks ↔
      ∃ level ∈ first :: rest, network ∈ level.allowNetworks := by
  refine mem_chain DirectoryConfig.allowNetworks (fun config child => ?_) first rest
  simp only [DirectoryConfig.merge, foldl_removeNamed, mem_foldl_pushUnless]

end Chain

/-! ## Merging twice -/

lemma eqIgnoreAsciiCase_refl (a : Str) : eqIgnoreAsciiCase a a = true := beq_self_eq_true _

lemma eqIgnoreAsciiCase_congr {a b : Str} (h : eqIgnoreAsciiCase a b = true) (c : Str) :
    eqIgnoreAsciiCase a c = eqIgnoreAsciiCase b c := by
  rw [eqIgnoreAsciiCase, beq_iff_eq] at h
  rw [eqIgnoreAsciiCase, eqIgnoreAsciiCase, h]

/-- Whether the names taken out leave a header. -/
lemma kept_congr (names : List Str) (a b : Str) (h : eqIgnoreAsciiCase a b = true) :
    (names.all fun name => !eqIgnoreAsciiCase a name) =
      names.all fun name => !eqIgnoreAsciiCase b name := by
  simp only [eqIgnoreAsciiCase_congr h]

section Again

variable (names : List Str)

/-- The headers a level sets and those it takes out. -/
lemma headers_again (child headers : List (Str × Str)) :
    let set := fun headers : List (Str × Str) =>
      child.foldl (fun hs h => setFirst eqIgnoreAsciiCase h hs) headers
    let kept := fun headers : List (Str × Str) =>
      headers.filter fun h => names.all fun name => !eqIgnoreAsciiCase h.1 name
    kept (set (kept (set headers))) = kept (set headers) := by
  intro set kept
  have hset : ∀ headers, kept (set headers) =
      (kept child).foldl (fun hs h => setFirst eqIgnoreAsciiCase h hs) (kept headers) :=
    filter_foldl_setFirst (kept_congr names) child
  have hk : ∀ headers, kept (kept headers) = kept headers := by
    intro headers
    simp only [kept, filter_filter, Bool.and_self]
  rw [hset (kept (set headers)), hk, hset, foldl_setFirst_again eqIgnoreAsciiCase_refl]

/-- The headers a level adds and those it takes out. -/
lemma addHeaders_again (child headers : List (Str × Str)) :
    let add := fun headers : List (Str × Str) =>
      child.foldl (pushUnless fun a b => eqIgnoreAsciiCase a.1 b.1 && a.2 = b.2) headers
    let kept := fun headers : List (Str × Str) =>
      headers.filter fun h => names.all fun name => !eqIgnoreAsciiCase h.1 name
    kept (add (kept (add headers))) = kept (add headers) := by
  intro add kept
  have ha : ∀ headers, kept (add headers) = (kept child).foldl
      (pushUnless fun a b => eqIgnoreAsciiCase a.1 b.1 && a.2 = b.2) (kept headers) := by
    refine filter_foldl_pushUnless (fun a b hs => ?_) child
    rw [Bool.and_eq_true] at hs
    exact kept_congr names a.1 b.1 hs.1
  have hk : ∀ headers, kept (kept headers) = kept headers := by
    intro headers
    simp only [kept, filter_filter, Bool.and_self]
  have hr : ∀ a : Str × Str, (eqIgnoreAsciiCase a.1 a.1 && decide (a.2 = a.2)) = true := by
    intro a
    rw [eqIgnoreAsciiCase_refl, decide_eq_true rfl, Bool.true_and]
  rw [ha (kept (add headers)), hk, ha, foldl_pushUnless_again hr]

end Again

lemma or_again {α : Type} (child value : Option α) : child.or (child.or value) = child.or value := by
  cases child <;> rfl

lemma decide_eq_refl {α : Type} [DecidableEq α] (a : α) : decide (a = a) = true :=
  decide_eq_true rfl

lemma foldl_pushUnless_eq_again {α : Type} [DecidableEq α] (child items : List α) :
    child.foldl (pushUnless (· = ·)) (child.foldl (pushUnless (· = ·)) items) =
      child.foldl (pushUnless (· = ·)) items :=
  foldl_pushUnless_again decide_eq_refl child items

/-- **Merging the same rules twice is merging them once**, but for the rewrites. -/
theorem merge_again (config child : DirectoryConfig) (rewrites : List RewriteRule) :
    { (config.merge child).merge child with rewrites } = { config.merge child with rewrites } := by
  simp only [DirectoryConfig.merge, foldl_removeNamed, DirectoryConfig.mk.injEq,
    foldl_pushUnless_eq_again, headers_again, addHeaders_again, or_again, true_and, and_true]
  exact ⟨foldl_pushUnless_again eqIgnoreAsciiCase_refl _ _,
    foldl_setFirst_again eqIgnoreAsciiCase_refl _ _,
    foldl_setFirst_again decide_eq_refl _ _⟩

end Veysrs
