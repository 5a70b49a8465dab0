import Veysrs.Core.Text

/-!
# Paths

`std::path` on a Unix system.  Two paths are equal, and have one hash, if they have the same
components; `components` leaves out what a repeated or trailing slash and a `.` inside a path stand
for, but keeps a `.` at the start of a relative path.

A name pushed onto a path is one more component (`components_joinPath`), so the text of a path
beneath a directory determines the names it is made of (`beneath_injective`).

**Resolving.**  `resolve` keeps a stack of names, and a `..` takes the last one off.  What it does is
said without the stack: a `..` belongs to a name before it as a closing bracket does to an opening
one.  `Cancels` are the components in which every name has its `..`, and `Leaves` gives the names
that have none.  The stack is what is left (`resolve_eq_some_iff`), and there is no stack exactly if
a `..` has no name to belong to (`resolve_eq_none_iff`).
-/

namespace Core

open List

/-- `std::path::Component`. -/
inductive Component where
  | rootDir | curDir | parentDir
  | normal (name : Str)
  deriving DecidableEq, Repr

/-- A part between two slashes. -/
def componentOf (part : Str) : Option Component :=
  if part = [] ∨ part = ".".toList then none
  else if part = "..".toList then some .parentDir
  else some (.normal part)

/-- What a path starts with: the root, or a `.` that stands for itself. -/
def leadingComponent (path : Str) : List Component :=
  if path.head? = some '/' then [.rootDir]
  else if (path.splitOn '/').head? = some ".".toList then [.curDir]
  else []

/-- `Path::components`. -/
def components (path : Str) : List Component :=
  leadingComponent path ++ (path.splitOn '/').filterMap componentOf

example : components "./public//".toList = components "./public".toList := by decide

/-- `Path::join` with a relative path that is not empty. -/
def joinPath (path relative : Str) : Str :=
  if path = [] ∨ path.getLast? = some '/' then path ++ relative else path ++ '/' :: relative

/-- The path of what the names lead to beneath a directory. -/
def beneath (dir : Str) (names : List Str) : Str := names.foldl joinPath dir

/-- A name that is one component. -/
def SimpleName (name : Str) : Prop :=
  name ≠ [] ∧ '/' ∉ name ∧ name ≠ ".".toList ∧ name ≠ "..".toList

instance (name : Str) : Decidable (SimpleName name) :=
  inferInstanceAs (Decidable (name ≠ [] ∧ '/' ∉ name ∧ name ≠ ".".toList ∧ name ≠ "..".toList))

variable {name : Str} {names : List Str} {cs : List Component}

lemma componentOf_simple (h : SimpleName name) : componentOf name = some (.normal name) := by
  obtain ⟨hne, -, hd, hp⟩ := h
  rw [componentOf, if_neg (not_or.mpr ⟨hne, hd⟩), if_neg hp]

lemma splitOn_simple (h : SimpleName name) : name.splitOn '/' = [name] :=
  List.splitOn_eq_singleton h.2.1

lemma components_simple (h : SimpleName name) : components name = [.normal name] := by
  have hs : name.head? ≠ some '/' := by
    intro hh
    exact h.2.1 (mem_of_mem_head? hh)
  rw [components, leadingComponent, splitOn_simple h, if_neg hs,
    if_neg (by simpa using h.2.2.1)]
  simp [componentOf_simple h]

/-- A slash behind a path that is not empty leaves its start as it is. -/
lemma leadingComponent_append {path : Str} (hne : path ≠ []) (rest : Str) :
    leadingComponent (path ++ '/' :: rest) = leadingComponent path := by
  have hp := splitOn_ne_nil '/' path
  rw [leadingComponent, leadingComponent, splitOn_append_cons_self,
    List.head?_append_of_ne_nil _ hne, List.head?_append_of_ne_nil _ hp]

/-- **A name pushed onto a path is one more component.** -/
lemma components_joinPath (path : Str) (h : SimpleName name) :
    components (joinPath path name) = components path ++ [.normal name] := by
  have hl : [name].filterMap componentOf = [.normal name] := by simp [componentOf_simple h]
  rw [joinPath]
  split_ifs with hend
  · rcases hend with rfl | hend
    · exact components_simple h
    · -- the path ends with the slash that goes between
      obtain ⟨front, rfl⟩ := List.getLast?_eq_some_iff.mp hend
      rw [append_assoc, singleton_append]
      cases front with
      | nil =>
        rw [nil_append, components, show ('/' :: name) = [] ++ '/' :: name from rfl,
          splitOn_append_cons_self, splitOn_simple h, filterMap_append, hl]
        rfl
      | cons c front =>
        rw [components, components, leadingComponent_append (cons_ne_nil c front),
          leadingComponent_append (cons_ne_nil c front), splitOn_append_cons_self,
          splitOn_append_cons_self, splitOn_simple h, filterMap_append, hl]
        simp [componentOf]
  · rw [components, components, leadingComponent_append (not_or.mp hend).1,
      splitOn_append_cons_self, splitOn_simple h, filterMap_append, hl,
      append_assoc]

lemma components_beneath (dir : Str) (h : ∀ name ∈ names, SimpleName name) :
    components (beneath dir names) = components dir ++ names.map .normal := by
  induction names generalizing dir with
  | nil => simp [beneath]
  | cons name names ih =>
    have hna := h name mem_cons_self
    rw [beneath, foldl_cons, ← beneath, ih _ fun n hn => h n (mem_cons_of_mem name hn),
      components_joinPath dir hna, append_assoc]
    rfl

/-- Different names make different paths. -/
lemma beneath_injective {dir : Str} {names' : List Str} (h : ∀ name ∈ names, SimpleName name)
    (h' : ∀ name ∈ names', SimpleName name) (heq : beneath dir names = beneath dir names') :
    names = names' := by
  have hc := congrArg components heq
  rw [components_beneath dir h, components_beneath dir h', append_cancel_left_eq] at hc
  exact map_injective_iff.mpr (fun _ _ => Component.normal.inj) hc

/-- A normal component is a part of the path that is no dot. -/
lemma part_of_mem_components {path : Str} (h : .normal name ∈ components path) :
    name ∈ path.splitOn '/' ∧ name ≠ [] ∧ name ≠ ".".toList ∧ name ≠ "..".toList := by
  rw [components, mem_append] at h
  rcases h with hl | hp
  · rw [leadingComponent] at hl
    split_ifs at hl <;> simp at hl
  · obtain ⟨part, hm, hp⟩ := mem_filterMap.mp hp
    rw [componentOf] at hp
    split_ifs at hp with hs hpa
    · cases hp
    · obtain rfl : part = name := Component.normal.inj (Option.some.inj hp)
      rw [not_or] at hs
      exact ⟨hm, hs.1, hs.2, hpa⟩

/-- A part is free of slashes, so a normal component is a simple name. -/
lemma simpleName_of_mem_components {path : Str} (h : .normal name ∈ components path) :
    SimpleName name := by
  obtain ⟨hpa, hne, hd, hp⟩ := part_of_mem_components h
  exact ⟨hne, (piece_of_mem_splitOn hpa).1, hd, hp⟩

/-! ## Resolving -/

/-- A `..` takes back the last name; with no name left there is nothing to take back. -/
def resolveStep (stack : List Str) : Component → Option (List Str)
  | .rootDir => some stack
  | .curDir => some stack
  | .parentDir => if stack = [] then none else some stack.dropLast
  | .normal name => some (stack ++ [name])

def resolve (cs : List Component) : Option (List Str) := cs.foldlM resolveStep []

/-- Every name is taken back by a `..` of its own, and there is no other. -/
inductive Cancels : List Component → Prop
  | nil : Cancels []
  | rootDir {rest : List Component} : Cancels rest → Cancels (.rootDir :: rest)
  | curDir {rest : List Component} : Cancels rest → Cancels (.curDir :: rest)
  | pair {name : Str} {inner rest : List Component} : Cancels inner → Cancels rest →
      Cancels (.normal name :: (inner ++ .parentDir :: rest))

/-- The names no `..` takes back, in their order; every `..` takes back some other name. -/
inductive Leaves : List Component → List Str → Prop
  | nothing {cs : List Component} : Cancels cs → Leaves cs []
  | name {before rest : List Component} {name : Str} {names : List Str} : Cancels before →
      Leaves rest names → Leaves (before ++ .normal name :: rest) (name :: names)

lemma Cancels.append {ds : List Component} (hcs : Cancels cs) (hds : Cancels ds) :
    Cancels (cs ++ ds) := by
  induction hcs with
  | nil => exact hds
  | rootDir _ ih => exact .rootDir ih
  | curDir _ ih => exact .curDir ih
  | pair hi _ _ ih =>
    rw [cons_append, append_assoc]
    exact .pair hi ih

/-- What cancels leaves every stack as it is. -/
lemma Cancels.foldlM (h : Cancels cs) : ∀ stack, cs.foldlM resolveStep stack = some stack := by
  induction h with
  | nil => intro stack; rfl
  | rootDir _ ih => exact ih
  | curDir _ ih => exact ih
  | @pair name inner rest _ _ ihinner ihrest =>
    intro stack
    have hp : resolveStep (stack ++ [name]) .parentDir = some stack := by
      rw [resolveStep, if_neg (by simp), dropLast_concat]
    show (inner ++ .parentDir :: rest).foldlM resolveStep (stack ++ [name]) = _
    rw [foldlM_append, ihinner, Option.bind_eq_bind, Option.bind_some, foldlM_cons, hp,
      Option.bind_eq_bind, Option.bind_some, ihrest]

lemma Leaves.foldlM (h : Leaves cs names) :
    ∀ stack, cs.foldlM resolveStep stack = some (stack ++ names) := by
  induction h with
  | nothing hcs =>
    intro stack
    rw [hcs.foldlM, append_nil]
  | @name before rest name names hb _ ih =>
    intro stack
    rw [foldlM_append, hb.foldlM, Option.bind_eq_bind]
    show rest.foldlM resolveStep (stack ++ [name]) = _
    rw [ih, append_assoc, singleton_append]

/-! ### One more component -/

lemma Leaves.append {ds : List Component} (h : Leaves cs names) (hds : Cancels ds) :
    Leaves (cs ++ ds) names := by
  induction h with
  | nothing hcs => exact .nothing (hcs.append hds)
  | name hb _ ih =>
    rw [append_assoc]
    exact .name hb ih

lemma Leaves.push (h : Leaves cs names) (name : Str) :
    Leaves (cs ++ [.normal name]) (names ++ [name]) := by
  induction h with
  | nothing hcs => exact .name hcs (.nothing .nil)
  | name hb _ ih =>
    rw [append_assoc]
    exact .name hb ih

/-- The last name that is left and the `..` make one more pair. -/
lemma Leaves.pop : ∀ {cs : List Component},
    Leaves cs (names ++ [name]) → Leaves (cs ++ [.parentDir]) names := by
  induction names with
  | nil =>
    intro cs h
    cases h with
    | name hb hr =>
      cases hr with
      | nothing hr =>
        rw [append_assoc]
        exact .nothing (hb.append (.pair hr .nil))
  | cons first names ih =>
    intro cs h
    cases h with
    | name hb hr =>
      rw [append_assoc]
      exact .name hb (ih hr)

/-! ### The stack is what is left -/

/-- A `..` stands where everything before it cancels. -/
def Climbs (cs : List Component) : Prop :=
  ∃ before after, cs = before ++ .parentDir :: after ∧ Cancels before

lemma Climbs.append (h : Climbs cs) (ds : List Component) : Climbs (cs ++ ds) := by
  obtain ⟨before, after, rfl, hb⟩ := h
  exact ⟨before, after ++ ds, by rw [append_assoc, cons_append], hb⟩

lemma Climbs.resolve (h : Climbs cs) : resolve cs = none := by
  obtain ⟨before, after, rfl, hb⟩ := h
  rw [Core.resolve, foldlM_append, hb.foldlM]
  rfl

/-- Either a `..` has no name to belong to, or some names are left. -/
lemma climbs_or_leaves (cs : List Component) : Climbs cs ∨ ∃ names, Leaves cs names := by
  induction cs using List.reverseRecOn with
  | nil => exact .inr ⟨[], .nothing .nil⟩
  | append_singleton cs c ih =>
    rcases ih with hc | ⟨names, hl⟩
    · exact .inl (hc.append [c])
    · cases c with
      | rootDir => exact .inr ⟨names, hl.append (.rootDir .nil)⟩
      | curDir => exact .inr ⟨names, hl.append (.curDir .nil)⟩
      | normal name => exact .inr ⟨names ++ [name], hl.push name⟩
      | parentDir =>
        rcases eq_nil_or_concat' names with rfl | ⟨front, last, rfl⟩
        · cases hl with
          | nothing hcs => exact .inl ⟨cs, [], rfl, hcs⟩
        · exact .inr ⟨front, hl.pop⟩

lemma resolve_eq_some_iff : resolve cs = some names ↔ Leaves cs names := by
  constructor
  · intro h
    rcases climbs_or_leaves cs with hc | ⟨left, hl⟩
    · rw [hc.resolve] at h
      cases h
    · rw [resolve, hl.foldlM] at h
      cases h
      exact hl
  · intro h
    rw [resolve, h.foldlM, nil_append]

lemma resolve_eq_none_iff : resolve cs = none ↔ Climbs cs := by
  constructor
  · intro h
    rcases climbs_or_leaves cs with hc | ⟨left, hl⟩
    · exact hc
    · rw [resolve_eq_some_iff.mpr hl] at h
      cases h
  · exact Climbs.resolve

/-- Names resolve to themselves. -/
lemma resolve_names (names : List Str) : resolve (names.map .normal) = some names := by
  rw [resolve_eq_some_iff]
  induction names with
  | nil => exact .nothing .nil
  | cons name names ih => exact .name .nil ih

lemma Leaves.mem (h : Leaves cs names) : ∀ name ∈ names, .normal name ∈ cs := by
  induction h with
  | nothing _ => exact fun name hn => absurd hn not_mem_nil
  | @name before rest first names _ _ ih =>
    intro name hn
    rcases mem_cons.mp hn with rfl | hn
    · exact mem_append_right _ mem_cons_self
    · exact mem_append_right _ (mem_cons_of_mem _ (ih name hn))

end Core
