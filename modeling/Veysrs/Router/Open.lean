import Veysrs.Config.Manager
import Veysrs.Router.Path

/-!
# Opening a file beneath the document root

`open_beneath`, `open_beneath_directory` and `open_beneath_with_index` of `router/handler.rs`.  Where
a path leads to a directory, the first of the index names that leads to a file from there is taken;
an index name may be a directory again.

**The search.**  `LeadsTo` says that there is a way from a path to a file, and `IndexChain` which
names are taken on the way that is found.  For index names that are single components, the recursion
of the source finds just that (`openBeneathWithIndex_eq_some_iff`).

**It ends**, since every call is one name deeper and a path longer than the tree is high leads
nowhere (`openWithin_isSome`).
-/

namespace Veysrs

open Core List

/-! ## The first that is found -/

section FirstFound

variable {α β : Type}

/-- A loop that returns with the first element for which something is found.  Nothing is returned at
all if a search does not come to an end. -/
def firstFound (find : α → Option (Option β)) : List α → Option (Option β)
  | [] => some none
  | a :: rest =>
    match find a with
    | none => none
    | some (some found) => some (some found)
    | some none => firstFound find rest

variable {find : α → Option (Option β)}

lemma firstFound_isSome {xs : List α} (h : ∀ x ∈ xs, (find x).isSome = true) :
    (firstFound find xs).isSome = true := by
  induction xs with
  | nil => rfl
  | cons x xs ih =>
    obtain ⟨hx, hxs⟩ := forall_mem_cons.mp h
    rw [firstFound]
    split
    · rename_i hn
      rw [hn] at hx
      cases hx
    · rfl
    · exact ih hxs

lemma firstFound_eq_none {xs : List α} (h : firstFound find xs = some none) :
    ∀ x ∈ xs, find x = some none := by
  induction xs with
  | nil => simp
  | cons x xs ih =>
    rw [firstFound] at h
    split at h
    · cases h
    · cases h
    · rename_i hn
      exact forall_mem_cons.mpr ⟨hn, ih h⟩

lemma firstFound_eq_some {xs : List α} {found : β} (h : firstFound find xs = some (some found)) :
    ∃ before x after, xs = before ++ x :: after ∧ (∀ y ∈ before, find y = some none) ∧
      find x = some (some found) := by
  induction xs with
  | nil => cases h
  | cons x xs ih =>
    rw [firstFound] at h
    split at h
    · cases h
    · rename_i hf
      cases h
      exact ⟨[], x, xs, rfl, by simp, hf⟩
    · rename_i hn
      obtain ⟨before, y, after, rfl, hb, hy⟩ := ih h
      exact ⟨x :: before, y, after, rfl, forall_mem_cons.mpr ⟨hn, hb⟩, hy⟩

lemma firstFound_append {before : List α} {x : α} {found : β}
    (hb : ∀ y ∈ before, find y = some none) (hx : find x = some (some found))
    (after : List α) : firstFound find (before ++ x :: after) = some (some found) := by
  induction before with
  | nil => rw [nil_append, firstFound, hx]
  | cons y before ih =>
    obtain ⟨hy, hr⟩ := forall_mem_cons.mp hb
    rw [cons_append, firstFound, hy]
    exact ih hr

end FirstFound

/-! ## Opening -/

/-- What `openat` with `O_NOFOLLOW` gives. -/
inductive Opened where
  | file (content : Bytes) (modified : Option ℕ)
  | dir
  deriving DecidableEq, Repr

/-- The names one after the other; the last one may be a file, or a directory that can be read. -/
def openat (tree : FileTree) (path : List Str) : Option Opened :=
  match tree.openBeneath path with
  | some ⟨.file (some content), modified⟩ => some (.file content modified)
  | some ⟨.dir true _, _⟩ => some .dir
  | _ => none

lemma mem_keys_of_openat {tree : FileTree} {path : List Str} {opened : Opened}
    (h : openat tree path = some opened) : path ∈ tree.keys := by
  rw [openat] at h
  cases ho : tree.openBeneath path with
  | none => rw [ho] at h; cases h
  | some entry =>
    have hl := (FileTree.openBeneath_eq_some_iff.mp ho).2
    exact AList.mem_keys.mp (AList.lookup_isSome.mp (by
      rw [← FileTree.lookup, hl]
      rfl))

/-- A file with the names that lead to it. -/
structure OpenedFile where
  path : List Str
  content : Bytes
  modified : Option ℕ
  deriving DecidableEq, Repr

/-- The normal components of a path. -/
def normalNames (path : Str) : List Str :=
  (components path).filterMap fun
    | .normal name => some name
    | _ => none

/-- The normal components after `PathBuf::push`; an absolute path takes the place of what was there. -/
def pushName (path : List Str) (name : Str) : List Str :=
  if name.head? = some '/' then normalNames name else path ++ normalNames name

lemma pushName_simple (path : List Str) {name : Str} (h : SimpleName name) :
    pushName path name = path ++ [name] := by
  have hr : name.head? ≠ some '/' := fun hh => h.2.1 (mem_of_mem_head? hh)
  rw [pushName, if_neg hr, normalNames, components_simple h]
  rfl

/-- The recursion of `open_beneath_with_index`, with fuel. -/
def openWithin (tree : FileTree) (indexes : List Str) : ℕ → List Str → Option (Option OpenedFile)
  | 0, _ => none
  | fuel + 1, path =>
    if path = [] then some none
    else match openat tree path with
      | none => some none
      | some (.file content modified) => some (some ⟨path, content, modified⟩)
      | some .dir =>
        firstFound (fun index => openWithin tree indexes fuel (pushName path index)) indexes

/-- This much fuel is enough for index names that are single components. -/
def openBeneathWithIndex (tree : FileTree) (path indexes : List Str) : Option (Option OpenedFile) :=
  openWithin tree indexes (tree.height + 1) path

/-- `open_beneath`. -/
def openBeneath (tree : FileTree) (path : List Str) : Option (Option OpenedFile) :=
  openBeneathWithIndex tree path ["index.html".toList]

/-- Whether `open_beneath_directory` succeeds.  The root is opened as whatever it is. -/
def openBeneathDirectory (tree : FileTree) (path : List Str) : Bool :=
  if path = [] then (openat tree []).isSome else openat tree path = some .dir

/-! ## The search -/

section Search

variable (tree : FileTree) (indexes : List Str)

/-- There is a way to a file. -/
inductive LeadsTo : List Str → Prop
  | file {path : List Str} {content : Bytes} {modified : Option ℕ} : path ≠ [] →
      openat tree path = some (.file content modified) → LeadsTo path
  | index {path : List Str} {index : Str} : path ≠ [] → openat tree path = some .dir →
      index ∈ indexes → LeadsTo (path ++ [index]) → LeadsTo path

/-- The index names on the way to the file that is found; those that come before one of them lead to
nothing. -/
inductive IndexChain : List Str → List Str → OpenedFile → Prop
  | file {path : List Str} {content : Bytes} {modified : Option ℕ} : path ≠ [] →
      openat tree path = some (.file content modified) → IndexChain path [] ⟨path, content, modified⟩
  | index {path before after chain : List Str} {index : Str} {file : OpenedFile} : path ≠ [] →
      openat tree path = some .dir → indexes = before ++ index :: after →
      (∀ other ∈ before, ¬ LeadsTo tree indexes (path ++ [other])) →
      IndexChain (path ++ [index]) chain file → IndexChain path (index :: chain) file

variable {tree indexes} {path chain : List Str} {file : OpenedFile}

lemma IndexChain.leadsTo (h : IndexChain tree indexes path chain file) :
    LeadsTo tree indexes path := by
  induction h with
  | file hne ho => exact .file hne ho
  | index hne ho hs _ _ ih => exact .index hne ho (by rw [hs]; simp) ih

/-- Every name that is taken is an index name. -/
lemma IndexChain.subset (h : IndexChain tree indexes path chain file) :
    ∀ name ∈ chain, name ∈ indexes := by
  induction h with
  | file hne ho => simp
  | index hne ho hs hb hc ih =>
    exact forall_mem_cons.mpr ⟨by rw [hs]; simp, ih⟩

section Simple

variable (hsimple : ∀ name ∈ indexes, SimpleName name)

include hsimple

variable {fuel : ℕ}

/-- **The recursion ends**: what is searched gets deeper until it is deeper than the tree. -/
lemma openWithin_isSome (hp : 0 < fuel) (hf : tree.height + 2 ≤ path.length + fuel) :
    (openWithin tree indexes fuel path).isSome = true := by
  induction fuel generalizing path with
  | zero => exact absurd hp (Nat.lt_irrefl 0)
  | succ fuel ih =>
    rw [openWithin]
    split_ifs with hne
    · rfl
    · split
      · rfl
      · rfl
      · rename_i hdir
        have hd := FileTree.length_le_height (mem_keys_of_openat hdir)
        refine firstFound_isSome fun index hi => ?_
        rw [pushName_simple path (hsimple index hi)]
        refine ih (by omega) ?_
        rw [length_append, length_singleton]
        omega

/-- Nothing is found only where nothing is. -/
lemma not_leadsTo_of_openWithin (h : openWithin tree indexes fuel path = some none) :
    ¬ LeadsTo tree indexes path := by
  induction fuel generalizing path with
  | zero => cases h
  | succ fuel ih =>
    rw [openWithin] at h
    intro hl
    cases hl with
    | file hne ho =>
      rw [if_neg hne, ho] at h
      cases h
    | index hne ho hi hr =>
      rw [if_neg hne, ho] at h
      have hn := firstFound_eq_none h _ hi
      rw [pushName_simple path (hsimple _ hi)] at hn
      exact ih hn hr

/-- What is found is at the end of the chain. -/
lemma indexChain_of_openWithin (h : openWithin tree indexes fuel path = some (some file)) :
    ∃ chain, IndexChain tree indexes path chain file := by
  induction fuel generalizing path with
  | zero => cases h
  | succ fuel ih =>
    rw [openWithin] at h
    split_ifs at h with hne
    · cases h
    · split at h
      · cases h
      · rename_i ho
        cases h
        exact ⟨[], .file hne ho⟩
      · rename_i ho
        obtain ⟨before, index, after, hs, hb, hf⟩ := firstFound_eq_some h
        have hm : ∀ name ∈ before ++ [index], name ∈ indexes := by
          intro name hna
          rw [hs, append_cons]
          exact mem_append_left _ hna
        rw [pushName_simple path (hsimple index (hm index (by simp)))] at hf
        obtain ⟨chain, hc⟩ := ih hf
        refine ⟨index :: chain, .index hne ho hs (fun other hot => ?_) hc⟩
        have hn := hb other hot
        rw [pushName_simple path (hsimple other (hm other (by simp [hot])))] at hn
        exact not_leadsTo_of_openWithin hsimple hn

/-- Where nothing is, nothing is found. -/
lemma openWithin_of_not_leadsTo (hp : 0 < fuel) (hf : tree.height + 2 ≤ path.length + fuel)
    (h : ¬ LeadsTo tree indexes path) : openWithin tree indexes fuel path = some none := by
  obtain ⟨result, hr⟩ := Option.isSome_iff_exists.mp (openWithin_isSome hsimple hp hf)
  cases result with
  | none => exact hr
  | some file =>
    obtain ⟨chain, hc⟩ := indexChain_of_openWithin hsimple hr
    exact absurd hc.leadsTo h

/-- The file at the end of the chain is found. -/
lemma openWithin_of_indexChain (h : IndexChain tree indexes path chain file) :
    ∀ {fuel : ℕ}, 0 < fuel → tree.height + 2 ≤ path.length + fuel →
      openWithin tree indexes fuel path = some (some file) := by
  induction h with
  | file hne ho =>
    intro fuel hpos _
    obtain ⟨fuel, rfl⟩ := Nat.exists_eq_add_one_of_ne_zero hpos.ne'
    rw [openWithin, if_neg hne, ho]
  | @index path before after chain index file hne ho hs hb hc ih =>
    intro fuel hpos hf
    obtain ⟨fuel, rfl⟩ := Nat.exists_eq_add_one_of_ne_zero hpos.ne'
    have hde := FileTree.length_le_height (mem_keys_of_openat ho)
    have hp : ∀ name ∈ before ++ [index], pushName path name = path ++ [name] := by
      intro name hn
      refine pushName_simple path (hsimple name ?_)
      rw [hs, append_cons]
      exact mem_append_left _ hn
    have hd : ∀ name : Str, tree.height + 2 ≤ (path ++ [name]).length + fuel := by
      intro name
      rw [length_append, length_singleton]
      omega
    rw [openWithin, if_neg hne, ho]
    rw [show firstFound _ indexes = firstFound _ (before ++ index :: after) by rw [← hs]]
    refine firstFound_append (fun other hot => ?_) ?_ after
    · rw [hp other (by simp [hot])]
      exact openWithin_of_not_leadsTo hsimple (by omega) (hd other) (hb other hot)
    · rw [hp index (by simp)]
      exact ih (by omega) (hd index)

/-- The search returns. -/
lemma openBeneathWithIndex_isSome (path : List Str) :
    (openBeneathWithIndex tree path indexes).isSome = true := by
  by_cases hne : path = []
  · rw [openBeneathWithIndex, openWithin, if_pos hne]
    rfl
  · have hl := length_pos_of_ne_nil hne
    exact openWithin_isSome hsimple (Nat.succ_pos _) (by omega)

end Simple

end Search

/-! ## The recursive calls -/

/-- What a call on `relative` calls itself on, at most: where it comes to a directory, the path with
an index name pushed onto it. -/
inductive IndexCall (tree : FileTree) (indexes : List Str) : Str → Str → Prop
  | index {relative index : Str} : normalNames relative ≠ [] →
      openat tree (normalNames relative) = some .dir → index ∈ indexes →
      IndexCall tree indexes relative (joinPath relative index)

lemma normalNames_joinPath (relative : Str) {name : Str} (h : SimpleName name) :
    normalNames (joinPath relative name) = normalNames relative ++ [name] := by
  rw [normalNames, components_joinPath relative h, filterMap_append]
  rfl

/-- **The index lookup ends.**  With index names that the directive accepts, a call goes from a
directory of the tree to a path that is one name deeper, there is no infinite chain of calls, and
the recursion returns with any fuel over the height of the tree, always the same. -/
theorem index_lookup_terminates (tree : FileTree) {args indexes : List Str}
    (haccepted : indexDirective "index" args = .ok indexes) :
    (∀ relative next, IndexCall tree indexes relative next →
      ∃ index ∈ indexes, SimpleName index ∧ normalNames next = normalNames relative ++ [index] ∧
        openat tree (normalNames relative) = some .dir ∧ normalNames relative ∈ tree.keys) ∧
    WellFounded (fun next relative => IndexCall tree indexes relative next) ∧
    ∀ relative, ∃ result, ∀ fuel, tree.height < fuel →
      openWithin tree indexes fuel (normalNames relative) = some result := by
  have hsimple := simpleName_indexDirective haccepted
  have hdeeper : ∀ relative next, IndexCall tree indexes relative next →
      ∃ index ∈ indexes, SimpleName index ∧ normalNames next = normalNames relative ++ [index] ∧
        openat tree (normalNames relative) = some .dir ∧ normalNames relative ∈ tree.keys := by
    rintro relative next ⟨hne, hdir, hindex⟩
    exact ⟨_, hindex, hsimple _ hindex, normalNames_joinPath relative (hsimple _ hindex), hdir,
      mem_keys_of_openat hdir⟩
  refine ⟨hdeeper, ?_, fun relative => ?_⟩
  · -- the height of the tree over the path gets less
    refine Subrelation.wf (fun {next relative} hcall => ?_)
      (measure fun relative => tree.height + 1 - (normalNames relative).length).wf
    obtain ⟨index, -, -, hnext, -, hkey⟩ := hdeeper relative next hcall
    have hdepth := FileTree.length_le_height hkey
    show tree.height + 1 - (normalNames next).length < tree.height + 1 - (normalNames relative).length
    rw [hnext, length_append, length_singleton]
    omega
  · by_cases hne : normalNames relative = []
    · refine ⟨none, fun fuel hfuel => ?_⟩
      obtain ⟨fuel, rfl⟩ := Nat.exists_eq_add_one_of_ne_zero (Nat.ne_zero_of_lt hfuel)
      rw [openWithin, if_pos hne]
    · have hlen := length_pos_of_ne_nil hne
      by_cases hleads : LeadsTo tree indexes (normalNames relative)
      · have hreturns : (openBeneathWithIndex tree (normalNames relative) indexes).isSome = true :=
          openBeneathWithIndex_isSome hsimple _
        obtain ⟨result, hresult⟩ := Option.isSome_iff_exists.mp hreturns
        cases result with
        | none => exact absurd hleads (not_leadsTo_of_openWithin hsimple hresult)
        | some file =>
          obtain ⟨chain, hchain⟩ := indexChain_of_openWithin hsimple hresult
          exact ⟨some file, fun fuel hfuel =>
            openWithin_of_indexChain hsimple hchain (by omega) (by omega)⟩
      · exact ⟨none, fun fuel hfuel =>
          openWithin_of_not_leadsTo hsimple (by omega) (by omega) hleads⟩

/-- A directory is looked for in itself, and then its rule file is found. -/
theorem index_lookup_terminates_shop :
    indexDirective "index" ["shop".toList, ruleFileName] = .ok ["shop".toList, ruleFileName] ∧
      ∃ file, ∀ fuel, shopTree.height < fuel →
        openWithin shopTree ["shop".toList, ruleFileName] fuel (normalNames "shop".toList) =
          some (some file) := by
  have haccepted : indexDirective "index" ["shop".toList, ruleFileName] =
      .ok ["shop".toList, ruleFileName] := by decide
  obtain ⟨-, -, hreturns⟩ := index_lookup_terminates shopTree haccepted
  obtain ⟨result, hresult⟩ := hreturns "shop".toList
  have hfound : (openWithin shopTree ["shop".toList, ruleFileName] 3
      (normalNames "shop".toList)).join.isSome = true := by decide
  rw [hresult 3 (by decide)] at hfound
  obtain ⟨file, rfl⟩ := Option.isSome_iff_exists.mp hfound
  exact ⟨haccepted, file, hresult⟩

end Veysrs
