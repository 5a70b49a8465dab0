import Veysrs.Core.AssocMap
import Veysrs.Core.Path
import Mathlib.Algebra.BigOperators.Group.List.Basic

/-!
# A directory and what lies beneath it

A `FileTree` maps the names that lead from a directory to what they lead to.  An entry counts only
if a program can get to it: every directory before it must be open to reading and to searching
(`Reached`).  Two ways to get there are modelled.

**Opening.**  `openBeneath` goes down component by component without following symbolic links, as
`openat` with `O_NOFOLLOW` does; it finds what is reached (`openBeneath_eq_some_iff`).

**Walking.**  `visit` is the usual loop with a stack of directories that are still to be read.  It
does for every file what a plain recursion over the tree would do, in its order (`visit_eq_foldlM`),
and the files it comes to are all that are reached (`mem_files`).
-/

namespace Core

open List

/-- What a name stands for.  A file without content is one that cannot be read; a symbolic link has
what reading through it gives, and nothing if it leads nowhere. -/
inductive Node where
  | file (content : Option Bytes)
  | symlink (target : Option (Option Bytes))
  | dir (readable searchable : Bool)
  deriving DecidableEq, Repr

structure Entry where
  node : Node
  modified : Option ℕ := none
  deriving DecidableEq, Repr

variable {entry : Entry}

namespace Entry

def isSymlink (entry : Entry) : Bool := match entry.node with
  | .symlink _ => true
  | _ => false

/-- What is found when links are followed: its content, as far as it can be read as a file. -/
def follow (entry : Entry) : Option (Option Bytes) := match entry.node with
  | .file content => some content
  | .symlink target => target
  | .dir _ _ => some none

/-- `Path::exists`. -/
def exists? (entry : Entry) : Bool := entry.follow.isSome

/-- `fs::read`. -/
def read (entry : Entry) : Option Bytes := entry.follow.join

lemma read_of_not_exists (h : entry.exists? ≠ true) : entry.read = none := by
  have hf : entry.follow = none := Option.not_isSome_iff_eq_none.mp h
  rw [read, hf]
  rfl

end Entry

/-- What an entry of a directory can be called. -/
def FileName (name : Str) : Prop := SimpleName name ∧ '\x00' ∉ name

instance (name : Str) : Decidable (FileName name) :=
  inferInstanceAs (Decidable (SimpleName name ∧ '\x00' ∉ name))

/-- The directory itself is at the empty path. -/
structure FileTree where
  entries : AssocMap (List Str) Entry
  named : ∀ path ∈ entries.keys, ∀ name ∈ path, FileName name

namespace FileTree

variable (tree : FileTree)

def keys : List (List Str) := tree.entries.keys

def lookup (path : List Str) : Option Entry := tree.entries.lookup path

def nodeAt (path : List Str) : Option Node := (tree.lookup path).map Entry.node

/-- The content of a file at a path. -/
def contentAt (path : List Str) : Option Bytes := (tree.lookup path).bind Entry.read

def isFile (path : List Str) : Bool := match tree.nodeAt path with
  | some (.file _) => true
  | _ => false

def isDir (path : List Str) : Bool := match tree.nodeAt path with
  | some (.dir _ _) => true
  | _ => false

/-- A directory that can be read and searched. -/
def enterable (path : List Str) : Bool := tree.nodeAt path = some (.dir true true)

/-- Every directory before the end of the path can be entered. -/
def Reached (path : List Str) : Prop := ∀ before, before <+: path → before ≠ path →
  tree.enterable before = true

variable {tree}

variable {path dir : List Str}

lemma isFile_iff :
    tree.isFile path = true ↔ ∃ content mtime, tree.lookup path = some ⟨.file content, mtime⟩ := by
  simp only [isFile, nodeAt]
  cases hen : tree.lookup path with
  | none => simp
  | some entry =>
    obtain ⟨node, mtime⟩ := entry
    cases node <;> simp

lemma reached_nil : tree.Reached [] := by
  intro before hp hne
  exact absurd (prefix_nil.mp hp) hne

lemma reached_concat {name : Str} :
    tree.Reached (dir ++ [name]) ↔ tree.Reached dir ∧ tree.enterable dir = true := by
  constructor
  · intro h
    refine ⟨fun before hp hne => h before (hp.trans (prefix_append _ _)) ?_,
      h dir (prefix_append _ _) (by simp)⟩
    rintro rfl
    have hl := hp.length_le
    rw [length_append, length_singleton] at hl
    omega
  · rintro ⟨hd, hen⟩ before hp hne
    rcases prefix_concat_iff.mp hp with rfl | hp
    · exact absurd rfl hne
    · by_cases heq : before = dir
      · rwa [heq]
      · exact hd before hp heq

/-! ## Opening -/

variable (tree) in
/-- The names after `dir`, one after the other. -/
def openFrom (dir : List Str) : List Str → Option Entry
  | [] => tree.lookup dir
  | name :: rest => if tree.enterable dir then openFrom (dir ++ [name]) rest else none

variable (tree) in
/-- The entry a path leads to from the top. -/
def openBeneath (path : List Str) : Option Entry := tree.openFrom [] path

lemma openFrom_eq_some_iff {names : List Str} (hd : tree.Reached dir) :
    tree.openFrom dir names = some entry ↔
      tree.Reached (dir ++ names) ∧ tree.lookup (dir ++ names) = some entry := by
  induction names generalizing dir with
  | nil =>
    rw [openFrom]
    simp [hd]
  | cons name rest ih =>
    rw [openFrom]
    by_cases hen : tree.enterable dir = true
    · rw [if_pos hen, ih (reached_concat.mpr ⟨hd, hen⟩), append_assoc,
        singleton_append]
    · rw [if_neg hen]
      constructor
      · intro h
        cases h
      · rintro ⟨hr, -⟩
        exact absurd (hr dir (prefix_append _ _) (by simp)) hen

/-- **Opening finds what is reached.** -/
lemma openBeneath_eq_some_iff :
    tree.openBeneath path = some entry ↔
      tree.Reached path ∧ tree.lookup path = some entry := by
  rw [openBeneath, openFrom_eq_some_iff reached_nil, nil_append]

/-! ## Walking -/

variable (tree) in
/-- The paths of the entries of a directory, as far as it can be read and searched. -/
def scan (dir : List Str) : List (List Str) :=
  if tree.enterable dir then
    tree.keys.filter fun path => decide (path ≠ []) && decide (path.dropLast = dir)
  else []

lemma mem_scan :
    path ∈ tree.scan dir ↔ tree.enterable dir = true ∧ path ∈ tree.keys ∧
      ∃ name, path = dir ++ [name] := by
  rw [scan]
  split_ifs with hen
  · simp only [mem_filter, Bool.and_eq_true, decide_eq_true_eq, hen, true_and]
    refine and_congr_right fun _ => ⟨?_, ?_⟩
    · rintro ⟨hne, rfl⟩
      exact ⟨path.getLast hne, (dropLast_append_getLast hne).symm⟩
    · rintro ⟨name, rfl⟩
      simp
  · simp [hen]

variable (tree) in
def filesIn (dir : List Str) : List (List Str) := (tree.scan dir).filter tree.isFile

variable (tree) in
def dirsIn (dir : List Str) : List (List Str) := (tree.scan dir).filter tree.isDir

section Visit

variable {m : Type → Type} [Monad m] {σ : Type} (f : σ → List Str → m σ)

variable (tree) in
/-- One entry: a directory goes on top of the stack, a file is handled, a link is passed over. -/
def visitEntry (todo : List (List Str) × σ) (path : List Str) : m (List (List Str) × σ) :=
  if tree.isDir path then pure (path :: todo.1, todo.2)
  else if tree.isFile path then do return (todo.1, ← f todo.2 path)
  else pure todo

variable (tree) in
/-- The loop over the stack, with fuel for every directory. -/
def visitLoop : ℕ → List (List Str) → σ → m σ
  | 0, _, s => pure s
  | _ + 1, [], s => pure s
  | n + 1, dir :: stack, s => do
      let (stack, s) ← (tree.scan dir).foldlM (visitEntry tree f) (stack, s)
      visitLoop n stack s

variable (tree) in
/-- No path is longer. -/
def height : ℕ := (tree.keys.map List.length).foldr max 0

variable (tree) in
/-- The directories of a subtree that is no deeper than the bound, itself included. -/
def dirsWithin : ℕ → List Str → ℕ
  | 0, _ => 1
  | n + 1, dir => 1 + ((tree.dirsIn dir).map (dirsWithin n)).sum

variable (tree) in
def dirCount (dir : List Str) : ℕ := tree.dirsWithin (tree.height + 1 - dir.length) dir

variable (tree) in
/-- **The walk**: the top is the first directory on the stack. -/
def visit (s : σ) : m σ := tree.visitLoop f (tree.dirCount []) [[]] s

variable (tree) in
/-- The files of a subtree that is no deeper than the bound, in the order of the walk. -/
def filesWithin : ℕ → List Str → List (List Str)
  | 0, _ => []
  | n + 1, dir => tree.filesIn dir ++ (tree.dirsIn dir).reverse.flatMap (filesWithin n)

variable (tree) in
def filesBelow (dir : List Str) : List (List Str) :=
  tree.filesWithin (tree.height + 1 - dir.length) dir

variable (tree) in
/-- All the files that are reached, in the order of the walk. -/
def files : List (List Str) := tree.filesBelow []

end Visit

/-! ### No deeper than the tree -/

lemma length_le_height (h : path ∈ tree.keys) : path.length ≤ tree.height := by
  have hm : path.length ∈ tree.keys.map List.length := mem_map_of_mem h
  rw [height]
  generalize tree.keys.map List.length = lengths at hm
  induction lengths with
  | nil => simp at hm
  | cons n rest ih =>
    rcases mem_cons.mp hm with rfl | hr
    · exact le_max_left _ _
    · exact (ih hr).trans (le_max_right _ _)

lemma scan_eq_nil (h : tree.height ≤ dir.length) : tree.scan dir = [] := by
  rw [eq_nil_iff_forall_not_mem]
  intro path hp
  obtain ⟨-, hk, name, rfl⟩ := mem_scan.mp hp
  have := length_le_height hk
  simp only [length_append, length_singleton] at this
  omega

lemma length_of_mem_dirsIn (h : path ∈ tree.dirsIn dir) : path.length = dir.length + 1 := by
  obtain ⟨-, -, name, rfl⟩ := mem_scan.mp (mem_filter.mp h).1
  simp

lemma dirCount_eq (dir : List Str) :
    tree.dirCount dir = 1 + ((tree.dirsIn dir).map tree.dirCount).sum := by
  by_cases h : dir.length ≤ tree.height
  · have hf : tree.height + 1 - dir.length = (tree.height - dir.length) + 1 := by omega
    have hc : (tree.dirsIn dir).map tree.dirCount =
        (tree.dirsIn dir).map (tree.dirsWithin (tree.height - dir.length)) := by
      refine map_congr_left fun path hp => ?_
      rw [dirCount, length_of_mem_dirsIn hp]
      congr 1
      omega
    rw [hc, dirCount, hf, dirsWithin]
  · have hn : tree.dirsIn dir = [] := by rw [dirsIn, scan_eq_nil (by omega), filter_nil]
    rw [hn, dirCount, show tree.height + 1 - dir.length = 0 by omega]
    rfl

lemma filesBelow_eq (dir : List Str) :
    tree.filesBelow dir =
      tree.filesIn dir ++ (tree.dirsIn dir).reverse.flatMap tree.filesBelow := by
  by_cases h : dir.length ≤ tree.height
  · have hf : tree.height + 1 - dir.length = (tree.height - dir.length) + 1 := by omega
    have hc : (tree.dirsIn dir).reverse.flatMap tree.filesBelow =
        (tree.dirsIn dir).reverse.flatMap (tree.filesWithin (tree.height - dir.length)) := by
      refine flatMap_congr fun path hp => ?_
      rw [filesBelow, length_of_mem_dirsIn (mem_reverse.mp hp)]
      congr 1
      omega
    rw [hc, filesBelow, hf, filesWithin]
  · have hn : tree.scan dir = [] := scan_eq_nil (by omega)
    rw [dirsIn, filesIn, hn, filesBelow, show tree.height + 1 - dir.length = 0 by omega]
    rfl

/-! ### The loop and the recursion -/

section Visit

variable {m : Type → Type} [Monad m] [LawfulMonad m] {σ : Type} (f : σ → List Str → m σ)

lemma foldlM_visitEntry (paths : List (List Str)) (stack : List (List Str)) (s : σ) :
    paths.foldlM (visitEntry tree f) (stack, s) = do
      let s ← (paths.filter tree.isFile).foldlM f s
      return ((paths.filter tree.isDir).reverse ++ stack, s) := by
  induction paths generalizing stack s with
  | nil => simp
  | cons path rest ih =>
    rw [foldlM_cons, visitEntry]
    by_cases hd : tree.isDir path = true
    · have hf : tree.isFile path = false := by
        simp only [isDir] at hd
        simp only [isFile]
        split at hd <;> simp_all
      rw [if_pos hd, pure_bind, ih, filter_cons_of_neg (by simp [hf]),
        filter_cons_of_pos hd, reverse_cons, append_assoc, singleton_append]
    · rw [if_neg hd, filter_cons_of_neg hd]
      by_cases hf : tree.isFile path = true
      · rw [if_pos hf, filter_cons_of_pos hf, foldlM_cons]
        simp only [bind_assoc, pure_bind, ih]
      · rw [if_neg hf, pure_bind, ih, filter_cons_of_neg hf]

lemma visitLoop_eq_foldlM (n : ℕ) : ∀ (stack : List (List Str)) (s : σ),
    (stack.map tree.dirCount).sum ≤ n →
      tree.visitLoop f n stack s = (stack.flatMap tree.filesBelow).foldlM f s := by
  induction n with
  | zero =>
    intro stack s hf
    cases stack with
    | nil => rfl
    | cons dir stack =>
      rw [map_cons, sum_cons, dirCount_eq] at hf
      omega
  | succ n ih =>
    intro stack s hf
    cases stack with
    | nil => rfl
    | cons dir stack =>
      have hr : (((tree.dirsIn dir).reverse ++ stack).map tree.dirCount).sum ≤ n := by
        rw [map_cons, sum_cons, dirCount_eq] at hf
        rw [map_append, sum_append, map_reverse, sum_reverse]
        omega
      rw [visitLoop, foldlM_visitEntry, bind_assoc, flatMap_cons, filesBelow_eq,
        append_assoc, ← flatMap_append, foldlM_append]
      simp only [pure_bind]
      congr 1
      funext s'
      exact ih _ s' hr

/-- **The loop handles the files in the order of the recursion.** -/
lemma visit_eq_foldlM (s : σ) : tree.visit f s = tree.files.foldlM f s := by
  rw [visit, visitLoop_eq_foldlM f _ [[]] s (by simp)]
  simp [files]

end Visit

lemma mem_filesWithin {n : ℕ} (hd : tree.Reached dir) :
    path ∈ tree.filesWithin n dir → tree.Reached path ∧ path ≠ [] ∧ tree.isFile path = true := by
  induction n generalizing dir with
  | zero => exact fun h => absurd h not_mem_nil
  | succ n ih =>
    intro h
    rw [filesWithin, mem_append, mem_flatMap] at h
    rcases h with h | ⟨child, hc, h⟩
    · obtain ⟨hs, hf⟩ := mem_filter.mp h
      obtain ⟨hen, -, name, rfl⟩ := mem_scan.mp hs
      exact ⟨reached_concat.mpr ⟨hd, hen⟩, by simp, hf⟩
    · obtain ⟨hs, -⟩ := mem_filter.mp (mem_reverse.mp hc)
      obtain ⟨hen, -, name, rfl⟩ := mem_scan.mp hs
      exact ih (reached_concat.mpr ⟨hd, hen⟩) h

lemma mem_keys_of_lookup (h : tree.lookup path = some entry) : path ∈ tree.keys := by
  refine AList.mem_keys.mp (AList.lookup_isSome.mp ?_)
  rw [lookup] at h
  rw [h]
  rfl

lemma mem_keys_of_nodeAt {node : Node} (h : tree.nodeAt path = some node) : path ∈ tree.keys := by
  rw [nodeAt, Option.map_eq_some_iff] at h
  obtain ⟨entry, hen, -⟩ := h
  exact mem_keys_of_lookup hen

lemma isDir_of_enterable (h : tree.enterable dir = true) :
    tree.isDir dir = true ∧ dir ∈ tree.keys := by
  have hn : tree.nodeAt dir = some (.dir true true) := of_decide_eq_true h
  exact ⟨by simp [isDir, hn], mem_keys_of_nodeAt hn⟩

lemma mem_keys_of_isFile (h : tree.isFile path = true) : path ∈ tree.keys := by
  simp only [isFile] at h
  split at h
  · rename_i hn
    exact mem_keys_of_nodeAt hn
  · cases h

lemma mem_filesBelow {rest : List Str} (hne : rest ≠ []) (hr : tree.Reached (dir ++ rest))
    (hf : tree.isFile (dir ++ rest) = true) : dir ++ rest ∈ tree.filesBelow dir := by
  induction rest generalizing dir with
  | nil => exact absurd rfl hne
  | cons name rest ih =>
    have hen : tree.enterable dir = true := hr dir (prefix_append _ _) (by simp)
    rw [filesBelow_eq, mem_append]
    cases rest with
    | nil =>
      exact .inl (mem_filter.mpr
        ⟨mem_scan.mpr ⟨hen, mem_keys_of_isFile hf, name, rfl⟩, hf⟩)
    | cons next rest =>
      -- the file lies beneath the directory the first name leads to
      have ha : dir ++ name :: next :: rest = (dir ++ [name]) ++ next :: rest := by simp
      have hc : tree.enterable (dir ++ [name]) = true :=
        hr _ (by rw [ha]; exact prefix_append _ _) (by simp)
      obtain ⟨hi, hk⟩ := isDir_of_enterable hc
      rw [ha] at hr hf ⊢
      refine .inr (mem_flatMap.mpr ⟨dir ++ [name], ?_, ih (by simp) hr hf⟩)
      exact mem_reverse.mpr
        (mem_filter.mpr ⟨mem_scan.mpr ⟨hen, hk, name, rfl⟩, hi⟩)

/-- **The walk comes to every file that is reached, and to no other.** -/
lemma mem_files :
    path ∈ tree.files ↔ path ≠ [] ∧ tree.Reached path ∧ tree.isFile path = true := by
  constructor
  · intro h
    obtain ⟨hr, hne, hf⟩ := mem_filesWithin reached_nil h
    exact ⟨hne, hr, hf⟩
  · rintro ⟨hne, hr, hf⟩
    exact @mem_filesBelow tree _ path hne hr hf

end FileTree

end Core
