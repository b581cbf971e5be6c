import Mathlib.Data.List.AList
import Mathlib.Data.List.Induction

/-!
# Lib.FileTree

The tree of a file system without links, over any type of names: a path is the
list of the names that lead to it, and a tree says what stands at each path.

* `iterdir`, `rglob` — what a listing of one directory, or of all below it, shows;
* `unlink`, `rmdir` — the two removals, each with what it needs to succeed;
* `Within` — a tree that only lost nodes.

A removal takes one path away and leaves every other as it was
(`node?_of_unlink`, `node?_of_rmdir`); that a tree holds no path without the
directory it stands in is a field, kept by both.
-/

universe u

/-- What stands at a path. -/
inductive FileNode where
  | file
  | directory (readable : Bool)
  /-- A device, a socket, a pipe. -/
  | other
deriving DecidableEq, Repr

/-- A tree of files and directories. -/
structure FileTree (Name : Type u) [DecidableEq Name] where
  nodes : AList fun _ : List Name => FileNode
  /-- What stands below a path stands in a directory. -/
  parented : ∀ path name, path ++ [name] ∈ nodes →
    ∃ readable, nodes.lookup path = some (.directory readable)

namespace FileTree

variable {Name : Type u} [DecidableEq Name]

/-- That every path stands in a directory is checked entry by entry. -/
theorem parented_of_keys {nodes : AList fun _ : List Name => FileNode}
    (h : ∀ key ∈ nodes.keys, key = [] ∨ nodes.lookup key.dropLast = some (.directory true) ∨
      nodes.lookup key.dropLast = some (.directory false)) (path : List Name) (name : Name)
    (hmem : path ++ [name] ∈ nodes) : ∃ readable, nodes.lookup path = some (.directory readable) := by
  have hkey := h (path ++ [name]) hmem
  rw [List.dropLast_concat] at hkey
  obtain hnil | hread | hunread := hkey
  · simp at hnil
  · exact ⟨true, hread⟩
  · exact ⟨false, hunread⟩

/-! ## looking at a tree -/

/-- What stands at `path`. -/
def node? (tree : FileTree Name) (path : List Name) : Option FileNode := tree.nodes.lookup path

/-- A regular file. -/
def isFile (tree : FileTree Name) (path : List Name) : Bool := tree.node? path = some .file

/-- A directory. -/
def isDir (tree : FileTree Name) (path : List Name) : Bool :=
  tree.node? path = some (.directory true) ∨ tree.node? path = some (.directory false)

/-- A directory that can be listed. -/
def isReadable (tree : FileTree Name) (path : List Name) : Bool :=
  tree.node? path = some (.directory true)

/-- The paths that stand in the directory `path`. -/
def children (tree : FileTree Name) (path : List Name) : List (List Name) :=
  tree.nodes.keys.filter fun child => child ≠ [] ∧ child.dropLast = path

/-- The listing of a directory, nothing where it cannot be listed. -/
def iterdir (tree : FileTree Name) (path : List Name) : Option (List (List Name)) :=
  if tree.isReadable path then some (tree.children path) else none

/-- Everything below a directory, except below what cannot be listed. -/
def rglob (tree : FileTree Name) (root : List Name) : List (List Name) :=
  tree.nodes.keys.filter fun path =>
    root <+: path ∧ root ≠ path ∧
      ∀ n ∈ List.range path.length, root.length ≤ n → tree.isReadable (path.take n)

theorem mem_keys_iff {tree : FileTree Name} {path : List Name} :
    path ∈ tree.nodes.keys ↔ (tree.node? path).isSome := by
  rw [node?, AList.lookup_isSome, AList.mem_keys]

theorem isFile_iff {tree : FileTree Name} {path : List Name} :
    tree.isFile path = true ↔ tree.node? path = some .file := by
  simp [isFile]

theorem isReadable_iff {tree : FileTree Name} {path : List Name} :
    tree.isReadable path = true ↔ tree.node? path = some (.directory true) := by
  simp [isReadable]

theorem isDir_iff {tree : FileTree Name} {path : List Name} :
    tree.isDir path = true ↔ ∃ readable, tree.node? path = some (.directory readable) := by
  rw [isDir, decide_eq_true_iff]
  constructor
  · rintro (h | h)
    · exact ⟨true, h⟩
    · exact ⟨false, h⟩
  · rintro ⟨readable, h⟩
    cases readable with
    | true => exact .inl h
    | false => exact .inr h

theorem isDir_of_isReadable {tree : FileTree Name} {path : List Name}
    (h : tree.isReadable path = true) : tree.isDir path = true :=
  isDir_iff.mpr ⟨true, isReadable_iff.mp h⟩

theorem mem_children_iff {tree : FileTree Name} {path child : List Name} :
    child ∈ tree.children path ↔ (tree.node? child).isSome ∧ ∃ name, child = path ++ [name] := by
  rw [children, List.mem_filter, mem_keys_iff, decide_eq_true_iff]
  refine and_congr_right fun _ => ?_
  constructor
  · rintro ⟨hne, rfl⟩
    exact ⟨child.getLast hne, (List.dropLast_concat_getLast hne).symm⟩
  · rintro ⟨name, rfl⟩
    simp

theorem mem_rglob_iff {tree : FileTree Name} {root path : List Name} :
    path ∈ tree.rglob root ↔ (tree.node? path).isSome ∧ root <+: path ∧ root ≠ path ∧
      ∀ n, root.length ≤ n → n < path.length → tree.isReadable (path.take n) = true := by
  rw [rglob, List.mem_filter, mem_keys_iff, decide_eq_true_iff]
  simp only [List.mem_range]
  constructor
  · rintro ⟨hnode, habove, hne, hall⟩
    exact ⟨hnode, habove, hne, fun n hroot hn => hall n hn hroot⟩
  · rintro ⟨hnode, habove, hne, hall⟩
    exact ⟨hnode, habove, hne, fun n hn hroot => hall n hroot hn⟩

/-- What is listed below a root is longer than the root. -/
theorem length_lt_of_mem_rglob {tree : FileTree Name} {root path : List Name}
    (h : path ∈ tree.rglob root) : root.length < path.length := by
  obtain ⟨-, habove, hne, -⟩ := mem_rglob_iff.mp h
  exact Nat.lt_of_le_of_ne habove.length_le fun hlength => hne (habove.eq_of_length hlength)

/-- A root below which something is listed can be listed. -/
theorem isReadable_root {tree : FileTree Name} {root path : List Name}
    (h : path ∈ tree.rglob root) : tree.isReadable root = true := by
  obtain ⟨-, habove, -, hread⟩ := mem_rglob_iff.mp h
  rw [List.prefix_iff_eq_take.mp habove]
  exact hread root.length (Nat.le_refl _) (length_lt_of_mem_rglob h)

/-- The directory that something listed stands in can be listed. -/
theorem isReadable_dropLast {tree : FileTree Name} {root path : List Name}
    (h : path ∈ tree.rglob root) : tree.isReadable path.dropLast = true := by
  have hlt := length_lt_of_mem_rglob h
  rw [List.dropLast_eq_take]
  exact (mem_rglob_iff.mp h).2.2.2 (path.length - 1) (by omega) (by omega)

/-- Everything above what stands is a directory. -/
theorem isDir_take {tree : FileTree Name} {path : List Name} (h : (tree.node? path).isSome)
    {n : Nat} (hn : n < path.length) : tree.isDir (path.take n) = true := by
  induction path using List.reverseRecOn with
  | nil => simp at hn
  | append_singleton parent name ih =>
      obtain ⟨readable, hparent⟩ := tree.parented parent name (AList.lookup_isSome.mp h)
      rw [List.length_append, List.length_singleton] at hn
      by_cases hlast : n = parent.length
      · rw [hlast, List.take_left]
        exact isDir_iff.mpr ⟨readable, hparent⟩
      · rw [List.take_append_of_le_length (by omega)]
        exact ih (by rw [node?, hparent, Option.isSome_some]) (by omega)

/-! ## removals -/

/-- The tree without `path`, in which nothing stands. -/
def remove (tree : FileTree Name) (path : List Name) (h : tree.children path = []) :
    FileTree Name where
  nodes := tree.nodes.erase path
  parented := by
    intro parent name hmem
    obtain ⟨hne, hbefore⟩ := AList.mem_erase.mp hmem
    obtain ⟨readable, hparent⟩ := tree.parented parent name hbefore
    have hother : parent ≠ path := by
      rintro rfl
      have hchild : parent ++ [name] ∈ tree.children parent :=
        mem_children_iff.mpr ⟨AList.lookup_isSome.mpr hbefore, name, rfl⟩
      simp [h] at hchild
    exact ⟨readable, by rw [AList.lookup_erase_ne hother, hparent]⟩

theorem node?_remove (tree : FileTree Name) {path : List Name} (h : tree.children path = [])
    (other : List Name) :
    (tree.remove path h).node? other = if other = path then none else tree.node? other := by
  rw [node?, remove]
  split
  · next heq => rw [heq, AList.lookup_erase]
  · next hne => rw [AList.lookup_erase_ne hne, node?]

/-- Nothing stands in a file. -/
theorem children_of_isFile {tree : FileTree Name} {path : List Name}
    (h : tree.isFile path = true) : tree.children path = [] := by
  rw [List.eq_nil_iff_forall_not_mem]
  intro child hchild
  obtain ⟨hnode, name, rfl⟩ := mem_children_iff.mp hchild
  obtain ⟨readable, hparent⟩ := tree.parented path name (AList.lookup_isSome.mp hnode)
  have hfile := isFile_iff.mp h
  rw [node?, hparent, Option.some.injEq] at hfile
  cases hfile

/-- Removes a file. -/
def unlink (tree : FileTree Name) (path : List Name) : Option (FileTree Name) :=
  if h : tree.isFile path then some (tree.remove path (children_of_isFile h)) else none

/-- Removes an empty directory. -/
def rmdir (tree : FileTree Name) (path : List Name) : Option (FileTree Name) :=
  if h : tree.isDir path ∧ tree.children path = [] then some (tree.remove path h.2) else none

section Removed

variable {tree after : FileTree Name} {path : List Name}

theorem unlink_of_isFile (h : tree.isFile path = true) :
    tree.unlink path = some (tree.remove path (children_of_isFile h)) := dif_pos h

theorem rmdir_of_empty (hdir : tree.isDir path = true) (h : tree.children path = []) :
    tree.rmdir path = some (tree.remove path h) := dif_pos ⟨hdir, h⟩

theorem isFile_of_unlink (h : tree.unlink path = some after) : tree.isFile path = true := by
  rw [unlink] at h
  split at h
  · assumption
  · contradiction

theorem node?_of_unlink (h : tree.unlink path = some after) (other : List Name) :
    after.node? other = if other = path then none else tree.node? other := by
  rw [unlink_of_isFile (isFile_of_unlink h), Option.some.injEq] at h
  rw [← h, node?_remove]

theorem empty_of_rmdir (h : tree.rmdir path = some after) :
    tree.isDir path = true ∧ tree.children path = [] := by
  rw [rmdir] at h
  split at h
  · assumption
  · contradiction

theorem node?_of_rmdir (h : tree.rmdir path = some after) (other : List Name) :
    after.node? other = if other = path then none else tree.node? other := by
  obtain ⟨hdir, hempty⟩ := empty_of_rmdir h
  rw [rmdir_of_empty hdir hempty, Option.some.injEq] at h
  rw [← h, node?_remove]

/-- A removal leaves a path as it was, or is of that path. -/
theorem node?_eq_or_removed {removed : List Name}
    (h : ∀ other, after.node? other = if other = removed then none else tree.node? other)
    (path : List Name) :
    after.node? path = tree.node? path ∨ path = removed ∧ after.node? path = none := by
  rw [h]
  by_cases heq : path = removed
  · rw [if_pos heq]
    exact .inr ⟨heq, rfl⟩
  · rw [if_neg heq]
    exact .inl rfl

end Removed

/-! ## trees that lost nodes -/

/-- What stands in `tree` stands in `before`, and is the same there. -/
def Within (tree before : FileTree Name) : Prop :=
  ∀ path node, tree.node? path = some node → before.node? path = some node

section Within

variable {tree before : FileTree Name}

theorem Within.refl (tree : FileTree Name) : tree.Within tree := fun _ _ h => h

theorem Within.trans {earliest : FileTree Name} (h : tree.Within before)
    (hbefore : before.Within earliest) : tree.Within earliest :=
  fun path node hnode => hbefore path node (h path node hnode)

theorem Within.isFile (h : tree.Within before) {path : List Name}
    (hfile : tree.isFile path = true) : before.isFile path = true :=
  isFile_iff.mpr (h path _ (isFile_iff.mp hfile))

theorem Within.isReadable (h : tree.Within before) {path : List Name}
    (hread : tree.isReadable path = true) : before.isReadable path = true :=
  isReadable_iff.mpr (h path _ (isReadable_iff.mp hread))

theorem Within.isSome (h : tree.Within before) {path : List Name}
    (hnode : (tree.node? path).isSome) : (before.node? path).isSome := by
  obtain ⟨node, hpath⟩ := Option.isSome_iff_exists.mp hnode
  exact Option.isSome_iff_exists.mpr ⟨node, h path node hpath⟩

/-- What is still listed was listed before. -/
theorem Within.mem_rglob (h : tree.Within before) {root path : List Name}
    (hpath : path ∈ tree.rglob root) : path ∈ before.rglob root := by
  obtain ⟨hnode, habove, hne, hread⟩ := mem_rglob_iff.mp hpath
  exact mem_rglob_iff.mpr ⟨h.isSome hnode, habove, hne, fun n hroot hn =>
    h.isReadable (hread n hroot hn)⟩

/-- What was listed before and still stands is still listed. -/
theorem Within.mem_rglob_of_isSome (h : tree.Within before) {root path : List Name}
    (hpath : path ∈ before.rglob root) (hnode : (tree.node? path).isSome) :
    path ∈ tree.rglob root := by
  obtain ⟨-, habove, hne, hread⟩ := mem_rglob_iff.mp hpath
  refine mem_rglob_iff.mpr ⟨hnode, habove, hne, fun n hroot hn => ?_⟩
  obtain ⟨readable, hdir⟩ := isDir_iff.mp (isDir_take hnode hn)
  have hsame : some (FileNode.directory readable) = some (.directory true) :=
    (h _ _ hdir).symm.trans (isReadable_iff.mp (hread n hroot hn))
  rw [isReadable_iff, hdir, hsame]

end Within

end FileTree
