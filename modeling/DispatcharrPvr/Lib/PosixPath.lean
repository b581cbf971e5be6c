/-!
# Lib.PosixPath

Paths of a POSIX file system as text: how a path class takes a text apart and
writes it back, and how a text is normalised without looking at the file system.

* `ofText`, `text` — the components of a text, and the text of the components;
* `collapseSlashes`, `normpath` — the two rewritings of the text;
* `resolve` — the components walked one by one, `..` going to the parent.

The result is `ofText_normpath`: for a path that starts at the root, rewriting
the text is walking its components.
This module depends only on the Lean 4 core library.
-/

/-- What a path starts with: nothing, `/`, or the `//` that is kept apart from it. -/
inductive Anchor where
  | relative
  | slash
  | slashes
deriving DecidableEq, Repr

namespace Anchor

/-- The text of an anchor. -/
def text : Anchor → List Char
  | relative => []
  | slash => ['/']
  | slashes => ['/', '/']

/-- The anchor of a text; three slashes and more are one. -/
def ofText : List Char → Anchor
  | '/' :: '/' :: '/' :: _ => slash
  | '/' :: '/' :: _ => slashes
  | '/' :: _ => slash
  | _ => relative

end Anchor

/-- A component that is kept: not empty, not `.`, and without a slash. -/
def IsPathName (part : List Char) : Prop := part ≠ [] ∧ part ≠ ['.'] ∧ '/' ∉ part

/-- A path taken apart. -/
structure PosixPath where
  anchor : Anchor
  parts : List (List Char)
  /-- Only names are components. -/
  names : ∀ part ∈ parts, IsPathName part
deriving DecidableEq

namespace PosixPath

@[ext] theorem ext {path other : PosixPath} (hanchor : path.anchor = other.anchor)
    (hparts : path.parts = other.parts) : path = other := by
  cases path
  cases other
  simp_all

/-! ## components -/

/-- The components of a text. -/
def components (text : List Char) : List (List Char) :=
  (text.splitOn '/').filter fun part => part ≠ [] ∧ part ≠ ['.']

theorem notMem_of_mem_splitOn {text part : List Char} (h : part ∈ text.splitOn '/') :
    '/' ∉ part := by
  induction text generalizing part with
  | nil => simp_all
  | cons c text ih =>
      rw [List.splitOn_cons_eq_if_modifyHead] at h
      split at h
      · next hc =>
          rw [List.mem_cons] at h
          cases h with
          | inl hnil => simp [hnil]
          | inr hmem => exact ih hmem
      · next hc =>
          obtain ⟨first, rest, hsplit⟩ := List.exists_cons_of_ne_nil (List.splitOn_ne_nil '/' text)
          rw [hsplit, List.modifyHead_cons, List.mem_cons] at h
          cases h with
          | inl hfirst =>
              have hnot := ih (hsplit ▸ List.mem_cons_self : first ∈ text.splitOn '/')
              have hne : c ≠ '/' := by simpa using hc
              simp [hfirst, hnot, hne.symm]
          | inr hmem => exact ih (hsplit ▸ List.mem_cons_of_mem _ hmem)

/-- Only names are components of a text. -/
theorem isPathName_of_mem_components {text part : List Char} (h : part ∈ components text) :
    IsPathName part := by
  rw [components, List.mem_filter] at h
  have hkept : part ≠ [] ∧ part ≠ ['.'] := by simpa using h.2
  exact ⟨hkept.1, hkept.2, notMem_of_mem_splitOn h.1⟩

/-- A slash in front adds no component. -/
theorem components_slash (text : List Char) : components ('/' :: text) = components text := by
  have hsplit := List.splitOn_append_cons_self (a := '/') [] text
  rw [components, ← List.nil_append ('/' :: text), hsplit]
  simp [components]

/-- The components of names joined by slashes are the names. -/
theorem components_intercalate {parts : List (List Char)} (h : ∀ part ∈ parts, IsPathName part) :
    components (['/'].intercalate parts) = parts := by
  by_cases hnil : parts = []
  · simp [hnil, components]
  · rw [components, List.splitOn_intercalate '/' (fun part hmem => (h part hmem).2.2) hnil,
      List.filter_eq_self]
    intro part hmem
    have hname := h part hmem
    simp [hname.1, hname.2.1]

/-! ## the path class -/

/-- The path of a text. -/
def ofText (text : List Char) : PosixPath where
  anchor := .ofText text
  parts := components text
  names := fun _ => isPathName_of_mem_components

/-- The text of a path; the empty path is `.`. -/
def text (path : PosixPath) : List Char :=
  if path.anchor = .relative ∧ path.parts = [] then ['.']
  else path.anchor.text ++ ['/'].intercalate path.parts

/-- The path of the first `n` components. -/
def ancestor (path : PosixPath) (n : Nat) : PosixPath where
  anchor := path.anchor
  parts := path.parts.take n
  names := fun part hmem => path.names part (List.mem_of_mem_take hmem)

/-- The ancestors of a path, the nearest first. -/
def parents (path : PosixPath) : List PosixPath :=
  (List.range path.parts.length).reverse.map path.ancestor

/-- How many parts a path has; an anchor is one. -/
def partCount (path : PosixPath) : Nat :=
  if path.anchor = .relative then path.parts.length else path.parts.length + 1

theorem mem_parents_iff {path other : PosixPath} :
    other ∈ path.parents ↔
      other.anchor = path.anchor ∧ other.parts <+: path.parts ∧ other.parts ≠ path.parts := by
  rw [parents, List.mem_map]
  constructor
  · rintro ⟨n, hn, rfl⟩
    have hlt : n < path.parts.length := by simpa using hn
    have hshort : (path.parts.take n).length ≠ path.parts.length := by
      rw [List.length_take]
      omega
    exact ⟨rfl, List.take_prefix n path.parts, fun heq => hshort (congrArg List.length heq)⟩
  · rintro ⟨hanchor, habove, hne⟩
    have hlt : other.parts.length < path.parts.length :=
      Nat.lt_of_le_of_ne habove.length_le fun hlength => hne (habove.eq_of_length hlength)
    exact ⟨other.parts.length, by simpa using hlt,
      PosixPath.ext hanchor.symm (List.prefix_iff_eq_take.mp habove).symm⟩

/-- Of two paths with one anchor, one is the other or above it when its components come first. -/
theorem eq_or_mem_parents_iff {path other : PosixPath} (hanchor : other.anchor = path.anchor) :
    path = other ∨ other ∈ path.parents ↔ other.parts <+: path.parts := by
  rw [mem_parents_iff]
  constructor
  · rintro (rfl | h)
    · exact List.prefix_rfl
    · exact h.2.1
  · intro habove
    by_cases heq : other.parts = path.parts
    · exact .inl (PosixPath.ext hanchor.symm heq.symm)
    · exact .inr ⟨hanchor, habove, heq⟩

/-! ## the components walked -/

/-- One component walked: `..` goes to the parent, and stays at the root. -/
def walk (done : List (List Char)) (part : List Char) : List (List Char) :=
  if part = ['.', '.'] then done.dropLast else done ++ [part]

/-- The components walked from the root. -/
def resolve (parts : List (List Char)) : List (List Char) := parts.foldl walk []

theorem mem_foldl_walk {parts done : List (List Char)} {part : List Char}
    (h : part ∈ parts.foldl walk done) : part ∈ done ∨ (part ∈ parts ∧ part ≠ ['.', '.']) := by
  induction parts generalizing done with
  | nil => exact .inl h
  | cons first parts ih =>
      rw [List.foldl_cons] at h
      cases ih h with
      | inl hwalk =>
          rw [walk] at hwalk
          split at hwalk
          · exact .inl (List.dropLast_subset done hwalk)
          · next hne =>
              rw [List.mem_append, List.mem_singleton] at hwalk
              cases hwalk with
              | inl hdone => exact .inl hdone
              | inr heq => exact .inr ⟨heq ▸ List.mem_cons_self, heq ▸ hne⟩
      | inr hrest => exact .inr ⟨List.mem_cons_of_mem _ hrest.1, hrest.2⟩

/-- What is walked has no `..` left. -/
theorem mem_resolve {parts : List (List Char)} {part : List Char} (h : part ∈ resolve parts) :
    part ∈ parts ∧ part ≠ ['.', '.'] := by
  simpa using mem_foldl_walk h

/-- The path that walking the components from the root leads to. -/
def resolved (path : PosixPath) : PosixPath where
  anchor := .slash
  parts := resolve path.parts
  names := fun part hmem => path.names part (mem_resolve hmem).1

/-! ## rewriting the text -/

/-- Runs of slashes made one. -/
def collapseSlashes : List Char → List Char
  | [] => []
  | c :: rest =>
      if c = '/' ∧ rest.head? = some '/' then collapseSlashes rest else c :: collapseSlashes rest

/-- One component of `normpath`: empty components and `.` are skipped, `..` takes the last
component away, unless there is none to take and the path is not rooted. -/
def normStep (rooted : Bool) (done : List (List Char)) (part : List Char) : List (List Char) :=
  if part = [] ∨ part = ['.'] then done
  else if part ≠ ['.', '.'] ∨ (rooted = false ∧ done = []) ∨ done.getLast? = some ['.', '.'] then
    done ++ [part]
  else done.dropLast

/-- The normalised text. The slashes of the anchor only add empty components. -/
def normpath (text : List Char) : List Char :=
  let anchor := Anchor.ofText text
  let parts := (text.splitOn '/').foldl (normStep (anchor ≠ .relative)) []
  let normal := anchor.text ++ ['/'].intercalate parts
  if normal = [] then ['.'] else normal

/-- A text that starts with a slash has an anchor. -/
theorem anchor_ne_relative {text : List Char} (h : text.head? = some '/') :
    (ofText text).anchor ≠ .relative := by
  obtain ⟨rest, rfl⟩ := List.head?_eq_some_iff.mp h
  show Anchor.ofText ('/' :: rest) ≠ .relative
  unfold Anchor.ofText
  split <;> simp_all

/-- What joined names start with is no slash. -/
theorem head?_intercalate {parts : List (List Char)} (h : ∀ part ∈ parts, IsPathName part) :
    (['/'].intercalate parts).head? ≠ some '/' := by
  cases parts with
  | nil => simp
  | cons part parts =>
      have hname := h part List.mem_cons_self
      obtain ⟨c, name, rfl⟩ := List.exists_cons_of_ne_nil hname.1
      have hc : c ≠ '/' := fun heq => hname.2.2 (heq ▸ List.mem_cons_self)
      cases parts <;> simp [List.intercalate_cons_cons, hc]

theorem collapseSlashes_append {name : List Char} (h : '/' ∉ name) (rest : List Char) :
    collapseSlashes (name ++ rest) = name ++ collapseSlashes rest := by
  induction name with
  | nil => rfl
  | cons c name ih =>
      rw [List.mem_cons, not_or] at h
      rw [List.cons_append, collapseSlashes, if_neg fun hslash => h.1 hslash.1.symm, ih h.2,
        List.cons_append]

theorem collapseSlashes_slash {rest : List Char} (h : rest.head? ≠ some '/') :
    collapseSlashes ('/' :: rest) = '/' :: collapseSlashes rest := by
  rw [collapseSlashes, if_neg fun hslash => h hslash.2]

/-- Names joined by single slashes stay as they are. -/
theorem collapseSlashes_intercalate {parts : List (List Char)}
    (h : ∀ part ∈ parts, IsPathName part) :
    collapseSlashes (['/'].intercalate parts) = ['/'].intercalate parts := by
  induction parts with
  | nil => rfl
  | cons part parts ih =>
      have hname := h part List.mem_cons_self
      have hrest : ∀ other ∈ parts, IsPathName other := fun other hmem =>
        h other (List.mem_cons_of_mem part hmem)
      cases parts with
      | nil => simpa [collapseSlashes] using collapseSlashes_append hname.2.2 []
      | cons next parts =>
          have hhead := head?_intercalate hrest
          rw [List.intercalate_cons_cons, List.append_assoc, collapseSlashes_append hname.2.2,
            List.singleton_append, collapseSlashes_slash hhead, ih hrest]

/-- The text of a rooted path, its slashes collapsed. -/
theorem collapseSlashes_text {path : PosixPath} (h : path.anchor ≠ .relative) :
    collapseSlashes path.text = '/' :: ['/'].intercalate path.parts := by
  have hhead := head?_intercalate path.names
  have hone : collapseSlashes ('/' :: ['/'].intercalate path.parts) =
      '/' :: ['/'].intercalate path.parts := by
    rw [collapseSlashes_slash hhead, collapseSlashes_intercalate path.names]
  rw [text, if_neg fun hempty => h hempty.1]
  cases hanchor : path.anchor with
  | relative => contradiction
  | slash => exact hone
  | slashes =>
      rw [Anchor.text, List.cons_append, collapseSlashes, if_pos ⟨rfl, rfl⟩]
      exact hone

/-- The anchor of a single slash before joined names. -/
theorem anchor_slash {rest : List Char} (h : rest.head? ≠ some '/') :
    Anchor.ofText ('/' :: rest) = .slash := by
  cases rest with
  | nil => rfl
  | cons c rest =>
      have hc : c ≠ '/' := by simpa using h
      rw [Anchor.ofText] <;> simp_all

/-- Empty components and `.` do not count. -/
theorem foldl_normStep_splitOn (rooted : Bool) (text : List Char) (done : List (List Char)) :
    (text.splitOn '/').foldl (normStep rooted) done =
      (components text).foldl (normStep rooted) done := by
  rw [components, List.foldl_filter]
  congr 1
  funext done part
  by_cases hskip : part = [] ∨ part = ['.']
  · rw [normStep, if_pos hskip, if_neg]
    simpa [Decidable.or_iff_not_imp_left] using hskip
  · rw [if_pos]
    simpa using hskip

/-- On a rooted path the normaliser walks: there is never a `..` to keep. -/
theorem foldl_normStep {parts done : List (List Char)} (h : ∀ part ∈ parts, IsPathName part)
    (hdone : ['.', '.'] ∉ done) :
    parts.foldl (normStep true) done = parts.foldl walk done := by
  induction parts generalizing done with
  | nil => rfl
  | cons part parts ih =>
      have hname := h part List.mem_cons_self
      have hlast : done.getLast? ≠ some ['.', '.'] := fun hlast =>
        hdone (List.mem_of_getLast? hlast)
      have hstep : normStep true done part = walk done part := by
        rw [normStep, walk, if_neg (not_or.mpr ⟨hname.1, hname.2.1⟩)]
        by_cases hup : part = ['.', '.'] <;> simp [hup, hlast]
      have hclean : ['.', '.'] ∉ walk done part := by
        intro hmem
        have hwalked := mem_foldl_walk (show ['.', '.'] ∈ [part].foldl walk done from hmem)
        simp_all
      rw [List.foldl_cons, List.foldl_cons, hstep,
        ih (fun other hmem => h other (List.mem_cons_of_mem part hmem)) hclean]

/-- Rewriting the text of a rooted path is walking its components. -/
theorem ofText_normpath {path : PosixPath} (h : path.anchor ≠ .relative) :
    ofText (normpath (collapseSlashes path.text)) = path.resolved := by
  have hhead := head?_intercalate path.names
  have hwalk : (('/' :: ['/'].intercalate path.parts).splitOn '/').foldl (normStep true) [] =
      resolve path.parts := by
    rw [foldl_normStep_splitOn, components_slash, components_intercalate path.names,
      foldl_normStep path.names (by simp), resolve]
  have hnormal : normpath ('/' :: ['/'].intercalate path.parts) =
      '/' :: ['/'].intercalate (resolve path.parts) := by
    simp [normpath, anchor_slash hhead, hwalk, Anchor.text]
  have hparts : components ('/' :: ['/'].intercalate (resolve path.parts)) =
      resolve path.parts := by
    rw [components_slash]
    exact components_intercalate path.resolved.names
  rw [collapseSlashes_text h, hnormal]
  exact PosixPath.ext (anchor_slash (head?_intercalate path.resolved.names)) hparts

end PosixPath
