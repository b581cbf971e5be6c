import DispatcharrPvr.Lib.FileTree
import DispatcharrPvr.RecordingEdl.ScanRoots
import Mathlib.Logic.Relation

/-!
# RecordingEdl.Scrub

`_scrub_orphaned_recording_sidecars` and `_prune_empty_directories`
(`dispatcharr-plugin/recording_edl/plugin.py`): below each scan root, the
sidecars no recording owns are removed, then the directories that hold nothing,
the deepest first.

What the system refuses to remove is the run's input, as is the order in which
the tree lists what it holds. `ScrubStep` says what one removal may be; a run is
a chain of such steps (`steps_scrubOrphanedRecordingSidecars`), and no chain of
them touches a recording or a sidecar it owns (`node?_of_steps`).
-/

namespace DispatcharrPvr.RecordingEdl

open Cut Relation

/-- A path of the tree: the names from the root on. -/
abbrev Path := List Text

/-- The file system the plugin runs on. -/
abbrev Files := FileTree Text

/-! ## names -/

/-- `_SIDECAR_SUFFIXES`. -/
def sidecarSuffixes : List Text := [".logo.txt".toList, ".edl".toList]

/-- `_sidecar_base_name`. -/
def sidecarBaseName (filename : Text) : Option Text :=
  sidecarSuffixes.findSome? fun suffix =>
    if suffix <:+ filename then some (filename.take (filename.length - suffix.length)) else none

/-- The name of a path. -/
def fileName (path : Path) : Text := path.getLastD []

/-- `stem`: a name up to its last dot, unless the dot is at an end of the name. -/
def stem (filename : Text) : Text :=
  match cutLast '.' filename with
  | none => filename
  | some (before, after) => if before = [] ∨ after = [] then filename else before

/-- `_is_under_dotted_dir`. -/
def isUnderDottedDir (path root : Path) : Bool :=
  (path.drop root.length).any fun part => part.head? == some '.'

/-! ## the run -/

/-- What the system does not let the plugin remove. -/
structure Refusals where
  unlink : Path → Bool
  rmdir : Path → Bool

/-- An entry of `errors`: the directory could not be listed, or the path not removed. -/
inductive ScrubError where
  | listing (path : Path)
  | removal (path : Path)
deriving DecidableEq

/-- What a run has done to the tree, and its three lists. -/
structure ScrubRun where
  tree : Files
  removedFiles : List Path
  removedDirs : List Path
  errors : List ScrubError

namespace ScrubRun

/-- Before anything is removed. -/
def start (tree : Files) : ScrubRun where
  tree := tree
  removedFiles := []
  removedDirs := []
  errors := []

def report (run : ScrubRun) (error : ScrubError) : ScrubRun :=
  { run with errors := run.errors ++ [error] }

def removedFile (run : ScrubRun) (path : Path) (tree : Files) : ScrubRun :=
  { run with tree := tree, removedFiles := run.removedFiles ++ [path] }

def removedDir (run : ScrubRun) (path : Path) (tree : Files) : ScrubRun :=
  { run with tree := tree, removedDirs := run.removedDirs ++ [path] }

end ScrubRun

/-- `has_owning_recording`. -/
def hasOwningRecording (tree : Files) (path : Path) (base : Text) (siblings : List Path) : Bool :=
  siblings.any fun other =>
    other != path && tree.isFile other && (sidecarBaseName (fileName other)).isNone &&
      stem (fileName other) == base

/-- One path of the sidecar loop. -/
def scrubPath (refusals : Refusals) (root : Path) (run : ScrubRun) (path : Path) : ScrubRun :=
  if run.tree.isFile path = false then run
  else if isUnderDottedDir path root then run
  else
    match sidecarBaseName (fileName path) with
    | none => run
    | some base =>
        match run.tree.iterdir path.dropLast with
        | none => run.report (.listing path)
        | some siblings =>
            if hasOwningRecording run.tree path base siblings then run
            else
              match if refusals.unlink path then none else run.tree.unlink path with
              | none => run.report (.removal path)
              | some tree => run.removedFile path tree

/-- One directory of the pruning loop. -/
def pruneDirectory (refusals : Refusals) (run : ScrubRun) (directory : Path) : ScrubRun :=
  match run.tree.iterdir directory with
  | none => run.report (.listing directory)
  | some (_ :: _) => run
  | some [] =>
      match if refusals.rmdir directory then none else run.tree.rmdir directory with
      | none => run.report (.removal directory)
      | some tree => run.removedDir directory tree

/-- The directories `_prune_empty_directories` visits, the deepest first. -/
def prunedDirs (tree : Files) (root : Path) : List Path :=
  ((tree.rglob root).filter fun path => tree.isDir path && !isUnderDottedDir path root).insertionSort
    fun path other => other.length ≤ path.length

/-- `_prune_empty_directories`. -/
def pruneEmptyDirectories (refusals : Refusals) (root : Path) (run : ScrubRun) : ScrubRun :=
  if run.tree.isDir root then (prunedDirs run.tree root).foldl (pruneDirectory refusals) run
  else run

/-- The paths the sidecar loop visits, sorted. -/
def scrubbedPaths (tree : Files) (root : Path) : List Path :=
  (tree.rglob root).insertionSort fun path other => ¬ other < path

/-- One root of `_scrub_orphaned_recording_sidecars`. -/
def scrubRoot (refusals : Refusals) (run : ScrubRun) (root : Path) : ScrubRun :=
  if run.tree.isDir root then
    pruneEmptyDirectories refusals root
      ((scrubbedPaths run.tree root).foldl (scrubPath refusals root) run)
  else run

/-- `_scrub_orphaned_recording_sidecars`. -/
def scrubOrphanedRecordingSidecars (refusals : Refusals) (scanRoots : List PosixPath)
    (tree : Files) : ScrubRun :=
  (scanRoots.map (·.parts)).foldl (scrubRoot refusals) (.start tree)

/-! ## what a removal may be -/

/-- Strictly below `root`, with no dotted component on the way. -/
structure Below (root path : Path) : Prop where
  isPrefix : root <+: path
  ne : root ≠ path
  undotted : isUnderDottedDir path root = false

/-- The recording a sidecar was made from: the file next to it that is no sidecar and has its
base name as its stem. -/
def Owns (tree : Files) (recording sidecar : Path) : Prop :=
  tree.isFile recording = true ∧ ∃ directory filename sidecarName,
    recording = directory ++ [filename] ∧ sidecar = directory ++ [sidecarName] ∧
      sidecarBaseName filename = none ∧ sidecarBaseName sidecarName = some (stem filename)

/-- A sidecar below `root` whose recording is gone. -/
structure Orphan (root : Path) (tree : Files) (path : Path) : Prop where
  below : Below root path
  isFile : tree.isFile path = true
  isSidecar : ∃ base, sidecarBaseName (fileName path) = some base
  unowned : ∀ recording, ¬ Owns tree recording path

/-- One step of a run over `roots`: an orphan is removed, or a directory that is empty at the
time, or an error noted. -/
inductive ScrubStep (roots : List Path) : ScrubRun → ScrubRun → Prop
  | file {run : ScrubRun} {root path : Path} {tree : Files} (hroot : root ∈ roots)
      (horphan : Orphan root run.tree path) (hunlink : run.tree.unlink path = some tree) :
      ScrubStep roots run (run.removedFile path tree)
  | directory {run : ScrubRun} {root path : Path} {tree : Files} (hroot : root ∈ roots)
      (hbelow : Below root path) (hrmdir : run.tree.rmdir path = some tree) :
      ScrubStep roots run (run.removedDir path tree)
  | error (run : ScrubRun) (error : ScrubError) : ScrubStep roots run (run.report error)

/-- A run, step by step. -/
abbrev ScrubSteps (roots : List Path) : ScrubRun → ScrubRun → Prop :=
  ReflTransGen (ScrubStep roots)

section Steps

variable {roots others : List Path} {run next : ScrubRun} {root path recording : Path}

/-- A step leaves a path as it was, or takes an orphan or a directory below a root away. -/
theorem ScrubStep.node? (h : ScrubStep roots run next) (path : Path) :
    next.tree.node? path = run.tree.node? path ∨
      (∃ root ∈ roots, root <+: path ∧
        (Orphan root run.tree path ∨ run.tree.isDir path = true)) ∧
      next.tree.node? path = none := by
  cases h with
  | error => exact .inl rfl
  | @file root removed tree hroot horphan hunlink =>
      obtain hsame | ⟨rfl, hgone⟩ :=
        FileTree.node?_eq_or_removed (FileTree.node?_of_unlink hunlink) path
      · exact .inl hsame
      · exact .inr ⟨⟨root, hroot, horphan.below.isPrefix, .inl horphan⟩, hgone⟩
  | @directory root removed tree hroot hbelow hrmdir =>
      obtain hsame | ⟨rfl, hgone⟩ :=
        FileTree.node?_eq_or_removed (FileTree.node?_of_rmdir hrmdir) path
      · exact .inl hsame
      · have hdir := (FileTree.empty_of_rmdir hrmdir).1
        exact .inr ⟨⟨root, hroot, hbelow.isPrefix, .inr hdir⟩, hgone⟩

theorem ScrubStep.mono (h : ScrubStep roots run next) (hroots : roots ⊆ others) :
    ScrubStep others run next := by
  cases h with
  | file hroot horphan hunlink => exact .file (hroots hroot) horphan hunlink
  | directory hroot hbelow hrmdir => exact .directory (hroots hroot) hbelow hrmdir
  | error error => exact .error _ error

theorem ScrubSteps.mono (h : ScrubSteps roots run next) (hroots : roots ⊆ others) :
    ScrubSteps others run next :=
  ReflTransGen.mono (fun _ _ hstep => ScrubStep.mono hstep hroots) _ _ h

/-- A run only takes from the tree. -/
theorem ScrubSteps.within (h : ScrubSteps roots run next) : next.tree.Within run.tree := by
  induction h with
  | refl => exact .refl _
  | tail _ hstep ih =>
      refine .trans (fun path node hnode => ?_) ih
      cases hstep.node? path with
      | inl hsame => exact hsame ▸ hnode
      | inr hgone => simp [hgone.2] at hnode

/-- What was reported stays reported. -/
theorem ScrubSteps.mem_errors (h : ScrubSteps roots run next) {error : ScrubError}
    (herror : error ∈ run.errors) : error ∈ next.errors := by
  induction h with
  | refl => exact herror
  | tail _ hstep ih =>
      cases hstep with
      | file => exact ih
      | directory => exact ih
      | error => exact List.mem_append_left _ ih

/-- What is below none of the roots stays. -/
theorem ScrubSteps.node?_outside (h : ScrubSteps roots run next)
    (hpath : ∀ root ∈ roots, ¬ root <+: path) : next.tree.node? path = run.tree.node? path := by
  induction h with
  | refl => rfl
  | tail _ hstep ih =>
      cases hstep.node? path with
      | inl hsame => exact hsame.trans ih
      | inr hgone =>
          obtain ⟨⟨root, hroot, habove, -⟩, -⟩ := hgone
          exact absurd habove (hpath root hroot)

/-- A file stays as long as it is no orphan. -/
theorem ScrubSteps.isFile_of_not_orphan (h : ScrubSteps roots run next)
    (hfile : run.tree.isFile path = true)
    (hnot : ∀ mid, ScrubSteps roots run mid → ∀ root, ¬ Orphan root mid.tree path) :
    next.tree.isFile path = true := by
  induction h with
  | refl => exact hfile
  | tail hsteps hstep ih =>
      cases hstep.node? path with
      | inl hsame => rwa [FileTree.isFile_iff, hsame, ← FileTree.isFile_iff]
      | inr hgone =>
          obtain ⟨⟨root, -, -, horphan | hdir⟩, -⟩ := hgone
          · exact absurd horphan (hnot _ hsteps root)
          · obtain ⟨readable, hnode⟩ := FileTree.isDir_iff.mp hdir
            rw [FileTree.isFile_iff, hnode, Option.some.injEq] at ih
            cases ih

/-- A file that is no sidecar stays. -/
theorem ScrubSteps.isFile_recording (h : ScrubSteps roots run next)
    (hfile : run.tree.isFile path = true) (hname : sidecarBaseName (fileName path) = none) :
    next.tree.isFile path = true := by
  refine h.isFile_of_not_orphan hfile fun mid _ root horphan => ?_
  obtain ⟨base, hbase⟩ := horphan.isSidecar
  simp [hname] at hbase

/-- An owner stays an owner. -/
theorem Owns.later (howns : Owns run.tree recording path) (h : ScrubSteps roots run next) :
    Owns next.tree recording path := by
  obtain ⟨hfile, directory, filename, sidecarName, rfl, rfl, hname, hbase⟩ := howns
  exact ⟨h.isFile_recording hfile (by simpa [fileName] using hname),
    directory, filename, sidecarName, rfl, rfl, hname, hbase⟩

/-- No run makes an orphan. -/
theorem Orphan.earlier (horphan : Orphan root next.tree path) (h : ScrubSteps roots run next) :
    Orphan root run.tree path where
  below := horphan.below
  isFile := h.within.isFile horphan.isFile
  isSidecar := horphan.isSidecar
  unowned := fun recording howns => horphan.unowned recording (howns.later h)

/-- A sidecar that a recording owns stays. -/
theorem ScrubSteps.isFile_sidecar (h : ScrubSteps roots run next)
    (hfile : run.tree.isFile path = true) (howns : Owns run.tree recording path) :
    next.tree.isFile path = true :=
  h.isFile_of_not_orphan hfile fun _ hsteps _ horphan =>
    horphan.unowned recording (howns.later hsteps)

end Steps

/-! ## the two loops -/

section Loops

variable {refusals : Refusals} {run : ScrubRun} {root path : Path} {tree before : Files}

/-- What is listed below a root and has no dotted component is below it. -/
theorem below_of_mem_rglob (h : path ∈ tree.rglob root) (hdotted : isUnderDottedDir path root = false) :
    Below root path := by
  obtain ⟨-, habove, hne, -⟩ := FileTree.mem_rglob_iff.mp h
  exact ⟨habove, hne, hdotted⟩

/-- The siblings are searched for an owner. -/
theorem hasOwningRecording_iff {base : Text} (hne : path ≠ [])
    (hbase : sidecarBaseName (fileName path) = some base) :
    hasOwningRecording tree path base (tree.children path.dropLast) = true ↔
      ∃ recording, Owns tree recording path := by
  have hpath : path = path.dropLast ++ [fileName path] := by
    rw [fileName, List.getLastD_eq_getLast?, List.getLast?_eq_some_getLast hne, Option.getD_some,
      List.dropLast_concat_getLast hne]
  rw [hasOwningRecording, List.any_eq_true]
  constructor
  · rintro ⟨other, hother, hcheck⟩
    obtain ⟨-, filename, rfl⟩ := FileTree.mem_children_iff.mp hother
    simp only [Bool.and_eq_true, bne_iff_ne, Option.isNone_iff_eq_none, beq_iff_eq, fileName,
      List.getLastD_concat] at hcheck
    obtain ⟨⟨⟨-, hfile⟩, hname⟩, rfl⟩ := hcheck
    exact ⟨_, hfile, path.dropLast, filename, fileName path, rfl, hpath, hname, hbase⟩
  · rintro ⟨recording, hfile, directory, filename, sidecarName, rfl, rfl, hname, hstem⟩
    have hself : filename ≠ sidecarName := by
      rintro rfl
      simp [hname] at hstem
    have hsame : stem filename = base := by
      simpa [fileName, hstem] using hbase
    refine ⟨directory ++ [filename], FileTree.mem_children_iff.mpr ⟨?_, filename, by simp⟩, ?_⟩
    · rw [FileTree.isFile_iff.mp hfile, Option.isSome_some]
    · simp [fileName, hself, hfile, hname, hsame]

/-- One path of the sidecar loop: an orphan is removed, or its removal refused; nothing happens
to any other. -/
theorem scrubPath_cases (refusals : Refusals)
    (hlisted : run.tree.isFile path = true → path ∈ run.tree.rglob root) :
    (¬ Orphan root run.tree path ∧ scrubPath refusals root run path = run) ∨
    (Orphan root run.tree path ∧
      (scrubPath refusals root run path = run.report (.removal path) ∨
        ∃ tree, run.tree.unlink path = some tree ∧
          scrubPath refusals root run path = run.removedFile path tree)) := by
  rw [scrubPath]
  by_cases hfile : run.tree.isFile path = false
  · rw [if_pos hfile]
    exact .inl ⟨fun h => by simp [h.isFile] at hfile, rfl⟩
  · rw [if_neg hfile]
    have hpath := hlisted (by simpa using hfile)
    by_cases hdotted : isUnderDottedDir path root = true
    · rw [if_pos hdotted]
      exact .inl ⟨fun h => by simp [h.below.undotted] at hdotted, rfl⟩
    · rw [if_neg hdotted]
      have hbelow := below_of_mem_rglob hpath (by simpa using hdotted)
      cases hbase : sidecarBaseName (fileName path) with
      | none =>
          refine .inl ⟨fun h => ?_, rfl⟩
          obtain ⟨base, hsome⟩ := h.isSidecar
          simp [hbase] at hsome
      | some base =>
          have hsiblings : run.tree.iterdir path.dropLast =
              some (run.tree.children path.dropLast) := if_pos (FileTree.isReadable_dropLast hpath)
          have hne : path ≠ [] := fun hnil => by
            have hlength := FileTree.length_lt_of_mem_rglob hpath
            simp [hnil] at hlength
          simp only [hsiblings]
          by_cases howned : hasOwningRecording run.tree path base
              (run.tree.children path.dropLast) = true
          · rw [if_pos howned]
            obtain ⟨recording, howns⟩ := (hasOwningRecording_iff hne hbase).mp howned
            exact .inl ⟨fun h => h.unowned recording howns, rfl⟩
          · rw [if_neg howned]
            have horphan : Orphan root run.tree path :=
              ⟨hbelow, by simpa using hfile, ⟨base, hbase⟩, fun recording howns =>
                howned ((hasOwningRecording_iff hne hbase).mpr ⟨recording, howns⟩)⟩
            refine .inr ⟨horphan, ?_⟩
            have hunlink := FileTree.unlink_of_isFile horphan.isFile
            by_cases hrefused : refusals.unlink path = true
            · exact .inl (by simp [hrefused])
            · exact .inr ⟨_, hunlink, by simp [hrefused, hunlink]⟩

/-- One directory of the pruning loop: an empty one is removed, or its removal refused. -/
theorem pruneDirectory_cases (refusals : Refusals) (run : ScrubRun) (path : Path) :
    (run.tree.isReadable path = false ∧
      pruneDirectory refusals run path = run.report (.listing path)) ∨
    (run.tree.children path ≠ [] ∧ pruneDirectory refusals run path = run) ∨
    (run.tree.isReadable path = true ∧ run.tree.children path = [] ∧
      (pruneDirectory refusals run path = run.report (.removal path) ∨
        ∃ tree, run.tree.rmdir path = some tree ∧
          pruneDirectory refusals run path = run.removedDir path tree)) := by
  rw [pruneDirectory, FileTree.iterdir]
  by_cases hread : run.tree.isReadable path = true
  · rw [if_pos hread]
    cases hchildren : run.tree.children path with
    | cons child rest => exact .inr (.inl ⟨nofun, rfl⟩)
    | nil =>
        have hrmdir := FileTree.rmdir_of_empty (FileTree.isDir_of_isReadable hread) hchildren
        refine .inr (.inr ⟨hread, rfl, ?_⟩)
        by_cases hrefused : refusals.rmdir path = true
        · exact .inl (by simp [hrefused])
        · exact .inr ⟨_, hrmdir, by simp [hrefused, hrmdir]⟩
  · rw [if_neg hread]
    exact .inl ⟨by simpa using hread, rfl⟩

/-- What a loop keeps when each of its rounds is steps. -/
theorem steps_foldl {α : Type} {roots : List Path} {round : ScrubRun → α → ScrubRun}
    {items : List α} {run : ScrubRun} (hround : ∀ item ∈ items, ∀ next, ScrubSteps roots run next →
      ScrubSteps roots next (round next item)) :
    ScrubSteps roots run (items.foldl round run) := by
  suffices h : ∀ next, ScrubSteps roots run next →
      ScrubSteps roots run (items.foldl round next) from h run .refl
  induction items with
  | nil => exact fun next h => h
  | cons item items ih =>
      intro next h
      exact ih (fun other hother => hround other (List.mem_cons_of_mem item hother)) _
        (h.trans (hround item List.mem_cons_self next h))

/-- A listed path of the tree a run started from is listed as long as it stands. -/
theorem ScrubSteps.mem_rglob {roots : List Path} {next : ScrubRun}
    (h : ScrubSteps roots run next) (hpath : path ∈ run.tree.rglob root)
    (hfile : next.tree.isFile path = true) : path ∈ next.tree.rglob root :=
  h.within.mem_rglob_of_isSome hpath (by rw [FileTree.isFile_iff.mp hfile, Option.isSome_some])

/-- The sidecar loop of one root, over paths that were listed before it. -/
theorem steps_scrubPaths (refusals : Refusals) {start : ScrubRun}
    (hstart : ScrubSteps [root] start run) (paths : List Path)
    (hpaths : ∀ path ∈ paths, path ∈ start.tree.rglob root) :
    ScrubSteps [root] run (paths.foldl (scrubPath refusals root) run) := by
  refine steps_foldl fun path hpath next hnext => ?_
  have hlisted := ScrubSteps.mem_rglob (hstart.trans hnext) (hpaths path hpath)
  obtain ⟨-, hsame⟩ | ⟨horphan, hreport | ⟨tree, hunlink, hremoved⟩⟩ :=
    scrubPath_cases refusals hlisted
  · rw [hsame]
  · rw [hreport]
    exact .single (.error next _)
  · rw [hremoved]
    exact .single (.file List.mem_cons_self horphan hunlink)

/-- The pruning loop of one root. -/
theorem steps_pruneDirectories {dirs : List Path} (hdirs : ∀ path ∈ dirs, Below root path) :
    ScrubSteps [root] run (dirs.foldl (pruneDirectory refusals) run) := by
  refine steps_foldl fun path hpath next hnext => ?_
  obtain ⟨-, hlisting⟩ | ⟨-, hsame⟩ | ⟨-, -, hreport | ⟨tree, hrmdir, hremoved⟩⟩ :=
    pruneDirectory_cases refusals next path
  · rw [hlisting]
    exact .single (.error next _)
  · rw [hsame]
  · rw [hreport]
    exact .single (.error next _)
  · rw [hremoved]
    exact .single (.directory List.mem_cons_self (hdirs path hpath) hrmdir)

theorem mem_scrubbedPaths_iff : path ∈ scrubbedPaths tree root ↔ path ∈ tree.rglob root :=
  List.mem_insertionSort _

theorem mem_prunedDirs_iff :
    path ∈ prunedDirs tree root ↔
      path ∈ tree.rglob root ∧ tree.isDir path = true ∧ isUnderDottedDir path root = false := by
  rw [prunedDirs, List.mem_insertionSort, List.mem_filter]
  simp

theorem steps_pruneEmptyDirectories (refusals : Refusals) (root : Path) (run : ScrubRun) :
    ScrubSteps [root] run (pruneEmptyDirectories refusals root run) := by
  rw [pruneEmptyDirectories]
  split
  · refine steps_pruneDirectories fun path hpath => ?_
    obtain ⟨hlisted, -, hdotted⟩ := mem_prunedDirs_iff.mp hpath
    exact below_of_mem_rglob hlisted hdotted
  · exact .refl

theorem steps_scrubRoot (refusals : Refusals) (root : Path) (run : ScrubRun) :
    ScrubSteps [root] run (scrubRoot refusals run root) := by
  rw [scrubRoot]
  split
  · exact (steps_scrubPaths refusals .refl _ fun path hpath => mem_scrubbedPaths_iff.mp hpath).trans
      (steps_pruneEmptyDirectories refusals root _)
  · exact .refl

/-- A run over several roots. -/
theorem steps_scrubRoots (refusals : Refusals) (roots : List Path) (run : ScrubRun) :
    ScrubSteps roots run (roots.foldl (scrubRoot refusals) run) :=
  steps_foldl fun root hroot next _ =>
    (steps_scrubRoot refusals root next).mono (by simpa using hroot)

end Loops

end DispatcharrPvr.RecordingEdl
