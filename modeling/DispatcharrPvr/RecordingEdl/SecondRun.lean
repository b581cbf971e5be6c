import DispatcharrPvr.RecordingEdl.Scrub

/-!
# RecordingEdl.SecondRun

What a scrub leaves behind (`Clean`): below a root no orphaned sidecar, and no
directory that is listed and holds nothing. The deepest directories are visited
first, so what keeps a directory when its turn comes is deeper than all that is
still to be visited, and stays.

A run over such a tree removes nothing, whatever order it takes (`scrubRoot_of_clean`).
`sidecar_scrub` puts the roots, the run and the second run together.
-/

namespace DispatcharrPvr.RecordingEdl

open Relation

/-- Nothing below `root` is left to remove. -/
structure Clean (root : Path) (tree : Files) : Prop where
  files : ∀ path ∈ tree.rglob root, ¬ Orphan root tree path
  dirs : ∀ path ∈ tree.rglob root, isUnderDottedDir path root = false →
    tree.isReadable path = true → tree.children path ≠ []

/-- No removal failed. -/
def NoRemovalFails (run : ScrubRun) : Prop := ∀ path, .removal path ∉ run.errors

section Clean

variable {refusals : Refusals} {run next : ScrubRun} {root : Path} {roots : List Path}
  {tree again : Files}

theorem NoRemovalFails.earlier (h : NoRemovalFails next) (hsteps : ScrubSteps roots run next) :
    NoRemovalFails run := fun path hmem => h path (hsteps.mem_errors hmem)

/-! ## after the sidecar loop -/

/-- No path the loop visited is an orphan. -/
theorem not_orphan_scrubPaths (refusals : Refusals) {paths : List Path}
    (hpaths : ∀ path ∈ paths, path ∈ run.tree.rglob root)
    (hfails : NoRemovalFails (paths.foldl (scrubPath refusals root) run)) :
    ∀ path ∈ paths, ¬ Orphan root (paths.foldl (scrubPath refusals root) run).tree path := by
  intro path hpath
  obtain ⟨done, rest, rfl⟩ := List.append_of_mem hpath
  rw [List.foldl_append, List.foldl_cons] at hfails ⊢
  have hdone : ScrubSteps [root] run (done.foldl (scrubPath refusals root) run) :=
    steps_scrubPaths refusals .refl done fun other hother =>
      hpaths other (List.mem_append_left _ hother)
  generalize done.foldl (scrubPath refusals root) run = mid at hdone hfails ⊢
  have hcases := scrubPath_cases refusals (hdone.mem_rglob (hpaths path hpath))
  have hstep : ScrubSteps [root] mid (scrubPath refusals root mid path) :=
    steps_scrubPaths refusals hdone [path] fun other hother =>
      hpaths other (by simp [List.mem_singleton.mp hother])
  have hrest := steps_scrubPaths refusals (hdone.trans hstep) rest fun other hother =>
    hpaths other (List.mem_append_right _ (List.mem_cons_of_mem _ hother))
  intro horphan
  have hearlier := horphan.earlier hrest
  obtain ⟨hnot, hsame⟩ | ⟨-, hreport | ⟨after, hunlink, hremoved⟩⟩ := hcases
  · exact hnot (hsame ▸ hearlier)
  · refine hfails path (hrest.mem_errors ?_)
    simp [hreport, ScrubRun.report]
  · have hgone : after.node? path = none := by
      rw [FileTree.node?_of_unlink hunlink, if_pos rfl]
    rw [hremoved] at hearlier
    have hfile : after.node? path = some .file := FileTree.isFile_iff.mp hearlier.isFile
    cases hgone.symm.trans hfile

/-! ## after the pruning loop -/

/-- What the loop does not visit stays. -/
theorem node?_pruneDirectories (refusals : Refusals) (run : ScrubRun) {dirs : List Path}
    {path : Path} (hpath : path ∉ dirs) :
    (dirs.foldl (pruneDirectory refusals) run).tree.node? path = run.tree.node? path := by
  induction dirs generalizing run with
  | nil => rfl
  | cons directory dirs ih =>
      rw [List.mem_cons, not_or] at hpath
      rw [List.foldl_cons, ih _ hpath.2]
      obtain ⟨-, hlisting⟩ | ⟨-, hsame⟩ | ⟨-, -, hreport | ⟨tree, hrmdir, hremoved⟩⟩ :=
        pruneDirectory_cases refusals run directory
      · rw [hlisting, ScrubRun.report]
      · rw [hsame]
      · rw [hreport, ScrubRun.report]
      · rw [hremoved]
        exact (FileTree.node?_of_rmdir hrmdir path).trans (if_neg hpath.1)

/-- No directory the loop visited is left empty. -/
theorem children_pruneDirectories {dirs : List Path} (hbelow : ∀ path ∈ dirs, Below root path)
    (hsorted : dirs.Pairwise fun path other => other.length ≤ path.length)
    (hfails : NoRemovalFails (dirs.foldl (pruneDirectory refusals) run)) :
    ∀ path ∈ dirs, (dirs.foldl (pruneDirectory refusals) run).tree.isReadable path = true →
      (dirs.foldl (pruneDirectory refusals) run).tree.children path ≠ [] := by
  intro path hpath
  obtain ⟨done, rest, rfl⟩ := List.append_of_mem hpath
  rw [List.foldl_append, List.foldl_cons] at hfails ⊢
  generalize done.foldl (pruneDirectory refusals) run = mid at hfails ⊢
  have hcases := pruneDirectory_cases refusals mid path
  have hrest : ScrubSteps [root] (pruneDirectory refusals mid path)
      (rest.foldl (pruneDirectory refusals) (pruneDirectory refusals mid path)) :=
    steps_pruneDirectories fun other hother =>
      hbelow other (List.mem_append_right _ (List.mem_cons_of_mem _ hother))
  intro hread
  have hearlier := hrest.within.isReadable hread
  obtain ⟨hunread, hlisting⟩ | ⟨hchildren, hsame⟩ | ⟨-, -, hreport | ⟨after, hrmdir, hremoved⟩⟩ := hcases
  · rw [hlisting] at hearlier
    exact absurd hearlier (by simp [ScrubRun.report, hunread])
  · obtain ⟨child, hchild⟩ := List.exists_mem_of_ne_nil _ hchildren
    obtain ⟨hnode, name, rfl⟩ := FileTree.mem_children_iff.mp hchild
    -- the child is deeper than what is still to be visited
    have hnot : path ++ [name] ∉ rest := fun hmem => by
      have hlength := List.rel_of_pairwise_cons (List.pairwise_append.mp hsorted).2.1 hmem
      rw [List.length_append, List.length_singleton] at hlength
      omega
    have hkept := node?_pruneDirectories refusals (pruneDirectory refusals mid path) hnot
    rw [hsame] at hkept ⊢
    rw [← hkept] at hnode
    exact List.ne_nil_of_mem (FileTree.mem_children_iff.mpr ⟨hnode, name, rfl⟩)
  · refine absurd (hrest.mem_errors ?_) (hfails path)
    simp [hreport, ScrubRun.report]
  · have hgone : after.node? path = none := by
      rw [FileTree.node?_of_rmdir hrmdir, if_pos rfl]
    rw [hremoved] at hearlier
    have hdir : after.node? path = some (.directory true) := FileTree.isReadable_iff.mp hearlier
    cases hgone.symm.trans hdir

/-! ## after one root -/

theorem clean_pruneEmptyDirectories
    (hfails : NoRemovalFails (pruneEmptyDirectories refusals root run)) :
    ∀ path ∈ (pruneEmptyDirectories refusals root run).tree.rglob root,
      isUnderDottedDir path root = false →
      (pruneEmptyDirectories refusals root run).tree.isReadable path = true →
      (pruneEmptyDirectories refusals root run).tree.children path ≠ [] := by
  have hsteps := steps_pruneEmptyDirectories refusals root run
  intro path hlisted hdotted hread
  have hbefore := hsteps.within.mem_rglob hlisted
  have hdir := FileTree.isDir_of_isReadable (hsteps.within.isReadable hread)
  have hvisited : path ∈ prunedDirs run.tree root := mem_prunedDirs_iff.mpr ⟨hbefore, hdir, hdotted⟩
  have hbelow : ∀ other ∈ prunedDirs run.tree root, Below root other := fun other hother =>
    have hmem := mem_prunedDirs_iff.mp hother
    below_of_mem_rglob hmem.1 hmem.2.2
  rw [pruneEmptyDirectories,
    if_pos (FileTree.isDir_of_isReadable (FileTree.isReadable_root hbefore))] at hfails hread ⊢
  exact children_pruneDirectories hbelow (List.pairwise_insertionSort _ _) hfails path hvisited hread

/-- A root without a failed removal is left clean. -/
theorem clean_scrubRoot (hfails : NoRemovalFails (scrubRoot refusals run root)) :
    Clean root (scrubRoot refusals run root).tree := by
  by_cases hroot : run.tree.isDir root = true
  · rw [scrubRoot, if_pos hroot] at hfails ⊢
    have hpaths : ∀ path ∈ scrubbedPaths run.tree root, path ∈ run.tree.rglob root :=
      fun path => mem_scrubbedPaths_iff.mp
    have hscrubbed := steps_scrubPaths refusals .refl _ hpaths
    have hloop := not_orphan_scrubPaths refusals hpaths
    generalize (scrubbedPaths run.tree root).foldl (scrubPath refusals root) run = mid
      at hfails hscrubbed hloop ⊢
    have hpruned := steps_pruneEmptyDirectories refusals root mid
    refine ⟨fun path hlisted horphan => ?_, clean_pruneEmptyDirectories hfails⟩
    have hbefore := (ScrubSteps.within (hscrubbed.trans hpruned)).mem_rglob hlisted
    exact hloop (hfails.earlier hpruned) path (mem_scrubbedPaths_iff.mpr hbefore)
      (horphan.earlier hpruned)
  · rw [scrubRoot, if_neg hroot]
    have hnone : ∀ path, path ∉ run.tree.rglob root := fun path hlisted =>
      hroot (FileTree.isDir_of_isReadable (FileTree.isReadable_root hlisted))
    exact ⟨fun path hlisted => absurd hlisted (hnone path),
      fun path hlisted => absurd hlisted (hnone path)⟩

/-- A run over other roots leaves a root clean. -/
theorem Clean.later (h : Clean root run.tree) (hsteps : ScrubSteps roots run next)
    (hapart : ∀ other ∈ roots, ∀ path, root <+: path → ¬ other <+: path) :
    Clean root next.tree where
  files := fun path hlisted horphan =>
    h.files path (hsteps.within.mem_rglob hlisted) (horphan.earlier hsteps)
  dirs := by
    intro path hlisted hdotted hread
    have hbefore := hsteps.within.mem_rglob hlisted
    obtain ⟨child, hchild⟩ := List.exists_mem_of_ne_nil _
      (h.dirs path hbefore hdotted (hsteps.within.isReadable hread))
    obtain ⟨hnode, name, rfl⟩ := FileTree.mem_children_iff.mp hchild
    have hbelow : root <+: path ++ [name] :=
      (FileTree.mem_rglob_iff.mp hbefore).2.1.trans (List.prefix_append path [name])
    have hkept := hsteps.node?_outside fun other hother => hapart other hother _ hbelow
    exact List.ne_nil_of_mem (FileTree.mem_children_iff.mpr ⟨hkept ▸ hnode, name, rfl⟩)

/-- A run over roots that are apart leaves each of them clean. -/
theorem clean_scrubRoots
    (hapart : roots.Pairwise fun root other => ∀ path, root <+: path → ¬ other <+: path)
    (hfails : NoRemovalFails (roots.foldl (scrubRoot refusals) run)) :
    ∀ root ∈ roots, Clean root (roots.foldl (scrubRoot refusals) run).tree := by
  induction roots generalizing run with
  | nil => simp
  | cons root roots ih =>
      rw [List.pairwise_cons] at hapart
      rw [List.foldl_cons] at hfails ⊢
      have hrest := steps_scrubRoots refusals roots (scrubRoot refusals run root)
      intro other hother
      rw [List.mem_cons] at hother
      cases hother with
      | inl heq => exact heq ▸ (clean_scrubRoot (hfails.earlier hrest)).later hrest hapart.1
      | inr hmem => exact ih hapart.2 hfails other hmem

/-! ## the second run -/

theorem Clean.of_same (h : Clean root tree) (hsame : ∀ path, again.node? path = tree.node? path) :
    Clean root again := by
  have hwithin : again.Within tree := fun path node hnode => hsame path ▸ hnode
  have hback : tree.Within again := fun path node hnode => (hsame path).symm ▸ hnode
  refine ⟨fun path hlisted horphan => h.files path (hwithin.mem_rglob hlisted) ?_, ?_⟩
  · refine ⟨horphan.below, hwithin.isFile horphan.isFile, horphan.isSidecar, fun recording howns => ?_⟩
    exact horphan.unowned recording ⟨hback.isFile howns.1, howns.2⟩
  · intro path hlisted hdotted hread
    obtain ⟨child, hchild⟩ := List.exists_mem_of_ne_nil _
      (h.dirs path (hwithin.mem_rglob hlisted) hdotted (hwithin.isReadable hread))
    obtain ⟨hnode, hname⟩ := FileTree.mem_children_iff.mp hchild
    exact List.ne_nil_of_mem (FileTree.mem_children_iff.mpr ⟨hback.isSome hnode, hname⟩)

/-- A run that removed nothing. -/
structure Untouched (run next : ScrubRun) : Prop where
  tree : next.tree = run.tree
  removedFiles : next.removedFiles = run.removedFiles
  removedDirs : next.removedDirs = run.removedDirs

theorem Untouched.foldl {α : Type} {round : ScrubRun → α → ScrubRun} {items : List α}
    (hround : ∀ item ∈ items, ∀ next, Untouched run next → Untouched run (round next item)) :
    ∀ next, Untouched run next → Untouched run (items.foldl round next) := by
  induction items with
  | nil => exact fun next h => h
  | cons item items ih =>
      intro next h
      exact ih (fun other hother => hround other (List.mem_cons_of_mem item hother)) _
        (hround item List.mem_cons_self next h)

theorem Untouched.report (h : Untouched run next) (error : ScrubError) :
    Untouched run (next.report error) := ⟨h.tree, h.removedFiles, h.removedDirs⟩

/-- Nothing is removed where nothing is left to remove. -/
theorem scrubRoot_of_clean (h : Clean root run.tree) (hnext : Untouched run next) :
    Untouched run (scrubRoot refusals next root) := by
  have hpaths : ∀ item ∈ scrubbedPaths run.tree root, ∀ next, Untouched run next →
      Untouched run (scrubPath refusals root next item) := by
    intro path hpath next hnext
    have hlisted := mem_scrubbedPaths_iff.mp hpath
    rw [← hnext.tree] at h hlisted
    obtain ⟨-, hsame⟩ | ⟨horphan, -⟩ := scrubPath_cases refusals fun _ => hlisted
    · rwa [hsame]
    · exact absurd horphan (h.files path hlisted)
  have hdirs : ∀ item ∈ prunedDirs run.tree root, ∀ next, Untouched run next →
      Untouched run (pruneDirectory refusals next item) := by
    intro path hpath next hnext
    obtain ⟨hlisted, -, hdotted⟩ := mem_prunedDirs_iff.mp hpath
    obtain ⟨-, hlisting⟩ | ⟨-, hsame⟩ | ⟨hread, hempty, -⟩ := pruneDirectory_cases refusals next path
    · rw [hlisting]
      exact hnext.report _
    · rwa [hsame]
    · rw [hnext.tree] at hread hempty
      exact absurd hempty (h.dirs path hlisted hdotted hread)
  have hscrubbed := Untouched.foldl hpaths next hnext
  by_cases hroot : run.tree.isDir root = true
  · rw [scrubRoot, hnext.tree, if_pos hroot, pruneEmptyDirectories, hscrubbed.tree, if_pos hroot]
    exact Untouched.foldl hdirs _ hscrubbed
  · rw [scrubRoot, hnext.tree, if_neg hroot]
    exact hnext

end Clean

/-! ## the scrub -/

/-- **The scrub is safe and complete**: where it looks, what it removes and what it leaves, and
that a second run finds nothing more. -/
theorem sidecar_scrub (templates : DvrTemplates) {scanRoots : List PosixPath}
    (hroots : DvrSidecarScanRoots templates scanRoots) (tree : Files) (refusals : Refusals) :
    ((∀ root ∈ scanRoots, root.anchor = .slash ∧ ['.', '.'] ∉ root.parts ∧
        ¬ root.parts <+: recordingsRoot.parts) ∧
      scanRoots.Pairwise Apart ∧
      ∀ template ∈ templates.toList, ∀ own, resolveScanRoot template = some own →
        ∃ root ∈ scanRoots, root.parts <+: own.parts) ∧
    let run := scrubOrphanedRecordingSidecars refusals scanRoots tree
    ScrubSteps (scanRoots.map (·.parts)) (.start tree) run ∧
    (∀ recording, tree.isFile recording = true → sidecarBaseName (fileName recording) = none →
      run.tree.isFile recording = true ∧
        ∀ sidecar, tree.isFile sidecar = true → Owns tree recording sidecar →
          run.tree.isFile sidecar = true) ∧
    (NoRemovalFails run →
      ∀ (scanRootsAgain : List PosixPath) (again : Files) (refusalsAgain : Refusals),
        DvrSidecarScanRoots templates scanRootsAgain →
        (∀ path, again.node? path = run.tree.node? path) →
          Untouched (.start again)
            (scrubOrphanedRecordingSidecars refusalsAgain scanRootsAgain again)) := by
  have hspec := scanRoots_spec hroots
  have hsteps : ScrubSteps (scanRoots.map (·.parts)) (.start tree)
      (scrubOrphanedRecordingSidecars refusals scanRoots tree) := steps_scrubRoots refusals _ _
  refine ⟨hspec, hsteps, fun recording hfile hname => ?_, ?_⟩
  · exact ⟨hsteps.isFile_recording hfile hname, fun sidecar hsidecar howns =>
      hsteps.isFile_sidecar hsidecar howns⟩
  · intro hfails scanRootsAgain again refusalsAgain hrootsAgain hsame
    have hapart : (scanRoots.map (·.parts)).Pairwise fun root other =>
        ∀ path, root <+: path → ¬ other <+: path := by
      rw [List.pairwise_map]
      refine hspec.2.1.imp ?_
      intro root other hapart path habove
      exact hapart.not_below habove
    have hclean := clean_scrubRoots hapart hfails
    refine Untouched.foldl (fun root hroot next hnext => ?_) _ ⟨rfl, rfl, rfl⟩
    obtain ⟨scanRoot, hscanRoot, rfl⟩ := List.mem_map.mp hroot
    have hbefore := (mem_scanRoots_iff hroots hrootsAgain).mp hscanRoot
    exact scrubRoot_of_clean ((hclean _ (List.mem_map_of_mem hbefore)).of_same hsame) hnext

/-- Two templates below `TV`, one in the recordings root itself, and one not set. -/
def exampleTemplates : DvrTemplates where
  tvTemplate := "TV/{show}/{episode}.ts".toList
  tvFallbackTemplate := "TV//Movies/../A/{title}.ts".toList
  movieTemplate := "{title}.ts".toList
  movieFallbackTemplate := []

/-- A path below `TV`. -/
def examplePath (names : List Text) : Path :=
  ["data".toList, "recordings".toList, "TV".toList] ++ names

/-- A recording with its sidecar in `A`, a sidecar alone in `B`, and a staging directory. -/
def exampleTree : Files where
  nodes := ⟨[⟨[], .directory true⟩,
    ⟨["data".toList], .directory true⟩,
    ⟨["data".toList, "recordings".toList], .directory true⟩,
    ⟨examplePath [], .directory true⟩,
    ⟨examplePath [['A']], .directory true⟩,
    ⟨examplePath [['A'], "1.ts".toList], .file⟩,
    ⟨examplePath [['A'], "1.edl".toList], .file⟩,
    ⟨examplePath [['B']], .directory true⟩,
    ⟨examplePath [['B'], "2.edl".toList], .file⟩,
    ⟨examplePath [".dvr_7_hls".toList], .directory true⟩], show (List.keys _).Nodup by decide⟩
  parented := FileTree.parented_of_keys (by decide)

/-- The first two templates lead to one directory and one below it. -/
def exampleScanRoots : List PosixPath := [.ofText "/data/recordings/TV".toList]

/-- A run over `exampleTree` that nothing is refused to. -/
def exampleRun : ScrubRun :=
  scrubOrphanedRecordingSidecars ⟨fun _ => false, fun _ => false⟩ exampleScanRoots exampleTree

/-- The sidecar alone goes, and with it its directory; nothing is left for a second run. -/
theorem sidecar_scrub_orphan :
    exampleRun.removedFiles = [examplePath [['B'], "2.edl".toList]] ∧
    exampleRun.removedDirs = [examplePath [['B']]] ∧
    exampleRun.tree.isFile (examplePath [['A'], "1.edl".toList]) = true ∧
    (scrubOrphanedRecordingSidecars ⟨fun _ => false, fun _ => false⟩ exampleScanRoots
      exampleRun.tree).removedFiles = [] := by
  have hroots : DvrSidecarScanRoots exampleTemplates exampleScanRoots := by
    have hinOrder := dvrSidecarScanRoots_inOrder exampleTemplates
    rwa [show dedupeScanRoots (exampleTemplates.toList.filterMap resolveScanRoot).dedup =
      exampleScanRoots by decide +kernel] at hinOrder
  obtain ⟨-, -, hkept, hsecond⟩ :=
    sidecar_scrub exampleTemplates hroots exampleTree ⟨fun _ => false, fun _ => false⟩
  have hrun : exampleRun.removedFiles = [examplePath [['B'], "2.edl".toList]] ∧
      exampleRun.removedDirs = [examplePath [['B']]] ∧ exampleRun.errors = [] := by
    decide +kernel
  have hfails : NoRemovalFails exampleRun := fun path hmem => by
    simp [hrun.2.2] at hmem
  have howns : Owns exampleTree (examplePath [['A'], "1.ts".toList])
      (examplePath [['A'], "1.edl".toList]) :=
    ⟨by decide, examplePath [['A']], "1.ts".toList, "1.edl".toList, by decide⟩
  refine ⟨hrun.1, hrun.2.1, ?_, ?_⟩
  · exact (hkept _ howns.1 (by decide)).2 _ (by decide) howns
  · exact (hsecond hfails exampleScanRoots exampleRun.tree _ hroots fun _ => rfl).removedFiles

end DispatcharrPvr.RecordingEdl
