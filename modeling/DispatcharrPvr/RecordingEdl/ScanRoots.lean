import DispatcharrPvr.Lib.Cut
import DispatcharrPvr.Lib.PosixPath
import Mathlib.Data.List.Dedup
import Mathlib.Data.List.Pairwise
import Mathlib.Data.List.Sort

/-!
# RecordingEdl.ScanRoots

The directories the sidecar scrub walks (`dispatcharr-plugin/recording_edl/plugin.py`):
`_resolve_scan_root` makes one directory of a DVR path template, and
`_dedupe_scan_roots` drops the directories that others cover.

A template is cut at its first placeholder and back to the last slash; what is
left is a text with whatever `..` and doubled slashes its author wrote. That the
rewritten text is the directory those components lead to, walked from the root
(`resolveScanRoot_eq_some_iff`), is what makes the check against the recordings
root mean something.
-/

namespace DispatcharrPvr.RecordingEdl

open Cut PosixPath

/-- A text of the plugin. -/
abbrev Text := List Char

/-! ## `_resolve_scan_root` -/

/-- `_RECORDINGS_ROOT`. -/
def recordingsRoot : PosixPath := .ofText "/data/recordings".toList

/-- A template under the recordings root, unless it is absolute. -/
def resolveTemplate (template : Text) : Text :=
  if template.head? = some '/' then template else recordingsRoot.text ++ '/' :: template

/-- The text of the candidate: up to the first placeholder, back to the last slash. -/
def candidateText (template : Text) : Option Text :=
  let beforePlaceholder := (resolveTemplate template).takeWhile (· ≠ '{')
  match cutLast '/' beforePlaceholder with
  | none => none
  | some (directory, _) => if directory = [] then none else some directory

/-- `_resolve_scan_root`. -/
def resolveScanRoot (template : Text) : Option PosixPath :=
  if template = [] then none
  else
    match candidateText template with
    | none => none
    | some directory =>
        let candidate := ofText directory
        let normalized := ofText (normpath (collapseSlashes candidate.text))
        if normalized = recordingsRoot ∨ normalized ∈ recordingsRoot.parents then none
        else some normalized

/-- A candidate is an absolute path. -/
theorem candidateText_absolute {template directory : Text}
    (h : candidateText template = some directory) : directory.head? = some '/' := by
  have hresolved : (resolveTemplate template).head? = some '/' := by
    rw [resolveTemplate]
    split
    · assumption
    · rfl
  obtain ⟨rest, hrest⟩ := List.head?_eq_some_iff.mp hresolved
  simp only [candidateText, hrest] at h
  split at h
  · contradiction
  · next before after hcut =>
      split at h
      · contradiction
      · next hne =>
          rw [Option.some.injEq] at h
          subst h
          have hslash : ('/' :: rest).takeWhile (· ≠ '{') = '/' :: rest.takeWhile (· ≠ '{') := by
            simp
          rw [hslash, cutLast_eq_some_iff] at hcut
          obtain ⟨c, before, rfl⟩ := List.exists_cons_of_ne_nil hne
          rw [List.cons_append, List.cons.injEq] at hcut
          rw [← hcut.1.1, List.head?_cons]

/-- A scan root is where the components of the candidate lead, and it is neither the
recordings root nor above it. -/
theorem resolveScanRoot_eq_some_iff {template : Text} {root : PosixPath} :
    resolveScanRoot template = some root ↔
      template ≠ [] ∧ ∃ directory, candidateText template = some directory ∧
        root = (ofText directory).resolved ∧ ¬ root.parts <+: recordingsRoot.parts := by
  rw [resolveScanRoot]
  by_cases hempty : template = []
  · simp [hempty]
  · rw [if_neg hempty]
    cases hcandidate : candidateText template with
    | none => simp
    | some directory =>
        have hnormal : ofText (normpath (collapseSlashes (ofText directory).text)) =
            (ofText directory).resolved :=
          ofText_normpath (anchor_ne_relative (candidateText_absolute hcandidate))
        have hrefused : ((ofText directory).resolved = recordingsRoot ∨
            (ofText directory).resolved ∈ recordingsRoot.parents) ↔
              (ofText directory).resolved.parts <+: recordingsRoot.parts := by
          rw [eq_comm, eq_or_mem_parents_iff (by rfl)]
        simp only [hnormal, hrefused]
        split
        · next habove =>
            simp only [Option.some.injEq, exists_eq_left', reduceCtorEq, false_iff]
            rintro ⟨-, rfl, hnot⟩
            contradiction
        · next habove =>
            simp only [Option.some.injEq, exists_eq_left', hempty, not_false_eq_true, ne_eq,
              true_and]
            constructor
            · rintro rfl
              exact ⟨rfl, habove⟩
            · rintro ⟨rfl, -⟩
              rfl

/-- A scan root starts at `/`, and no `..` is left in it. -/
theorem resolveScanRoot_normal {template : Text} {root : PosixPath}
    (h : resolveScanRoot template = some root) :
    root.anchor = .slash ∧ ['.', '.'] ∉ root.parts := by
  obtain ⟨-, directory, -, rfl, -⟩ := resolveScanRoot_eq_some_iff.mp h
  exact ⟨rfl, fun hmem => (mem_resolve hmem).2 rfl⟩

/-! ## `_dedupe_scan_roots` -/

/-- One root of the loop. -/
def keepRoot (deduped : List PosixPath) (root : PosixPath) : List PosixPath :=
  if ∃ kept ∈ deduped, root = kept ∨ kept ∈ root.parents then deduped else deduped ++ [root]

/-- `_dedupe_scan_roots`. -/
def dedupeScanRoots (roots : List PosixPath) : List PosixPath :=
  (roots.insertionSort fun root other => root.partCount ≤ other.partCount).foldl keepRoot []

/-- Neither of two paths is the other or above it. -/
def Apart (root other : PosixPath) : Prop :=
  ¬ root.parts <+: other.parts ∧ ¬ other.parts <+: root.parts

/-- Nothing is below two paths that are apart. -/
theorem Apart.not_below {root other : PosixPath} {path : List Text} (h : Apart root other)
    (hroot : root.parts <+: path) : ¬ other.parts <+: path := by
  intro hother
  cases List.prefix_or_prefix_of_prefix hroot hother with
  | inl habove => exact h.1 habove
  | inr habove => exact h.2 habove

instance : Std.Symm Apart := ⟨fun _ _ h => ⟨h.2, h.1⟩⟩

/-- What the loop has of the roots it has `seen`. -/
structure Deduped (seen deduped : List PosixPath) : Prop where
  mem : ∀ root ∈ deduped, root ∈ seen
  covers : ∀ root ∈ seen, ∃ kept ∈ deduped, kept.parts <+: root.parts
  apart : deduped.Pairwise Apart

section Dedupe

variable {seen deduped roots : List PosixPath} {root : PosixPath}

/-- The longest root so far is dropped when a kept one covers it, and covers none when it is kept. -/
theorem Deduped.next (h : Deduped seen deduped) (hanchor : root.anchor = .slash)
    (hseen : ∀ other ∈ seen, other.anchor = .slash ∧ other.partCount ≤ root.partCount) :
    Deduped (seen ++ [root]) (keepRoot deduped root) := by
  have hcovered : ∀ kept ∈ deduped,
      (root = kept ∨ kept ∈ root.parents ↔ kept.parts <+: root.parts) := fun kept hkept =>
    eq_or_mem_parents_iff ((hseen kept (h.mem kept hkept)).1.trans hanchor.symm)
  rw [keepRoot]
  split
  · next hcover =>
      obtain ⟨kept, hkept, habove⟩ := hcover
      refine ⟨fun other hother => List.mem_append_left _ (h.mem other hother), ?_, h.apart⟩
      intro other hother
      rw [List.mem_append, List.mem_singleton] at hother
      cases hother with
      | inl hbefore => exact h.covers other hbefore
      | inr heq => exact ⟨kept, hkept, heq ▸ (hcovered kept hkept).mp habove⟩
  · next hcover =>
      have hnot : ∀ kept ∈ deduped, ¬ kept.parts <+: root.parts := fun kept hkept habove =>
        hcover ⟨kept, hkept, (hcovered kept hkept).mpr habove⟩
      have hnone : ∀ kept ∈ deduped, ¬ root.parts <+: kept.parts := by
        intro kept hkept habove
        -- a root that comes first and is no shorter is the same
        obtain ⟨hslash, hcount⟩ := hseen kept (h.mem kept hkept)
        have hlength : kept.parts.length ≤ root.parts.length := by
          simpa [partCount, hslash, hanchor] using hcount
        have heq := habove.eq_of_length (Nat.le_antisymm habove.length_le hlength)
        exact hnot kept hkept (heq ▸ List.prefix_rfl)
      refine ⟨?_, ?_, ?_⟩
      · intro other hother
        rw [List.mem_append] at hother ⊢
        exact hother.imp_left (h.mem other)
      · intro other hother
        rw [List.mem_append, List.mem_singleton] at hother
        cases hother with
        | inl hbefore =>
            obtain ⟨kept, hkept, habove⟩ := h.covers other hbefore
            exact ⟨kept, List.mem_append_left _ hkept, habove⟩
        | inr heq => exact ⟨root, List.mem_append_right _ List.mem_cons_self, heq ▸ List.prefix_rfl⟩
      · rw [List.pairwise_append]
        refine ⟨h.apart, List.pairwise_singleton _ root, ?_⟩
        intro kept hkept other hother
        rw [List.mem_singleton] at hother
        exact hother ▸ ⟨hnot kept hkept, hnone kept hkept⟩

theorem Deduped.foldl {rest : List PosixPath} (h : Deduped seen deduped)
    (hanchor : ∀ root ∈ seen ++ rest, root.anchor = .slash)
    (hsorted : (seen ++ rest).Pairwise fun root other => root.partCount ≤ other.partCount) :
    Deduped (seen ++ rest) (rest.foldl keepRoot deduped) := by
  induction rest generalizing seen deduped with
  | nil => simpa using h
  | cons root rest ih =>
      have hsplit : seen ++ root :: rest = (seen ++ [root]) ++ rest := by simp
      have hnext : Deduped (seen ++ [root]) (keepRoot deduped root) := by
        refine h.next (hanchor root (by simp)) fun other hother => ?_
        exact ⟨hanchor other (List.mem_append_left _ hother),
          (List.pairwise_append.mp hsorted).2.2 other hother root List.mem_cons_self⟩
      rw [hsplit] at hanchor hsorted ⊢
      exact ih hnext hanchor hsorted

/-- The kept roots are some of the roots, cover all of them, and none covers another. -/
theorem deduped_dedupeScanRoots (hanchor : ∀ root ∈ roots, root.anchor = .slash) :
    Deduped roots (dedupeScanRoots roots) := by
  let sorted := roots.insertionSort fun root other => root.partCount ≤ other.partCount
  have hmem : ∀ root, root ∈ sorted ↔ root ∈ roots := fun root => List.mem_insertionSort _
  have hstart : Deduped [] [] := ⟨by simp, by simp, .nil⟩
  have hloop : Deduped sorted (sorted.foldl keepRoot []) :=
    hstart.foldl (fun root hroot => hanchor root ((hmem root).mp hroot))
      (List.pairwise_insertionSort _ roots)
  exact ⟨fun root hroot => (hmem root).mp (hloop.mem root hroot),
    fun root hroot => hloop.covers root ((hmem root).mpr hroot), hloop.apart⟩

/-- A root is kept when no other is above it: the order the roots come in does not matter. -/
theorem mem_dedupeScanRoots_iff (hanchor : ∀ root ∈ roots, root.anchor = .slash) :
    root ∈ dedupeScanRoots roots ↔
      root ∈ roots ∧ ∀ other ∈ roots, other.parts <+: root.parts → other = root := by
  have hdeduped := deduped_dedupeScanRoots hanchor
  constructor
  · intro hroot
    refine ⟨hdeduped.mem root hroot, fun other hother habove => ?_⟩
    obtain ⟨kept, hkept, hcover⟩ := hdeduped.covers other hother
    have heq : root = kept := by
      by_contra hne
      exact (hdeduped.apart.forall hroot hkept hne).2 (hcover.trans habove)
    have hparts : other.parts = root.parts :=
      habove.eq_of_length (Nat.le_antisymm habove.length_le (heq ▸ hcover).length_le)
    exact PosixPath.ext ((hanchor other hother).trans (hanchor root (hdeduped.mem root hroot)).symm)
      hparts
  · rintro ⟨hroot, hleast⟩
    obtain ⟨kept, hkept, habove⟩ := hdeduped.covers root hroot
    exact hleast kept (hdeduped.mem kept hkept) habove ▸ hkept

end Dedupe

/-! ## `_dvr_sidecar_scan_roots` -/

/-- The path templates of the DVR settings. -/
structure DvrTemplates where
  tvTemplate : Text
  tvFallbackTemplate : Text
  movieTemplate : Text
  movieFallbackTemplate : Text

/-- The four templates, in the order they are read. -/
def DvrTemplates.toList (templates : DvrTemplates) : List Text :=
  [templates.tvTemplate, templates.tvFallbackTemplate, templates.movieTemplate,
    templates.movieFallbackTemplate]

/-- `_dvr_sidecar_scan_roots`: the roots are a set, which comes in any order. -/
def DvrSidecarScanRoots (templates : DvrTemplates) (scanRoots : List PosixPath) : Prop :=
  ∃ roots, roots.Nodup ∧
    (∀ root, root ∈ roots ↔ ∃ template ∈ templates.toList, resolveScanRoot template = some root) ∧
    scanRoots = dedupeScanRoots roots

section ScanRoots

variable {templates : DvrTemplates} {scanRoots : List PosixPath}

/-- The order in which the templates are read is one. -/
theorem dvrSidecarScanRoots_inOrder (templates : DvrTemplates) :
    DvrSidecarScanRoots templates
      (dedupeScanRoots (templates.toList.filterMap resolveScanRoot).dedup) :=
  ⟨_, List.nodup_dedup _, fun root => by rw [List.mem_dedup, List.mem_filterMap], rfl⟩

/-- What is scanned: never the recordings root or a directory above it, no directory below
another, and every template's own root, itself or below one of them. -/
theorem scanRoots_spec (h : DvrSidecarScanRoots templates scanRoots) :
    (∀ root ∈ scanRoots, root.anchor = .slash ∧ ['.', '.'] ∉ root.parts ∧
      ¬ root.parts <+: recordingsRoot.parts) ∧
    scanRoots.Pairwise Apart ∧
    ∀ template ∈ templates.toList, ∀ own, resolveScanRoot template = some own →
      ∃ root ∈ scanRoots, root.parts <+: own.parts := by
  obtain ⟨roots, -, hroots, rfl⟩ := h
  have hdeduped : Deduped roots (dedupeScanRoots roots) := by
    refine deduped_dedupeScanRoots fun root hroot => ?_
    obtain ⟨template, -, hresolve⟩ := (hroots root).mp hroot
    exact (resolveScanRoot_normal hresolve).1
  refine ⟨fun root hroot => ?_, hdeduped.apart, fun template htemplate own hresolve => ?_⟩
  · obtain ⟨template, -, hresolve⟩ := (hroots root).mp (hdeduped.mem root hroot)
    obtain ⟨hanchor, hdots⟩ := resolveScanRoot_normal hresolve
    obtain ⟨-, directory, -, -, hnot⟩ := resolveScanRoot_eq_some_iff.mp hresolve
    exact ⟨hanchor, hdots, hnot⟩
  · exact hdeduped.covers own ((hroots own).mpr ⟨template, htemplate, hresolve⟩)

/-- Two runs scan the same directories. -/
theorem mem_scanRoots_iff {again : List PosixPath} (h : DvrSidecarScanRoots templates scanRoots)
    (hagain : DvrSidecarScanRoots templates again) {root : PosixPath} :
    root ∈ again ↔ root ∈ scanRoots := by
  obtain ⟨roots, -, hroots, rfl⟩ := h
  obtain ⟨rootsAgain, -, hrootsAgain, rfl⟩ := hagain
  have hmem : ∀ root, root ∈ rootsAgain ↔ root ∈ roots := fun root =>
    (hrootsAgain root).trans (hroots root).symm
  have hanchor : ∀ root ∈ roots, root.anchor = .slash := fun root hroot => by
    obtain ⟨template, -, hresolve⟩ := (hroots root).mp hroot
    exact (resolveScanRoot_normal hresolve).1
  rw [mem_dedupeScanRoots_iff fun root hroot => hanchor root ((hmem root).mp hroot),
    mem_dedupeScanRoots_iff hanchor]
  simp only [hmem]

end ScanRoots

end DispatcharrPvr.RecordingEdl
