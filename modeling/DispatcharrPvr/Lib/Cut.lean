/-!
# Lib.Cut

Cutting a list where something is found in it, the way `find` and `rfind` of a
string class do.

* `cutFirst` — what stands before and after the first occurrence of a pattern;
* `cutLast` — what stands before and after the last occurrence of an element;
* `span_append` — a run of elements that end where the next one does not
  belong to it.

Each is given by what it finds (`cutFirst_eq_some_iff`, `cutLast_eq_some_iff`),
so that a parser built from them can be read off the concatenation it accepts.
This module depends only on the Lean 4 core library.
-/

namespace Cut

universe u

variable {α : Type u}

section Find

variable [DecidableEq α]

/-! ## the first occurrence of a pattern -/

/-- What stands before the first occurrence of `pattern`, and after it. -/
def cutFirst (pattern : List α) : List α → Option (List α × List α)
  | [] => if pattern = [] then some ([], []) else none
  | a :: s =>
      if pattern <+: a :: s then some ([], (a :: s).drop pattern.length)
      else (cutFirst pattern s).map fun cut => (a :: cut.1, cut.2)

theorem cutFirst_eq_some {pattern s before after : List α}
    (h : cutFirst pattern s = some (before, after)) : s = before ++ pattern ++ after := by
  induction s generalizing before with
  | nil =>
      simp only [cutFirst] at h
      split at h
      · next hpattern =>
          simp only [Option.some.injEq, Prod.mk.injEq] at h
          simp [hpattern, ← h.1, ← h.2]
      · contradiction
  | cons a s ih =>
      simp only [cutFirst] at h
      split at h
      · next hprefix =>
          obtain ⟨rest, hrest⟩ := hprefix
          simp only [Option.some.injEq, Prod.mk.injEq] at h
          rw [← h.1, ← h.2, ← hrest]
          simp
      · obtain ⟨cut, hcut, heq⟩ := Option.map_eq_some_iff.mp h
        obtain ⟨rfl, rfl⟩ := Prod.mk.inj heq
        rw [ih hcut]
        simp

/-- A pattern is found behind elements that are not its first. -/
theorem cutFirst_append {a : α} {pattern before after : List α} (h : a ∉ before) :
    cutFirst (a :: pattern) (before ++ a :: pattern ++ after) = some (before, after) := by
  induction before with
  | nil => simp [cutFirst]
  | cons b before ih =>
      have hne : a ≠ b := fun hab => h (hab ▸ List.mem_cons_self)
      have hnot : ¬ a :: pattern <+: b :: (before ++ a :: pattern ++ after) := by
        rw [List.cons_prefix_cons]
        exact fun hprefix => hne hprefix.1
      have hrest := ih fun hmem => h (List.mem_cons_of_mem b hmem)
      rw [List.append_assoc, List.cons_append, ← List.append_assoc, cutFirst, if_neg hnot, hrest]
      rfl

/-- The first occurrence of a single element. -/
theorem cutFirst_singleton_eq_some_iff {a : α} {s before after : List α} :
    cutFirst [a] s = some (before, after) ↔ s = before ++ a :: after ∧ a ∉ before := by
  constructor
  · intro h
    refine ⟨by simpa using cutFirst_eq_some h, fun hmem => ?_⟩
    induction s generalizing before with
    | nil => simp [cutFirst] at h
    | cons b s ih =>
        simp only [cutFirst] at h
        split at h
        · simp only [Option.some.injEq, Prod.mk.injEq] at h
          rw [← h.1] at hmem
          contradiction
        · next hprefix =>
            obtain ⟨cut, hcut, heq⟩ := Option.map_eq_some_iff.mp h
            obtain ⟨rfl, rfl⟩ := Prod.mk.inj heq
            have hne : a ≠ b := by
              rintro rfl
              exact hprefix ⟨s, rfl⟩
            exact ih hcut ((List.mem_cons.mp hmem).resolve_left hne)
  · rintro ⟨rfl, hnot⟩
    have hfound : cutFirst [a] (before ++ [a] ++ after) = some (before, after) :=
      cutFirst_append hnot
    simpa using hfound

theorem cutFirst_singleton_eq_none_iff {a : α} {s : List α} : cutFirst [a] s = none ↔ a ∉ s := by
  induction s with
  | nil => simp [cutFirst]
  | cons b s ih =>
      by_cases hab : a = b
      · simp [cutFirst, hab]
      · simp [cutFirst, List.cons_prefix_cons, hab, ih]

/-! ## the last occurrence of an element -/

/-- What stands before the last `a`, and after it. -/
def cutLast (a : α) : List α → Option (List α × List α)
  | [] => none
  | b :: s =>
      match cutLast a s with
      | some (before, after) => some (b :: before, after)
      | none => if b = a then some ([], s) else none

theorem cutLast_eq_none_iff {a : α} {s : List α} : cutLast a s = none ↔ a ∉ s := by
  induction s with
  | nil => simp [cutLast]
  | cons b s ih =>
      rw [cutLast, List.mem_cons, not_or, ← ih]
      cases hrest : cutLast a s with
      | none =>
          by_cases hab : b = a
          · simp [hab]
          · simp [hab, Ne.symm hab]
      | some cut => simp

theorem cutLast_eq_some_iff {a : α} {s before after : List α} :
    cutLast a s = some (before, after) ↔ s = before ++ a :: after ∧ a ∉ after := by
  induction s generalizing before with
  | nil => simp [cutLast]
  | cons b s ih =>
      rw [cutLast]
      cases hrest : cutLast a s with
      | none =>
          have hnot := cutLast_eq_none_iff.mp hrest
          constructor
          · intro h
            by_cases hab : b = a
            · simp only [hab, if_true, Option.some.injEq, Prod.mk.injEq] at h
              obtain ⟨rfl, rfl⟩ := h
              exact ⟨by simp [hab], hnot⟩
            · simp [hab] at h
          · rintro ⟨hs, hafter⟩
            cases before with
            | nil =>
                obtain ⟨rfl, rfl⟩ := List.cons.inj hs
                simp
            | cons c before =>
                obtain ⟨-, rfl⟩ := List.cons.inj hs
                simp at hnot
      | some cut =>
          obtain ⟨cutBefore, cutAfter⟩ := cut
          constructor
          · intro h
            simp only [Option.some.injEq, Prod.mk.injEq] at h
            obtain ⟨rfl, rfl⟩ := h
            obtain ⟨rfl, hafter⟩ := ih.mp hrest
            exact ⟨rfl, hafter⟩
          · rintro ⟨hs, hafter⟩
            cases before with
            | nil =>
                obtain ⟨rfl, rfl⟩ := List.cons.inj hs
                exact absurd (cutLast_eq_none_iff.mpr hafter) (by simp [hrest])
            | cons c before =>
                obtain ⟨rfl, rfl⟩ := List.cons.inj hs
                have hsame := hrest.symm.trans (ih.mpr ⟨rfl, hafter⟩)
                simp only [Option.some.injEq, Prod.mk.injEq] at hsame
                simp [hsame.1, hsame.2]

end Find

/-! ## a run of elements -/

/-- A run ends where the list does, or at an element that does not belong to it. -/
theorem span_append {p : α → Bool} {run rest : List α} (hrun : ∀ a ∈ run, p a = true)
    (hrest : ∀ a ∈ rest.head?, p a = false) :
    (run ++ rest).takeWhile p = run ∧ (run ++ rest).dropWhile p = rest := by
  rw [List.takeWhile_append_of_pos hrun, List.dropWhile_append_of_pos hrun]
  cases rest with
  | nil => simp
  | cons a rest =>
      have hstop := hrest a rfl
      simp [hstop]

/-- What follows the run of a list is empty or starts with an element that does
not belong to it. -/
theorem head?_dropWhile {p : α → Bool} {s : List α} : ∀ a ∈ (s.dropWhile p).head?, p a = false := by
  intro a ha
  have hhead := List.head?_dropWhile_not p s
  rw [Option.mem_def.mp ha] at hhead
  simpa using hhead

end Cut
