/-!
# Lib.Layout

Items laid end to end: each has a start and a positive size, the first starts
at `lo`, each next one where the one before it ends, and the last ends at `hi`.

* `laidOut_append`, `LaidOut.concat`, `LaidOut.drop`, `LaidOut.shift` — what
  keeps the layout;
* `LaidOut.find?_contains` — inside `[lo, hi)` a position is found in the one
  item that contains it, outside in none;
* `rel_of_find?` — the first item with a property precedes the others with it.

This module depends only on the Lean 4 core library.
-/

namespace Layout

universe u v

variable {α : Type u} {β : Type v}

/-- The items `as` fill `[lo, hi)` in order. -/
def LaidOut (start size : α → Int) : Int → List α → Int → Prop
  | lo, [], hi => lo = hi
  | lo, a :: as, hi => start a = lo ∧ 0 < size a ∧ LaidOut start size (lo + size a) as hi

/-- The position is inside the item. -/
def contains (start size : α → Int) (pos : Int) (a : α) : Bool :=
  decide (start a ≤ pos) && decide (pos < start a + size a)

variable {start size : α → Int} {lo hi : Int} {as bs : List α}

theorem contains_iff {pos : Int} {a : α} :
    contains start size pos a = true ↔ start a ≤ pos ∧ pos < start a + size a := by
  simp [contains]

theorem LaidOut.le (h : LaidOut start size lo as hi) : lo ≤ hi := by
  induction as generalizing lo with
  | nil => exact Int.le_of_eq h
  | cons a as ih =>
      have hrest := ih h.2.2
      have hpos := h.2.1
      omega

/-! ## what keeps the layout -/

theorem laidOut_append :
    LaidOut start size lo (as ++ bs) hi ↔
      ∃ mid, LaidOut start size lo as mid ∧ LaidOut start size mid bs hi := by
  induction as generalizing lo with
  | nil => simp [LaidOut]
  | cons a as ih =>
      simp only [List.cons_append, LaidOut, ih]
      constructor
      · rintro ⟨hstart, hsize, mid, has, hbs⟩
        exact ⟨mid, ⟨hstart, hsize, has⟩, hbs⟩
      · rintro ⟨mid, ⟨hstart, hsize, has⟩, hbs⟩
        exact ⟨hstart, hsize, mid, has, hbs⟩

/-- An item is appended where the last one ends. -/
theorem LaidOut.concat (h : LaidOut start size lo as hi) {a : α} (hstart : start a = hi)
    (hsize : 0 < size a) : LaidOut start size lo (as ++ [a]) (hi + size a) := by
  rw [laidOut_append]
  exact ⟨hi, h, hstart, hsize, rfl⟩

/-- Items are dropped from the front; the rest stay where they are. -/
theorem LaidOut.drop (h : LaidOut start size lo as hi) (n : Nat) :
    ∃ lo', lo ≤ lo' ∧ LaidOut start size lo' (as.drop n) hi := by
  rw [← List.take_append_drop n as, laidOut_append] at h
  obtain ⟨mid, htake, hdrop⟩ := h
  exact ⟨mid, htake.le, hdrop⟩

/-- All items are moved together. -/
theorem LaidOut.shift {start' size' : β → Int} {f : α → β} {d : Int}
    (h : LaidOut start size lo as hi) (hstart : ∀ a, start' (f a) = start a - d)
    (hsize : ∀ a, size' (f a) = size a) :
    LaidOut start' size' (lo - d) (as.map f) (hi - d) := by
  induction as generalizing lo with
  | nil =>
      have heq : lo = hi := h
      rw [heq]
      exact rfl
  | cons a as ih =>
      obtain ⟨ha, hpos, hrest⟩ := h
      have hlo : lo - d + size a = lo + size a - d := by omega
      refine ⟨by rw [hstart, ha], by rw [hsize]; exact hpos, ?_⟩
      rw [hsize, hlo]
      exact ih hrest

/-! ## where the items are -/

theorem LaidOut.start_eq {a : α} (h : LaidOut start size lo (a :: as) hi) : start a = lo := h.1

/-- Every item is inside, with a positive size. -/
theorem LaidOut.mem (h : LaidOut start size lo as hi) {a : α} (ha : a ∈ as) :
    lo ≤ start a ∧ 0 < size a ∧ start a + size a ≤ hi := by
  induction as generalizing lo with
  | nil => exact absurd ha List.not_mem_nil
  | cons b as ih =>
      obtain ⟨hstart, hsize, hrest⟩ := h
      have hle := hrest.le
      rcases List.mem_cons.mp ha with rfl | hmem
      · exact ⟨by omega, hsize, by omega⟩
      · have := ih hrest hmem
        omega

/-- An earlier item ends before a later one starts. -/
theorem LaidOut.pairwise (h : LaidOut start size lo as hi) :
    as.Pairwise fun a b => start a + size a ≤ start b := by
  induction as generalizing lo with
  | nil => exact List.Pairwise.nil
  | cons a as ih =>
      obtain ⟨hstart, -, hrest⟩ := h
      refine List.Pairwise.cons (fun b hb => ?_) (ih hrest)
      have := (hrest.mem hb).1
      omega

theorem LaidOut.pairwise_start (h : LaidOut start size lo as hi) :
    as.Pairwise fun a b => start a ≤ start b := by
  refine h.pairwise.imp_of_mem fun ha _ hle => ?_
  have := (h.mem ha).2.1
  omega

/-- The last item ends at `hi`. -/
theorem LaidOut.getLast (h : LaidOut start size lo as hi) {a : α} (ha : as.getLast? = some a) :
    start a + size a = hi := by
  obtain ⟨init, rfl⟩ := List.getLast?_eq_some_iff.mp ha
  obtain ⟨mid, -, hstart, -, hend⟩ := laidOut_append.mp h
  have hend : mid + size a = hi := hend
  omega

/-- Each item starts where the one before it ends. -/
theorem LaidOut.next (h : LaidOut start size lo as hi) {i : Nat} {a b : α} (ha : as[i]? = some a)
    (hb : as[i + 1]? = some b) : start b = start a + size a := by
  induction as generalizing lo i with
  | nil => simp at ha
  | cons c as ih =>
      obtain ⟨hstart, -, hrest⟩ := h
      cases i with
      | zero =>
          obtain rfl : c = a := by simpa using ha
          cases as with
          | nil => simp at hb
          | cons d as =>
              obtain rfl : d = b := by simpa using hb
              rw [hrest.start_eq, hstart]
      | succ i => exact ih hrest (by simpa using ha) (by simpa using hb)

/-! ## finding the item at a position -/

theorem LaidOut.exists_contains (h : LaidOut start size lo as hi) {pos : Int} (hlo : lo ≤ pos)
    (hhi : pos < hi) : ∃ a ∈ as, contains start size pos a = true := by
  induction as generalizing lo with
  | nil =>
      have heq : lo = hi := h
      omega
  | cons a as ih =>
      obtain ⟨hstart, -, hrest⟩ := h
      by_cases hin : pos < lo + size a
      · refine ⟨a, List.mem_cons_self .., contains_iff.mpr ?_⟩
        omega
      · obtain ⟨b, hb, hcontains⟩ := ih hrest (by omega)
        exact ⟨b, List.mem_cons_of_mem _ hb, hcontains⟩

/-- No two items contain one position. -/
theorem LaidOut.eq_of_contains (h : LaidOut start size lo as hi) {pos : Int} {a b : α} (ha : a ∈ as)
    (hb : b ∈ as) (hposa : contains start size pos a = true)
    (hposb : contains start size pos b = true) : a = b := by
  rw [contains_iff] at hposa hposb
  induction as generalizing lo with
  | nil => exact absurd ha List.not_mem_nil
  | cons c as ih =>
      have hfirst := (List.pairwise_cons.mp h.pairwise).1
      rcases List.mem_cons.mp ha with hac | hrestA
      · rcases List.mem_cons.mp hb with hbc | hrestB
        · rw [hac, hbc]
        · have := hfirst b hrestB
          rw [← hac] at this
          omega
      · rcases List.mem_cons.mp hb with hbc | hrestB
        · have := hfirst a hrestA
          rw [← hbc] at this
          omega
        · exact ih h.2.2 hrestA hrestB

/-- **Finding a position**: the item that contains it inside, nothing
outside. -/
theorem LaidOut.find?_contains (h : LaidOut start size lo as hi) (pos : Int) :
    (lo ≤ pos ∧ pos < hi → ∃ a ∈ as, as.find? (contains start size pos) = some a ∧
      contains start size pos a = true ∧ ∀ b ∈ as, contains start size pos b = true → b = a) ∧
    (¬ (lo ≤ pos ∧ pos < hi) → as.find? (contains start size pos) = none) := by
  constructor
  · intro hin
    obtain ⟨a, ha, hcontains⟩ := h.exists_contains hin.1 hin.2
    cases hfind : as.find? (contains start size pos) with
    | none => exact absurd hcontains (List.find?_eq_none.mp hfind a ha)
    | some b =>
        have hb := List.mem_of_find?_eq_some hfind
        have hposb := List.find?_some hfind
        exact ⟨b, hb, rfl, hposb, fun c hc hposc => h.eq_of_contains hc hb hposc hposb⟩
  · intro hout
    rw [List.find?_eq_none]
    intro a ha hcontains
    have hmem := h.mem ha
    rw [contains_iff] at hcontains
    omega

/-- The first item with a property comes before every other one with it. -/
theorem rel_of_find? {r : α → α → Prop} {p : α → Bool} {a b : α} (h : as.Pairwise r)
    (hfind : as.find? p = some a) (hb : b ∈ as) (hp : p b = true) : a = b ∨ r a b := by
  obtain ⟨-, front, back, rfl, hfront⟩ := List.find?_eq_some_iff_append.mp hfind
  rcases List.mem_append.mp hb with hb | hb
  · have hnot := hfront b hb
    rw [hp] at hnot
    contradiction
  · rcases List.mem_cons.mp hb with hb | hb
    · exact .inl hb.symm
    · exact .inr ((List.pairwise_cons.mp (List.pairwise_append.mp h).2.1).1 b hb)

end Layout
