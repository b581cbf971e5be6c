import Mathlib.Data.List.MinMax

/-!
# Lib.FirstMax

The best-so-far scan: of the items of a list that qualify, the first of
greatest key, with its position.  It is `List.argmax` over the items and their
positions, one item at a time (`firstMax_concat`), and it is said without the
scan in `IsFirstMax`.
-/

namespace FirstMax

variable {α β : Type*} [LinearOrder β]

/-- The first qualifying item of greatest key, and its position. -/
def firstMax (p : α → Bool) (key : α → β) (items : List α) : Option (α × Nat) :=
  (items.zipIdx.filter fun item => p item.1).argmax fun item => key item.1

/-- `a` at position `i` qualifies, no item that does has a greater key, and
those before it have a smaller one. -/
structure IsFirstMax (p : α → Bool) (key : α → β) (items : List α) (a : α) (i : Nat) : Prop where
  at_index : items[i]? = some a
  qualifies : p a = true
  greatest : ∀ b ∈ items, p b = true → key b ≤ key a
  first : ∀ j b, j < i → items[j]? = some b → p b = true → key b < key a

variable {p : α → Bool} {key : α → β} {items : List α}

@[simp] theorem firstMax_nil : firstMax p key ([] : List α) = none := rfl

/-- One more item. -/
theorem firstMax_concat (a : α) :
    firstMax p key (items ++ [a]) =
      if p a then
        match firstMax p key items with
        | none => some (a, items.length)
        | some best => if key best.1 < key a then some (a, items.length) else some best
      else firstMax p key items := by
  unfold firstMax
  rw [List.zipIdx_append, List.filter_append, Nat.zero_add]
  by_cases ha : p a = true
  · rw [List.zipIdx_singleton, List.filter_cons_of_pos (by simpa using ha), List.filter_nil,
      List.argmax_concat, if_pos ha]
    cases (items.zipIdx.filter fun item => p item.1).argmax fun item => key item.1 <;> rfl
  · rw [List.zipIdx_singleton, List.filter_cons_of_neg (by simpa using ha), List.filter_nil,
      List.append_nil, if_neg ha]

theorem firstMax_eq_none_iff : firstMax p key items = none ↔ ∀ a ∈ items, p a = false := by
  unfold firstMax
  rw [List.argmax_eq_none, List.filter_eq_nil_iff]
  constructor
  · intro h a ha
    obtain ⟨i, hi⟩ := List.getElem?_of_mem ha
    simpa using h (a, i) (List.mk_mem_zipIdx_iff_getElem?.mpr hi)
  · intro h item hitem
    simpa using h item.1 (List.fst_mem_of_mem_zipIdx hitem)

/-- A qualifying item is at most the best so far, or the new best. -/
theorem IsFirstMax.concat {a : α} {i : Nat} (h : IsFirstMax p key items a i) (b : α)
    (hb : p b = true → key b ≤ key a) : IsFirstMax p key (items ++ [b]) a i := by
  have hlt : i < items.length := (List.getElem?_eq_some_iff.mp h.at_index).1
  constructor
  · rw [List.getElem?_append_left hlt, h.at_index]
  · exact h.qualifies
  · intro c hc hpc
    rw [List.mem_append, List.mem_singleton] at hc
    obtain hc | rfl := hc
    · exact h.greatest c hc hpc
    · exact hb hpc
  · intro j c hj hat hpc
    rw [List.getElem?_append_left (by omega)] at hat
    exact h.first j c hj hat hpc

theorem isFirstMax_concat_self {b : α} (hb : p b = true)
    (hless : ∀ c ∈ items, p c = true → key c < key b) :
    IsFirstMax p key (items ++ [b]) b items.length := by
  constructor
  · simp
  · exact hb
  · intro c hc hpc
    rw [List.mem_append, List.mem_singleton] at hc
    obtain hc | rfl := hc
    · exact (hless c hc hpc).le
    · exact le_rfl
  · intro j c hj hat hpc
    rw [List.getElem?_append_left hj] at hat
    exact hless c (List.mem_of_getElem? hat) hpc

theorem IsFirstMax.unique {a b : α} {i j : Nat} (ha : IsFirstMax p key items a i)
    (hb : IsFirstMax p key items b j) : a = b ∧ i = j := by
  have hle := hb.greatest a (List.mem_of_getElem? ha.at_index) ha.qualifies
  have hle' := ha.greatest b (List.mem_of_getElem? hb.at_index) hb.qualifies
  have hij : ¬ i < j := fun hlt => absurd (hb.first i a hlt ha.at_index ha.qualifies) hle'.not_gt
  have hji : ¬ j < i := fun hlt => absurd (ha.first j b hlt hb.at_index hb.qualifies) hle.not_gt
  obtain rfl : i = j := by omega
  exact ⟨Option.some.inj (ha.at_index.symm.trans hb.at_index), rfl⟩

theorem isFirstMax_of_firstMax {a : α} {i : Nat} (h : firstMax p key items = some (a, i)) :
    IsFirstMax p key items a i := by
  induction items using List.reverseRecOn generalizing a i with
  | nil => simp at h
  | append_singleton items b ih =>
      rw [firstMax_concat] at h
      by_cases hb : p b = true
      · rw [if_pos hb] at h
        cases hbest : firstMax p key items with
        | none =>
            rw [hbest] at h
            obtain ⟨rfl, rfl⟩ := Prod.mk.inj (Option.some.inj h)
            refine isFirstMax_concat_self hb ?_
            intro c hc hpc
            rw [firstMax_eq_none_iff.mp hbest c hc] at hpc
            contradiction
        | some best =>
            rw [hbest] at h
            have hfirst := ih hbest
            by_cases hless : key best.1 < key b
            · simp only [hless, if_true, Option.some.injEq, Prod.mk.injEq] at h
              obtain ⟨rfl, rfl⟩ := h
              refine isFirstMax_concat_self hb ?_
              intro c hc hpc
              exact (hfirst.greatest c hc hpc).trans_lt hless
            · simp only [hless, if_false, Option.some.injEq] at h
              subst h
              exact hfirst.concat b fun _ => not_lt.mp hless
      · rw [if_neg hb] at h
        exact (ih h).concat b fun hpb => absurd hpb hb

/-- The scan finds the one position there is. -/
theorem firstMax_eq_some_iff {a : α} {i : Nat} :
    firstMax p key items = some (a, i) ↔ IsFirstMax p key items a i := by
  constructor
  · exact isFirstMax_of_firstMax
  · intro h
    cases hbest : firstMax p key items with
    | none =>
        have hfalse := firstMax_eq_none_iff.mp hbest a (List.mem_of_getElem? h.at_index)
        rw [h.qualifies] at hfalse
        contradiction
    | some best =>
        obtain ⟨hitem, hindex⟩ := (isFirstMax_of_firstMax hbest).unique h
        rw [← hitem, ← hindex]

end FirstMax
