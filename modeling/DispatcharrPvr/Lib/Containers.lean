import Mathlib.Data.Finset.Card
import Mathlib.Data.Finset.Image
import Mathlib.Data.List.Destutter
import Mathlib.Data.List.Sort

/-!
# Lib.Containers

Idioms of the C++ standard containers, with the facts programs rely on.

* `sortUnique` — sort, then drop repeats: two lists give the same result
  exactly when they have the same members (`sortUnique_eq_iff`);
* `touch` — a list of the last `cap` distinct things seen, oldest first: an
  entry is found by its key as long as fewer than `cap` other keys have been
  touched since (`find?_touches`).
-/

namespace Containers

universe u v

/-! ## sort and unique -/

section SortUnique

variable {α : Type u} [LinearOrder α]

/-- `std::sort`, then `std::unique` and `erase`. -/
def sortUnique (l : List α) : List α := (l.insertionSort (· ≤ ·)).destutter (· ≠ ·)

/-- On a sorted list dropping adjacent repeats drops all of them. -/
theorem sortUnique_eq_dedup (l : List α) : sortUnique l = (l.insertionSort (· ≤ ·)).dedup :=
  (List.pairwise_insertionSort (· ≤ ·) l).destutter_eq_dedup

theorem mem_sortUnique {l : List α} {a : α} : a ∈ sortUnique l ↔ a ∈ l := by
  rw [sortUnique_eq_dedup, List.mem_dedup, List.mem_insertionSort]

theorem pairwise_sortUnique (l : List α) : (sortUnique l).Pairwise (· < ·) := by
  rw [sortUnique_eq_dedup]
  have hle : (l.insertionSort (· ≤ ·)).dedup.Pairwise (· ≤ ·) :=
    (List.pairwise_insertionSort (· ≤ ·) l).sublist (List.dedup_sublist _)
  have hne := List.nodup_dedup (l.insertionSort (· ≤ ·))
  exact hle.imp₂ (fun _ _ hle hne => lt_of_le_of_ne hle hne) hne

/-- The sorted list without repeats is a normal form of the set of members. -/
theorem sortUnique_eq_iff {l l' : List α} : sortUnique l = sortUnique l' ↔ ∀ a, a ∈ l ↔ a ∈ l' := by
  constructor
  · intro h a
    rw [← mem_sortUnique, h, mem_sortUnique]
  · intro h
    refine (pairwise_sortUnique l).eq_of_mem_iff (pairwise_sortUnique l') fun a => ?_
    rw [mem_sortUnique, mem_sortUnique, h a]

end SortUnique

/-! ## the last few distinct entries

The invariant is `Holds`: what lies behind an entry are distinct keys, each
touched since and none its own, so dropping from the front does not reach it.
-/

section Touch

variable {α : Type u} {κ : Type v} [DecidableEq κ]

/-- One more entry seen. -/
def touch (cap : Nat) (key : α → κ) (l : List α) (a : α) : List α :=
  let l' := l.filter (fun e => key e ≠ key a) ++ [a]
  l'.drop (l'.length - cap)

/-- Several, in order. -/
def touches (cap : Nat) (key : α → κ) (l : List α) (as : List α) : List α :=
  as.foldl (touch cap key) l

/-- `a` is in the list, alone of its key, and what follows it are distinct
keys of `seen`. -/
structure Holds (key : α → κ) (l : List α) (a : α) (seen : Finset κ) : Prop where
  unique : ∀ e ∈ l, key e = key a → e = a
  split : ∃ pre post, l = pre ++ a :: post ∧ (post.map key).Nodup ∧ ∀ e ∈ post, key e ∈ seen

variable {cap : Nat} {key : α → κ}

/-- Entries of a touched list were there or are the new one. -/
theorem mem_touch {l : List α} {a e : α} (h : e ∈ touch cap key l a) :
    (e ∈ l ∧ key e ≠ key a) ∨ e = a := by
  have hmem := List.mem_of_mem_drop h
  rw [List.mem_append, List.mem_filter, List.mem_singleton, decide_eq_true_eq] at hmem
  exact hmem

/-- What was just touched is last. -/
theorem holds_touch_self {l : List α} (hcap : 0 < cap) (a : α) :
    Holds key (touch cap key l a) a ∅ := by
  refine ⟨fun e he hkey => ?_, ?_⟩
  · rcases mem_touch he with ⟨-, hne⟩ | heq
    · exact absurd hkey hne
    · exact heq
  · refine ⟨(l.filter fun e => key e ≠ key a).drop
      ((l.filter (fun e => key e ≠ key a) ++ [a]).length - cap), [], ?_, List.nodup_nil, by simp⟩
    rw [touch, List.drop_append_of_le_length]
    rw [List.length_append, List.length_singleton]
    omega

/-- The entries behind `a` are no more than the keys seen since. -/
theorem length_post_le {post : List α} {seen : Finset κ} (hnodup : (post.map key).Nodup)
    (hseen : ∀ e ∈ post, key e ∈ seen) : post.length ≤ seen.card := by
  have hsub : (post.map key).toFinset ⊆ seen := by
    intro k hk
    obtain ⟨e, he, rfl⟩ := List.mem_map.mp (List.mem_toFinset.mp hk)
    exact hseen e he
  have hcard := Finset.card_le_card hsub
  rwa [List.toFinset_card_of_nodup hnodup, List.length_map] at hcard

/-- Touching another key moves nothing in front of `a` behind it. -/
theorem holds_touch {l : List α} {a b : α} {seen : Finset κ} (h : Holds key l a seen)
    (hne : key b ≠ key a) (hcard : (insert (key b) seen).card < cap) :
    Holds key (touch cap key l b) a (insert (key b) seen) := by
  obtain ⟨pre, post, rfl, hnodup, hseen⟩ := h.split
  have hpost' : ((post.filter fun e => key e ≠ key b) ++ [b]).map key |>.Nodup := by
    rw [List.map_append, List.map_singleton, List.nodup_append]
    refine ⟨hnodup.sublist (List.filter_sublist.map key), List.nodup_singleton _, ?_⟩
    intro k hk k' hk' heq
    obtain ⟨e, he, rfl⟩ := List.mem_map.mp hk
    have hkey : key e ≠ key b := by simpa using (List.mem_filter.mp he).2
    exact hkey (heq.trans (List.mem_singleton.mp hk'))
  have hseen' : ∀ e ∈ (post.filter fun e => key e ≠ key b) ++ [b], key e ∈ insert (key b) seen := by
    intro e he
    rcases List.mem_append.mp he with he | he
    · exact Finset.mem_insert_of_mem (hseen e (List.mem_filter.mp he).1)
    · rw [List.mem_singleton.mp he]; exact Finset.mem_insert_self _ _
  have hlen := length_post_le hpost' hseen'
  have hlist : ((pre ++ a :: post).filter fun e => key e ≠ key b) ++ [b] =
      (pre.filter fun e => key e ≠ key b) ++
        a :: ((post.filter fun e => key e ≠ key b) ++ [b]) := by
    rw [List.filter_append, List.filter_cons_of_pos (by simpa using hne.symm)]
    simp
  refine ⟨fun e he hkey => ?_, (pre.filter fun e => key e ≠ key b).drop
    (((pre ++ a :: post).filter (fun e => key e ≠ key b) ++ [b]).length - cap), _, ?_, hpost', hseen'⟩
  · rcases mem_touch he with ⟨hmem, -⟩ | heq
    · exact h.unique e hmem hkey
    · rw [heq] at hkey; exact absurd hkey hne
  · rw [touch, hlist, List.drop_append_of_le_length]
    simp only [List.length_append, List.length_cons] at hlen ⊢
    omega

/-- An entry survives the touches of fewer than `cap` other keys. -/
theorem holds_touches {l : List α} {a : α} {seen : Finset κ} (as : List α) (h : Holds key l a seen)
    (hcap : 0 < cap) (hself : ∀ b ∈ as, key b = key a → b = a)
    (hcard : (seen ∪ (as.map key).toFinset.erase (key a)).card < cap) :
    ∃ seen', Holds key (touches cap key l as) a seen' := by
  induction as generalizing l seen with
  | nil => exact ⟨seen, h⟩
  | cons b as ih =>
      have hself' : ∀ c ∈ as, key c = key a → c = a :=
        fun c hc => hself c (List.mem_cons_of_mem _ hc)
      by_cases hkey : key b = key a
      · obtain rfl := hself b (List.mem_cons_self ..) hkey
        refine ih (holds_touch_self hcap b) hself' ?_
        refine Nat.lt_of_le_of_lt (Finset.card_le_card ?_) hcard
        intro k hk
        simp only [Finset.empty_union, List.map_cons, List.toFinset_cons, Finset.mem_union,
          Finset.mem_erase, Finset.mem_insert] at hk ⊢
        exact .inr ⟨hk.1, .inr hk.2⟩
      · have hinsert : insert (key b) seen ∪ (as.map key).toFinset.erase (key a) =
            seen ∪ ((b :: as).map key).toFinset.erase (key a) := by
          ext k
          simp only [List.map_cons, List.toFinset_cons, Finset.mem_union, Finset.mem_erase,
            Finset.mem_insert]
          constructor
          · rintro ((rfl | hk) | hk)
            · exact .inr ⟨hkey, .inl rfl⟩
            · exact .inl hk
            · exact .inr ⟨hk.1, .inr hk.2⟩
          · rintro (hk | ⟨hk, rfl | hmem⟩)
            · exact .inl (.inr hk)
            · exact .inl (.inl rfl)
            · exact .inr ⟨hk, hmem⟩
        have hcard' : (insert (key b) seen ∪ (as.map key).toFinset.erase (key a)).card < cap := by
          rwa [hinsert]
        have hsub : insert (key b) seen ⊆
            insert (key b) seen ∪ (as.map key).toFinset.erase (key a) := Finset.subset_union_left
        have hsmall := Finset.card_le_card hsub
        exact ih (holds_touch h hkey (by omega)) hself' hcard'

/-- **An entry is found by its key** as long as fewer than `cap` other keys
have been touched since it was. -/
theorem find?_touches {l : List α} {a : α} (as : List α)
    (hself : ∀ b ∈ as, key b = key a → b = a)
    (hcard : ((as.map key).toFinset.erase (key a)).card < cap) :
    (touches cap key l (a :: as)).find? (fun e => key e = key a) = some a := by
  have hcap : 0 < cap := by omega
  obtain ⟨seen, hunique, pre, post, hsplit, -⟩ :=
    holds_touches as (holds_touch_self (l := l) hcap a) hcap hself (by simpa using hcard)
  have hmem : a ∈ touches cap key l (a :: as) := by
    show a ∈ touches cap key (touch cap key l a) as
    rw [hsplit]; simp
  cases hfind : (touches cap key l (a :: as)).find? (fun e => key e = key a) with
  | none =>
      have hnone := List.find?_eq_none.mp hfind a hmem
      simp at hnone
  | some e =>
      have hkey : key e = key a := by simpa using List.find?_some hfind
      rw [hunique e (List.mem_of_find?_eq_some hfind) hkey]

end Touch

end Containers
