/-!
# Lib.TruncDiv

C's `/` and `%` on signed integers round toward zero (`Int.tdiv`,
`Int.tmod`).  Code that wants the floor builds it from them in one of four
idioms: `((a % m) + m) % m` for the remainder, a quotient corrected by one when
the signs differ or together with a negative remainder, and a dividend moved
down before the division.  All are the Euclidean `%` and `/` for a positive
divisor, which is what `omega` decides.

This module depends only on the Lean 4 core library.
-/

namespace TruncDiv

/-- `((a % m) + m) % m`. -/
def floorMod (a m : Int) : Int := ((a.tmod m) + m).tmod m

/-- `a / b`, one less when the division is inexact and the signs differ. -/
def floorDiv (a b : Int) : Int :=
  let q := a.tdiv b
  if a.tmod b ≠ 0 ∧ (decide (a < 0)) ≠ (decide (b < 0)) then q - 1 else q

/-- C's remainder lies strictly between the divisor and its opposite. -/
theorem tmod_bounds {a m : Int} (hm : 0 < m) : -m < a.tmod m ∧ a.tmod m < m := by
  have hlt := Int.tmod_lt_of_pos a hm
  have hgt := Int.lt_tmod_of_pos a hm
  exact ⟨hgt, hlt⟩

theorem floorMod_eq_emod {a m : Int} (hm : 0 < m) : floorMod a m = a % m := by
  have hbounds := tmod_bounds (a := a) hm
  have hnonneg : 0 ≤ a.tmod m + m := by omega
  rw [floorMod, Int.tmod_eq_emod_of_nonneg hnonneg, Int.add_emod_right]
  have hdef := Int.tmod_def a m
  rw [hdef, Int.sub_mul_emod_self_left]

theorem floorDiv_eq_ediv {a b : Int} (hb : 0 < b) : floorDiv a b = a / b := by
  have hbneg : ¬ b < 0 := by omega
  by_cases ha : 0 ≤ a
  · have haneg : ¬ a < 0 := by omega
    simp [floorDiv, haneg, hbneg, Int.tdiv_eq_ediv_of_nonneg ha]
  · have haneg : a < 0 := by omega
    have hdvd : a.tmod b = 0 ↔ b ∣ a := (Int.dvd_iff_tmod_eq_zero).symm
    by_cases hd : b ∣ a
    · simp [floorDiv, hdvd.mpr hd, Int.tdiv_eq_ediv_of_dvd hd]
    · have hne : a.tmod b ≠ 0 := fun h => hd (hdvd.mp h)
      have hq := Int.tdiv_eq_ediv (a := a) (b := b)
      rw [if_neg (by simp [ha, hd]), Int.sign_eq_one_of_pos hb] at hq
      simp only [floorDiv, haneg, hbneg, hne, decide_true, decide_false, ne_eq, not_false_eq_true,
        Bool.true_eq_false, and_self, if_true]
      omega

/-- `(a ≥ 0 ? a : a - (m - 1)) / m`. -/
theorem tdiv_moved_down {a m k : Int} (hm : 0 < m) (hk : k = m - 1) :
    (if 0 ≤ a then a else a - k).tdiv m = a / m := by
  split
  · next ha => exact Int.tdiv_eq_ediv_of_nonneg ha
  · next ha =>
      have hdef := Int.tmod_def (a - k) m
      have hbounds := tmod_bounds (a := a - k) hm
      have hnonpos := Int.tmod_nonneg m (show 0 ≤ -(a - k) by omega)
      rw [Int.neg_tmod] at hnonpos
      exact ((Int.ediv_emod_unique hm (r := (a - k).tmod m + k)).mpr
        ⟨by omega, by omega, by omega⟩).1.symm

/-- The remainder and the quotient, both corrected when the remainder is
negative. -/
theorem tmod_corrected {a m : Int} (hm : 0 < m) :
    (if a.tmod m < 0 then (a.tdiv m - 1, a.tmod m + m) else (a.tdiv m, a.tmod m)) =
      (a / m, a % m) := by
  have hdef := Int.tmod_def a m
  have hbounds := tmod_bounds (a := a) hm
  split
  · next hneg =>
      have hsub : m * (a.tdiv m - 1) = m * a.tdiv m - m := by rw [Int.mul_sub, Int.mul_one]
      obtain ⟨hdiv, hmod⟩ := (Int.ediv_emod_unique hm (a := a) (q := a.tdiv m - 1)
        (r := a.tmod m + m)).mpr ⟨by omega, by omega, by omega⟩
      rw [hdiv, hmod]
  · next hnonneg =>
      obtain ⟨hdiv, hmod⟩ := (Int.ediv_emod_unique hm (a := a) (q := a.tdiv m)
        (r := a.tmod m)).mpr ⟨by omega, by omega, by omega⟩
      rw [hdiv, hmod]

/-- The remainder of a shifted value does not see a reduction made before. -/
theorem floorMod_add_floorMod {a b m : Int} (hm : 0 < m) :
    floorMod (floorMod a m + b) m = floorMod (a + b) m := by
  rw [floorMod_eq_emod hm, floorMod_eq_emod hm, floorMod_eq_emod hm, Int.emod_add_emod]

end TruncDiv
