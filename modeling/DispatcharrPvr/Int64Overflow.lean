import DispatcharrPvr.JsonFieldUtil

/-!
# Int64Overflow

Signed arithmetic that the source takes in 64 bits, with no result when it
overflows.
-/

namespace DispatcharrPvr

/-- What `int64_t` holds. -/
def IsInt64 (n : Int) : Prop := int64Lowest ≤ n ∧ n ≤ int64Max

instance : DecidablePred IsInt64 := fun _ => inferInstanceAs (Decidable (_ ∧ _))

/-- An addition of `int64_t`s, nothing when it overflows. -/
def addInt64 (a b : Int) : Option Int :=
  if int64Lowest ≤ a + b ∧ a + b ≤ int64Max then some (a + b) else none

/-- A subtraction of `int64_t`s, nothing when it overflows. -/
def subInt64 (a b : Int) : Option Int :=
  if int64Lowest ≤ a - b ∧ a - b ≤ int64Max then some (a - b) else none

theorem addInt64_of_fits {a b : Int} (h : IsInt64 (a + b)) : addInt64 a b = some (a + b) := if_pos h

theorem subInt64_of_fits {a b : Int} (h : IsInt64 (a - b)) : subInt64 a b = some (a - b) := if_pos h

theorem isInt64_iff {n : Int} :
    IsInt64 n ↔ -9223372036854775808 ≤ n ∧ n ≤ 9223372036854775807 := Iff.rfl

theorem isInt64_toInt (n : Int64) : IsInt64 n.toInt := ⟨n.le_toInt, Int.le_of_lt_add_one n.toInt_lt⟩

end DispatcharrPvr
