import Mathlib.Algebra.Group.Nat.Defs

/-!
# Lib.BigEndian

Numbers as bytes, the highest first.

* `encode` — the low `k` bytes of a number;
* `decode` — the number of a list of bytes, which is read back from the bytes it
  fits in (`decode_encode`).

This module names nothing of the repository.
-/

namespace BigEndian

/-- The number that bytes stand for. -/
def decode (bytes : List UInt8) : Nat :=
  bytes.foldl (fun n b => n * 256 + b.toNat) 0

/-- The low `k` bytes of a number. -/
def encode : Nat → Nat → List UInt8
  | 0, _ => []
  | k + 1, n => encode k (n / 256) ++ [(n % 256).toUInt8]

@[simp] theorem length_encode (k n : Nat) : (encode k n).length = k := by
  induction k generalizing n with
  | zero => rfl
  | succ k ih => simp [encode, ih]

theorem decode_concat (bytes : List UInt8) (b : UInt8) :
    decode (bytes ++ [b]) = decode bytes * 256 + b.toNat := by
  simp [decode]

/-- A number is read back from as many bytes as it fits in. -/
theorem decode_encode {k n : Nat} (h : n < 256 ^ k) : decode (encode k n) = n := by
  induction k generalizing n with
  | zero =>
      obtain rfl : n = 0 := by simpa using h
      rfl
  | succ k ih =>
      have hquotient : n / 256 < 256 ^ k := by
        rw [Nat.div_lt_iff_lt_mul (by decide)]
        rwa [Nat.pow_succ] at h
      have hbyte : (n % 256).toUInt8.toNat = n % 256 := by
        simp [Nat.toUInt8]
      rw [encode, decode_concat, ih hquotient, hbyte]
      omega

end BigEndian
