import Mathlib.Algebra.Group.Nat.Defs
import Mathlib.Data.List.Induction
import Mathlib.Data.List.TakeWhile

/-!
# Lib.Decimal

Decimal numbers in the bytes of a C program: `printf`'s zero padded
conversions and `std::stoi`.

* `fixed k n` — the low `k` digits of a number, which is what `%0kd` writes of
  a number that fits (`padded_eq_fixed`);
* `value` — the number of digits; the two undo each other (`value_fixed`,
  `fixed_value`);
* `stoi` — which skips whitespace, takes a sign and stops at the first byte that
  is not a digit (`stoi_eq_some_iff`), and on digits alone is their value
  (`stoi_of_digits`);
* `stoll` — the same up to 64 bits (`stoll_digits_append`).

-/

namespace Decimal

/-- `std::isdigit`. -/
def isDigit (b : UInt8) : Bool := decide (48 ≤ b) && decide (b ≤ 57)

/-- `std::isspace`. -/
def isSpace (b : UInt8) : Bool := b == 32 || (decide (9 ≤ b) && decide (b ≤ 13))

/-- The digit of a number below ten. -/
def digit (n : Nat) : UInt8 := (48 + n).toUInt8

theorem toNat_digit {n : Nat} (h : n < 10) : (digit n).toNat = 48 + n := by
  simp only [digit, Nat.toUInt8, UInt8.toNat_ofNat']
  omega

theorem isDigit_iff {b : UInt8} : isDigit b = true ↔ 48 ≤ b.toNat ∧ b.toNat ≤ 57 := by
  simp [isDigit, UInt8.le_iff_toNat_le]

@[simp] theorem isDigit_digit {n : Nat} (h : n < 10) : isDigit (digit n) = true := by
  rw [isDigit_iff, toNat_digit h]
  omega

/-- What is a digit is no space. -/
theorem isSpace_of_isDigit {b : UInt8} (h : isDigit b = true) : isSpace b = false := by
  rw [isDigit_iff] at h
  have hne : b ≠ 32 := fun h32 => by
    rw [h32] at h
    simp at h
  simp only [isSpace, UInt8.le_iff_toNat_le, UInt8.toNat_ofNat, Bool.or_eq_false_iff, beq_eq_false_iff_ne,
    Bool.and_eq_false_iff, decide_eq_false_iff_not]
  exact ⟨hne, .inr (by simp; omega)⟩

/-! ## a fixed number of digits -/

/-- The low `k` digits of a number. -/
def fixed : Nat → Nat → List UInt8
  | 0, _ => []
  | k + 1, n => fixed k (n / 10) ++ [digit (n % 10)]

/-- The number that digits stand for. -/
def value (digits : List UInt8) : Nat := digits.foldl (fun n b => n * 10 + (b.toNat - 48)) 0

@[simp] theorem length_fixed (k n : Nat) : (fixed k n).length = k := by
  induction k generalizing n with
  | zero => rfl
  | succ k ih => simp [fixed, ih]

@[simp] theorem all_isDigit_fixed (k n : Nat) : (fixed k n).all isDigit = true := by
  induction k generalizing n with
  | zero => rfl
  | succ k ih => simp only [fixed, List.all_append, ih, List.all_cons, isDigit_digit
      (Nat.mod_lt n (by decide)), List.all_nil, Bool.and_self]

theorem value_concat (digits : List UInt8) (b : UInt8) :
    value (digits ++ [b]) = value digits * 10 + (b.toNat - 48) := by
  simp [value]

/-- A number is read back from as many digits as it fits in. -/
theorem value_fixed {k n : Nat} (h : n < 10 ^ k) : value (fixed k n) = n := by
  induction k generalizing n with
  | zero =>
      obtain rfl : n = 0 := by simpa using h
      rfl
  | succ k ih =>
      have hquotient : n / 10 < 10 ^ k := by
        rw [Nat.div_lt_iff_lt_mul (by decide)]
        rwa [Nat.pow_succ] at h
      rw [fixed, value_concat, ih hquotient, toNat_digit (Nat.mod_lt n (by decide))]
      omega

theorem value_lt {digits : List UInt8} (h : digits.all isDigit = true) :
    value digits < 10 ^ digits.length := by
  induction digits using List.reverseRecOn with
  | nil => exact Nat.one_pos
  | append_singleton digits b ih =>
      rw [List.all_append, Bool.and_eq_true] at h
      have hb := isDigit_iff.mp (show isDigit b = true by simpa using h.2)
      have hlt := ih h.1
      rw [List.length_append, List.length_singleton, value_concat, Nat.pow_succ]
      omega

/-! ## printf -/

/-- The digits of a number, as many as it has. -/
def digits (n : Nat) : List UInt8 := (Nat.toDigits 10 n).map fun c => c.toNat.toUInt8

/-- The digits behind as many zeros as the width asks for. -/
def padded (width n : Nat) : List UInt8 :=
  List.replicate (width - (digits n).length) 48 ++ digits n

/-- `printf`'s `%0d` with a width. -/
def zeroPadded (width : Nat) (n : Int) : List UInt8 :=
  if n < 0 then 45 :: padded (width - 1) n.natAbs else padded width n.toNat

theorem digits_of_lt {n : Nat} (h : n < 10) : digits n = [digit n] := by
  rw [digits, Nat.toDigits_of_lt_base h]
  have hall : ∀ n : Fin 10, [(Nat.digitChar n.val).toNat.toUInt8] = [digit n.val] := by decide
  exact hall ⟨n, h⟩

theorem digits_of_ge {n : Nat} (h : 10 ≤ n) : digits n = digits (n / 10) ++ [digit (n % 10)] := by
  rw [← digits_of_lt (Nat.mod_lt n (by decide)), digits, digits, digits,
    Nat.toDigits_of_base_le (by decide) h, List.map_append, Nat.toDigits_of_lt_base
      (Nat.mod_lt n (by decide))]

/-- The digits of a number are digits, and make it up. -/
theorem digits_spec (n : Nat) : (digits n).all isDigit = true ∧ value (digits n) = n := by
  induction n using Nat.strongRecOn with
  | ind n ih =>
      by_cases hn : n < 10
      · have hdigit : isDigit (digit n) = true := isDigit_digit hn
        rw [digits_of_lt hn]
        refine ⟨by simp [hdigit], ?_⟩
        show 0 * 10 + ((digit n).toNat - 48) = n
        rw [toNat_digit hn]
        omega
      · obtain ⟨hall, hvalue⟩ := ih (n / 10) (by omega)
        have hlt : n % 10 < 10 := Nat.mod_lt n (by decide)
        have hdigit : isDigit (digit (n % 10)) = true := isDigit_digit hlt
        rw [digits_of_ge (Nat.le_of_not_lt hn)]
        refine ⟨by simp [hall, hdigit], ?_⟩
        rw [value_concat, hvalue, toNat_digit hlt]
        omega

/-- A number that fits is written in exactly its width. -/
theorem padded_eq_fixed {k n : Nat} (hk : 0 < k) (h : n < 10 ^ k) : padded k n = fixed k n := by
  induction k generalizing n with
  | zero => contradiction
  | succ k ih =>
      by_cases hn : n < 10
      · have hzero : ∀ k, fixed k 0 = List.replicate k 48 := by
          intro k
          induction k with
          | zero => rfl
          | succ k ih => rw [fixed, ih, List.replicate_succ']; rfl
        rw [padded, digits_of_lt hn, fixed, Nat.div_eq_of_lt hn, Nat.mod_eq_of_lt hn, hzero]
        rfl
      · have hquotient : n / 10 < 10 ^ k := by
          rw [Nat.div_lt_iff_lt_mul (by decide)]
          rwa [Nat.pow_succ] at h
        have hkpos : 0 < k := by
          refine Nat.pos_of_ne_zero fun hk0 => ?_
          rw [hk0] at hquotient
          omega
        rw [fixed, ← ih hkpos hquotient, padded, padded, digits_of_ge (by omega)]
        rw [List.length_append, List.length_singleton, Nat.add_sub_add_right, List.append_assoc]

theorem zeroPadded_eq_fixed {k : Nat} {n : Int} (hk : 0 < k) (h0 : 0 ≤ n) (h : n.toNat < 10 ^ k) :
    zeroPadded k n = fixed k n.toNat := by
  rw [zeroPadded, if_neg (by omega), padded_eq_fixed hk h]

/-! ## std::stoi -/

/-- `std::stoi` in base ten; nothing where it throws. -/
def stoi (s : List UInt8) : Option Int :=
  let (negative, s) :=
    match s.dropWhile isSpace with
    | 45 :: rest => (true, rest)
    | 43 :: rest => (false, rest)
    | s => (false, s)
  let digits := s.takeWhile isDigit
  if digits.isEmpty then none
  else
    let n : Int := if negative then -(value digits : Int) else value digits
    if -2147483648 ≤ n ∧ n ≤ 2147483647 then some n else none

/-- What is read has no more digits than the text has bytes. -/
theorem natAbs_stoi_lt {s : List UInt8} {n : Int} (h : stoi s = some n) :
    n.natAbs < 10 ^ s.length := by
  have hvalue : ∀ text : List UInt8, text.length ≤ s.length →
      value (text.takeWhile isDigit) < 10 ^ s.length := fun text hle =>
    lt_of_lt_of_le (value_lt (List.all_takeWhile ..)) (Nat.pow_le_pow_right (by decide)
      (le_trans (List.takeWhile_sublist _).length_le hle))
  have hspace := (List.dropWhile_sublist isSpace (l := s)).length_le
  rw [stoi] at h
  split at h
  next negative text hmatch =>
  have hle : text.length ≤ s.length := by
    split at hmatch
    · next heq =>
        rw [heq, List.length_cons] at hspace
        rw [← (Prod.mk.inj hmatch).2]
        omega
    · next heq =>
        rw [heq, List.length_cons] at hspace
        rw [← (Prod.mk.inj hmatch).2]
        omega
    · rw [← (Prod.mk.inj hmatch).2]
      exact hspace
  have hlt := hvalue text hle
  simp only at h
  split at h
  · contradiction
  · cases negative with
    | true =>
        rw [Option.ite_none_right_eq_some] at h
        obtain rfl := Option.some.inj h.2
        simp only [if_true]
        omega
    | false =>
        rw [Option.ite_none_right_eq_some] at h
        obtain rfl := Option.some.inj h.2
        simp only [Bool.false_eq_true, if_false]
        omega

/-- The text begins with a number: white space, a sign, and digits, behind which
there is no further one. -/
def Begins (s : List UInt8) (n : Int) : Prop :=
  ∃ space sign digits rest, s = space ++ (sign ++ (digits ++ rest)) ∧
    space.all isSpace = true ∧ (sign = [] ∨ sign = [43] ∨ sign = [45]) ∧
    (digits ≠ [] ∧ digits.all isDigit = true) ∧ rest.takeWhile isDigit = [] ∧
    n = if sign = [45] then -(value digits : Int) else value digits

/-- White space is skipped. -/
theorem dropWhile_isSpace_append {space s : List UInt8} (h : space.all isSpace = true)
    (hs : s.dropWhile isSpace = s) : (space ++ s).dropWhile isSpace = s := by
  rw [List.dropWhile_append_of_pos (List.all_eq_true.mp h), hs]

/-- What `std::stoi` reads is the number that its text begins with. -/
theorem stoi_eq_some_iff {s : List UInt8} {n : Int} :
    stoi s = some n ↔ Begins s n ∧ -2147483648 ≤ n ∧ n ≤ 2147483647 := by
  constructor
  · intro h
    have hsplit := List.takeWhile_append_dropWhile (p := isSpace) (l := s)
    have hnone : ∀ text : List UInt8, (text.dropWhile isDigit).takeWhile isDigit = [] := fun text =>
      List.takeWhile_eq_nil_iff.mpr fun hpos => by
        simpa using List.dropWhile_get_zero_not isDigit text hpos
    -- the text behind the white space and a sign
    have hbegins : ∀ sign text : List UInt8, s.dropWhile isSpace = sign ++ text →
        (sign = [] ∨ sign = [43] ∨ sign = [45]) → (text.takeWhile isDigit).isEmpty = false →
        Begins s (if sign = [45] then -(value (text.takeWhile isDigit) : Int)
          else value (text.takeWhile isDigit)) := fun sign text heq hsign hdigits =>
      ⟨s.takeWhile isSpace, sign, text.takeWhile isDigit, text.dropWhile isDigit,
        by rw [List.takeWhile_append_dropWhile, ← heq, hsplit], List.all_takeWhile, hsign,
        ⟨fun hnil => by simp [hnil] at hdigits, List.all_takeWhile⟩, hnone text, rfl⟩
    rw [stoi] at h
    split at h
    next negative text hmatch =>
    dsimp only at h
    split at h
    · contradiction
    next hdigits =>
    rw [Bool.not_eq_true] at hdigits
    obtain ⟨hrange, hn⟩ := Option.ite_none_right_eq_some.mp h
    obtain rfl := Option.some.inj hn
    refine ⟨?_, hrange⟩
    split at hmatch
    · next rest heq =>
        obtain ⟨rfl, rfl⟩ := Prod.mk.inj hmatch
        exact hbegins [45] rest heq (.inr (.inr rfl)) hdigits
    · next rest heq =>
        obtain ⟨rfl, rfl⟩ := Prod.mk.inj hmatch
        exact hbegins [43] rest heq (.inr (.inl rfl)) hdigits
    · obtain ⟨rfl, rfl⟩ := Prod.mk.inj hmatch
      exact hbegins [] (s.dropWhile isSpace) rfl (.inl rfl) hdigits
  · rintro ⟨⟨space, sign, digits, rest, rfl, hspace, hsign, ⟨hne, hdigits⟩, hrest, rfl⟩, hrange⟩
    obtain ⟨b, digits, rfl⟩ := List.exists_cons_of_ne_nil hne
    have hb : isDigit b = true := by
      rw [List.all_cons, Bool.and_eq_true] at hdigits
      exact hdigits.1
    have hbsign : b ≠ 45 ∧ b ≠ 43 := by
      rw [isDigit_iff] at hb
      exact ⟨fun h => by rw [h] at hb; simp at hb, fun h => by rw [h] at hb; simp at hb⟩
    have hwhile : (b :: digits ++ rest).takeWhile isDigit = b :: digits := by
      rw [List.takeWhile_append_of_pos (List.all_eq_true.mp hdigits), hrest, List.append_nil]
    have hdrop : (space ++ (sign ++ (b :: digits ++ rest))).dropWhile isSpace =
        sign ++ (b :: digits ++ rest) := by
      refine dropWhile_isSpace_append hspace ?_
      rcases hsign with rfl | rfl | rfl
      · rw [List.nil_append, List.cons_append,
          List.dropWhile_cons_of_neg (by simp [isSpace_of_isDigit hb])]
      · rfl
      · rfl
    rw [stoi, hdrop]
    rcases hsign with rfl | rfl | rfl
    · rw [if_neg (by decide)] at hrange ⊢
      split
      next negative text hmatch =>
      rw [List.nil_append, List.cons_append] at hmatch
      split at hmatch
      · next heq => exact absurd (List.cons.inj heq).1 hbsign.1
      · next heq => exact absurd (List.cons.inj heq).1 hbsign.2
      · obtain ⟨rfl, rfl⟩ := Prod.mk.inj hmatch
        rw [← List.cons_append, hwhile]
        exact if_pos hrange
    · rw [if_neg (by decide)] at hrange ⊢
      show (let digits := (b :: digits ++ rest).takeWhile isDigit
        if digits.isEmpty then none
        else if -2147483648 ≤ (value digits : Int) ∧ (value digits : Int) ≤ 2147483647 then
          some (value digits : Int) else none) = _
      rw [hwhile]
      exact if_pos hrange
    · rw [if_pos rfl] at hrange ⊢
      show (let digits := (b :: digits ++ rest).takeWhile isDigit
        if digits.isEmpty then none
        else if -2147483648 ≤ -(value digits : Int) ∧ -(value digits : Int) ≤ 2147483647 then
          some (-(value digits : Int)) else none) = _
      rw [hwhile]
      exact if_pos hrange

/-- In a short text no number is too long. -/
theorem stoi_eq_some_iff_of_short {s : List UInt8} {n : Int} (h : s.length ≤ 9) :
    stoi s = some n ↔ Begins s n := by
  rw [stoi_eq_some_iff, and_iff_left_iff_imp]
  rintro ⟨space, sign, digits, rest, rfl, -, -, ⟨-, hdigits⟩, -, rfl⟩
  have hlength : digits.length ≤ 9 := by
    simp only [List.length_append] at h
    omega
  have hlt := value_lt hdigits
  have hpow : 10 ^ digits.length ≤ 10 ^ 9 := Nat.pow_le_pow_right (by decide) hlength
  split <;> omega

/-- Digits alone are their value. -/
theorem stoi_of_digits {s : List UInt8} (hne : s ≠ []) (h : s.all isDigit = true)
    (hmax : value s ≤ 2147483647) : stoi s = some (value s : Int) := by
  obtain ⟨b, rest, rfl⟩ := List.exists_cons_of_ne_nil hne
  have hb : isDigit b = true := by
    rw [List.all_cons, Bool.and_eq_true] at h
    exact h.1
  have hsign : b ≠ 45 ∧ b ≠ 43 := by
    rw [isDigit_iff] at hb
    exact ⟨fun h => by rw [h] at hb; simp at hb, fun h => by rw [h] at hb; simp at hb⟩
  have hspace : (b :: rest).dropWhile isSpace = b :: rest := by
    rw [List.dropWhile_cons, isSpace_of_isDigit hb]
    rfl
  have hwhile : (b :: rest).takeWhile isDigit = b :: rest :=
    List.takeWhile_eq_self_iff.mpr (List.all_eq_true.mp h)
  rw [stoi, hspace]
  split
  next negative s' hmatch =>
  split at hmatch
  · next heq => exact absurd (List.cons.inj heq).1 hsign.1
  · next heq => exact absurd (List.cons.inj heq).1 hsign.2
  · obtain ⟨rfl, rfl⟩ := Prod.mk.inj hmatch
    simp only [hwhile, List.isEmpty_cons, Bool.false_eq_true, if_false]
    exact if_pos ⟨by omega, by omega⟩

/-- A number that fits an `int` is read back from its digits. -/
theorem stoi_fixed {k n : Nat} (hk : 0 < k) (h : n < 10 ^ k) (hmax : n ≤ 2147483647) :
    stoi (fixed k n) = some (n : Int) := by
  have hne : fixed k n ≠ [] := fun hnil => by
    have hlength := length_fixed k n
    rw [hnil] at hlength
    exact absurd hlength (by simp; omega)
  rw [stoi_of_digits hne (all_isDigit_fixed k n) (by rw [value_fixed h]; exact hmax), value_fixed h]

/-! ## std::stoll -/

/-- `std::stoll` in base ten; nothing where it throws. -/
def stoll (s : List UInt8) : Option Int :=
  let (negative, s) :=
    match s.dropWhile isSpace with
    | 45 :: rest => (true, rest)
    | 43 :: rest => (false, rest)
    | s => (false, s)
  let digits := s.takeWhile isDigit
  if digits.isEmpty then none
  else
    let n : Int := if negative then -(value digits : Int) else value digits
    if -9223372036854775808 ≤ n ∧ n ≤ 9223372036854775807 then some n else none

/-- A number is read back from its digits, whatever follows that is none. -/
theorem stoll_digits_append {n : Nat} {rest : List UInt8} (hn : n ≤ 9223372036854775807)
    (hrest : rest.takeWhile isDigit = []) : stoll (digits n ++ rest) = some (n : Int) := by
  obtain ⟨hall, hvalue⟩ := digits_spec n
  have hne : digits n ≠ [] := by
    rw [digits, Ne, List.map_eq_nil_iff]
    exact Nat.toDigits_ne_nil
  obtain ⟨b, more, hdigits⟩ := List.exists_cons_of_ne_nil hne
  have hb : isDigit b = true := by
    rw [hdigits, List.all_cons, Bool.and_eq_true] at hall
    exact hall.1
  have hsign : b ≠ 45 ∧ b ≠ 43 := by
    rw [isDigit_iff] at hb
    exact ⟨fun h => by rw [h] at hb; simp at hb, fun h => by rw [h] at hb; simp at hb⟩
  have hspace : (digits n ++ rest).dropWhile isSpace = b :: (more ++ rest) := by
    rw [hdigits, List.cons_append, List.dropWhile_cons, isSpace_of_isDigit hb]
    rfl
  have hwhile : (b :: (more ++ rest)).takeWhile isDigit = digits n := by
    rw [← List.cons_append, ← hdigits, List.takeWhile_append_of_pos (List.all_eq_true.mp hall),
      hrest, List.append_nil]
  rw [stoll, hspace]
  split
  next negative s' hmatch =>
  split at hmatch
  · next heq => exact absurd (List.cons.inj heq).1 hsign.1
  · next heq => exact absurd (List.cons.inj heq).1 hsign.2
  · obtain ⟨rfl, rfl⟩ := Prod.mk.inj hmatch
    simp only [hwhile, List.isEmpty_eq_false_iff.mpr hne, Bool.false_eq_true, if_false, hvalue]
    exact if_pos ⟨by omega, by omega⟩

end Decimal
