import Mathlib.Algebra.Order.Field.Rat
import Mathlib.Data.Rat.Floor
import Mathlib.Data.Int.Log
import Mathlib.Tactic.Linarith
import PixieSdk.Json

/-! # The C++ integer and floating conversions of the fixture code

The fixture code computes in 32-bit `int`, converts between `int` and `hw::word`, shifts `1`
left by an ADC width or a DB offset, and truncates `double` results to `int`. An `int` result
that overflows, a shift past the width and a `double` out of `int` range are undefined
behaviour: each is `none` here. A `double` is a rational on the binary64 grid, and each
`double` operation rounds its exact result to that grid. -/

namespace PixieSdk

/-- `INT_MAX`. -/
def intMax : ℤ := 2 ^ 31 - 1

/-- `INT_MIN`. -/
def intMin : ℤ := -2 ^ 31

/-- An `int` expression whose exact value is `z`: undefined when `z` is not an `int`. -/
def intResult (z : ℤ) : Option ℤ :=
  if intMin ≤ z ∧ z ≤ intMax then some z else none

/-- `1 << s` on `int`: `2^s` below the sign bit; `2^31`, which converts to `INT_MIN`; and
undefined for a negative shift or one past the width. -/
def oneShl (s : ℤ) : Option ℤ :=
  if 0 ≤ s ∧ s < 31 then some (2 ^ s.toNat) else if s = 31 then some intMin else none

/-- A `double` truncated toward zero. -/
def truncQ (q : ℚ) : ℤ :=
  q.num.tdiv q.den

/-- A `double` converted to `int`: truncated toward zero, undefined out of range. -/
def truncToInt (q : ℚ) : Option ℤ :=
  intResult (truncQ q)

/-- A `hw::word` converted to `int`, modulo 2^32. -/
def intOfWord (w : Word) : ℤ :=
  if w.toNat < 2 ^ 31 then w.toNat else w.toNat - 2 ^ 32

theorem intResult_eq_some {z z' : ℤ} : intResult z = some z' ↔ z' = z ∧ intMin ≤ z ∧ z ≤ intMax := by
  unfold intResult
  split_ifs with h <;> simp [h, eq_comm]

theorem intResult_of_le {z : ℤ} (h₁ : intMin ≤ z) (h₂ : z ≤ intMax) : intResult z = some z :=
  intResult_eq_some.mpr ⟨rfl, h₁, h₂⟩

theorem intResult_eq_none {z : ℤ} : intResult z = none ↔ z < intMin ∨ intMax < z := by
  unfold intResult
  split_ifs with h <;> simp only [reduceCtorEq, false_iff, true_iff, not_or, not_lt] <;> omega

@[simp] theorem wordOfInt_intOfWord (w : Word) : wordOfInt (intOfWord w) = w := by
  have hw : w.toNat < 4294967296 := w.toNat_lt_size
  have hmod : intOfWord w % 4294967296 = w.toNat := by
    unfold intOfWord
    split_ifs <;> omega
  simp only [wordOfInt, hmod, Int.toNat_ofNat, UInt32.ofNat_toNat_eq]

theorem truncQ_of_nonneg {q : ℚ} (h : 0 ≤ q) : truncQ q = ⌊q⌋ := by
  rw [truncQ, Rat.floor_def, Int.tdiv_eq_ediv (Rat.num_nonneg.mpr h) (Int.ofNat_nonneg _)]

/-! ### `double`

A finite binary64 value is an integer significand below 2^53 times a power of two, the
exponent no lower than the subnormals'. An operation on `double`s rounds its exact result to
the nearest such value, ties to the even significand. The top of the exponent range is left
out: the fixture code's `double`s hold sums, products and quotients of `int`s, far below
2^1024. -/

/-- Rounding to the nearest integer, ties to the even one. -/
def roundHalfEven (q : ℚ) : ℤ :=
  let n := ⌊q⌋
  if q - n < 1 / 2 then n
  else if 1 / 2 < q - n then n + 1
  else if n % 2 = 0 then n else n + 1

/-- The spacing of the binary64 values around `q`: 2^(e - 52) in the binade [2^e, 2^(e+1)),
and that of the smallest normal binade below it. -/
def ulp (q : ℚ) : ℚ :=
  2 ^ (max (Int.log 2 |q|) (-1022) - 52)

/-- An exact result rounded to `double`. -/
def toDouble (q : ℚ) : ℚ :=
  roundHalfEven (q / ulp q) * ulp q

@[simp] theorem roundHalfEven_intCast (n : ℤ) : roundHalfEven n = n := by
  simp [roundHalfEven]

theorem ulp_intCast {n : ℤ} (h₁ : -2 ^ 53 < n) (h₂ : n < 2 ^ 53) :
    ∃ k : ℕ, ulp n = ((2 : ℚ) ^ k)⁻¹ := by
  have habs : |(n : ℚ)| = (n.natAbs : ℚ) := by rw [Nat.cast_natAbs, Int.cast_abs]
  have hlog : Nat.log 2 n.natAbs ≤ 52 := by
    rcases Nat.eq_zero_or_pos n.natAbs with h0 | hpos
    · simp [h0]
    · exact Nat.lt_succ_iff.mp (Nat.log_lt_of_lt_pow hpos.ne' (by omega))
  refine ⟨52 - Nat.log 2 n.natAbs, ?_⟩
  rw [ulp, habs, Int.log_natCast, max_eq_left (by omega), ← zpow_natCast, ← zpow_neg]
  congr 1
  omega

theorem toDouble_intCast {n : ℤ} (h₁ : -2 ^ 53 < n) (h₂ : n < 2 ^ 53) : toDouble n = n := by
  obtain ⟨k, hk⟩ := ulp_intCast h₁ h₂
  have hq : (n : ℚ) / ulp n = ((n * 2 ^ k : ℤ) : ℚ) := by rw [hk, div_inv_eq_mul]; push_cast; rfl
  rw [toDouble, hq, roundHalfEven_intCast, hk]
  push_cast
  field_simp

@[simp] theorem toDouble_zero : toDouble 0 = 0 := by
  simpa using toDouble_intCast (n := 0) (by norm_num) (by norm_num)

@[simp] theorem toDouble_ofNat (n : ℕ) [n.AtLeastTwo] (h : n < 2 ^ 53) :
    toDouble (no_index (OfNat.ofNat n : ℚ)) = OfNat.ofNat n := by
  exact_mod_cast toDouble_intCast (n := n) (by omega) (by omega)

/-! ### Bit fields of a word

The fixture code packs fields into `hw::word`s with shifts, masks and ORs. Their values are
read through `toNat`: a shift is a multiplication or a division by a power of two, a mask of
low bits a remainder, and an OR of fields that do not overlap a sum. -/

theorem toNat_word_or (a b : Word) : (a ||| b).toNat = a.toNat ||| b.toNat :=
  BitVec.toNat_or _ _

theorem toNat_shiftLeft_24 (a : Word) : (a <<< (24 : Word)).toNat = a.toNat * 2 ^ 24 % 2 ^ 32 := by
  show (a.toBitVec <<< ((24 : Word).toBitVec % 32)).toNat = _
  simp [BitVec.toNat_shiftLeft, Nat.shiftLeft_eq]
  rfl

theorem toNat_shiftLeft_16 (a : Word) : (a <<< (16 : Word)).toNat = a.toNat * 2 ^ 16 % 2 ^ 32 := by
  show (a.toBitVec <<< ((16 : Word).toBitVec % 32)).toNat = _
  simp [BitVec.toNat_shiftLeft, Nat.shiftLeft_eq]
  rfl

theorem toNat_shiftRight_24 (a : Word) : (a >>> (24 : Word)).toNat = a.toNat / 2 ^ 24 := by
  show (a.toBitVec >>> ((24 : Word).toBitVec % 32)).toNat = _
  simp [BitVec.toNat_ushiftRight, Nat.shiftRight_eq_div_pow]
  rfl

theorem toNat_shiftRight_16 (a : Word) : (a >>> (16 : Word)).toNat = a.toNat / 2 ^ 16 := by
  show (a.toBitVec >>> ((16 : Word).toBitVec % 32)).toNat = _
  simp [BitVec.toNat_ushiftRight, Nat.shiftRight_eq_div_pow]
  rfl

theorem toNat_and_mask (a : Word) (n : ℕ) (hn : n < 32) :
    (a &&& UInt32.ofNat (2 ^ n - 1)).toNat = a.toNat % 2 ^ n := by
  rw [UInt32.and_toNat, UInt32.toNat_ofNat_of_lt (by
    have : 2 ^ n ≤ 2 ^ 31 := Nat.pow_le_pow_right (by norm_num) (by omega)
    simp only [UInt32.size]; omega), Nat.and_pow_two_sub_one_eq_mod]

theorem mul_two_pow_or {k v : ℕ} (n : ℕ) (hv : v < 2 ^ n) : k * 2 ^ n ||| v = k * 2 ^ n + v := by
  apply Nat.eq_of_testBit_eq
  intro i
  rw [Nat.mul_comm k, Nat.testBit_mul_pow_two_add _ hv, Nat.testBit_lor, Nat.testBit_mul_pow_two]
  by_cases hi : i < n
  · simp [hi, show ¬i ≥ n by omega]
  · have hvi : v.testBit i = false :=
      Nat.testBit_eq_false_of_lt (hv.trans_le (Nat.pow_le_pow_right (by norm_num) (by omega)))
    simp [hi, hvi, show i ≥ n by omega]

theorem or_fields {a c v : ℕ} (hc : c < 2 ^ 8) (hv : v < 2 ^ 16) :
    a * 2 ^ 24 ||| c * 2 ^ 16 ||| v = 2 ^ 16 * (2 ^ 8 * a + c) + v := by
  apply Nat.eq_of_testBit_eq
  intro i
  rw [Nat.testBit_mul_pow_two_add _ hv, Nat.testBit_lor, Nat.testBit_lor, Nat.mul_comm a,
    Nat.mul_comm c, Nat.testBit_mul_pow_two, Nat.testBit_mul_pow_two]
  by_cases h16 : i < 16
  · simp [h16, show ¬i ≥ 24 by omega, show ¬i ≥ 16 by omega]
  have hvi : v.testBit i = false :=
    Nat.testBit_eq_false_of_lt (hv.trans_le (Nat.pow_le_pow_right (by norm_num) (by omega)))
  rw [Nat.testBit_mul_pow_two_add _ hc]
  by_cases h24 : i < 24
  · simp [h16, hvi, show ¬i ≥ 24 by omega, show i ≥ 16 by omega, show i - 16 < 8 by omega]
  have hci : c.testBit (i - 16) = false :=
    Nat.testBit_eq_false_of_lt (hc.trans_le (Nat.pow_le_pow_right (by norm_num) (by omega)))
  simp [h16, hvi, hci, show i ≥ 24 by omega, show i ≥ 16 by omega, show ¬i - 16 < 8 by omega,
    show i - 16 - 8 = i - 24 by omega]

end PixieSdk
