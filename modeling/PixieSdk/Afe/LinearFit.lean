import Mathlib.Algebra.Order.BigOperators.Group.List
import PixieSdk.Afe.Arith

/-! # `linear_fit<int>`

The least-squares line `Y = kX + c` through the samples of one channel's offset adjustment:
`update` adds a sample to the sums, `calc` solves for `k` and `c`, and `y` evaluates the line.
With `T = int` the products `x * y` and `x * x` are taken in `int` before they reach the
`double` sums; every other operation is on `double`s and rounds (`toDouble`). -/

namespace PixieSdk

/-- `linear_fit<int>`: the line and the sums of the samples recorded so far, each a `double`,
and the `int` count. -/
structure LinearFit where
  k : ℚ
  c : ℚ
  sumX : ℚ
  sumY : ℚ
  sumXY : ℚ
  sumXSq : ℚ
  count : ℤ
  deriving DecidableEq

namespace LinearFit

/-- `linear_fit()`: everything zero. -/
def new : LinearFit :=
  ⟨0, 0, 0, 0, 0, 0, 0⟩

/-- `linear_fit::update(x, y)`: each sum adds its term and rounds; an `int` product or count
that overflows is undefined. -/
def update (f : LinearFit) (x y : ℤ) : Option LinearFit := do
  let xy ← intResult (x * y)
  let xx ← intResult (x * x)
  let count ← intResult (f.count + 1)
  pure { f with sumX := toDouble (f.sumX + x), sumY := toDouble (f.sumY + y),
                sumXY := toDouble (f.sumXY + xy), sumXSq := toDouble (f.sumXSq + xx),
                count := count }

/-- The divisor of `calc`, `(sum_x * sum_x) - (count * sum_x_sq)`, each operation rounded. -/
def divisor (f : LinearFit) : ℚ :=
  toDouble (toDouble (f.sumX * f.sumX) - toDouble (f.count * f.sumXSq))

/-- `linear_fit::calc()` (`calc` is a Lean keyword): slope and intercept over the divisor,
each operation rounded. A zero divisor is a division by zero. -/
def calculate (f : LinearFit) : Option LinearFit :=
  if f.divisor = 0 then none
  else some { f with
    k := toDouble (toDouble (toDouble (f.sumX * f.sumY) - toDouble (f.count * f.sumXY)) / f.divisor)
    c := toDouble (toDouble (toDouble (f.sumX * f.sumXY) - toDouble (f.sumY * f.sumXSq)) / f.divisor) }

/-- `linear_fit<int>::y(x)`: `(k * x) + c`, each operation rounded, converted to `int`. -/
def y (f : LinearFit) (x : ℤ) : Option ℤ :=
  truncToInt (toDouble (toDouble (f.k * x) + f.c))

theorem update_eq_some {f f' : LinearFit} {x y : ℤ} (h : f.update x y = some f') :
    f'.count = f.count + 1 ∧ x * x ≤ intMax ∧ f'.sumX = toDouble (f.sumX + x) ∧
      f'.sumXSq = toDouble (f.sumXSq + (x * x : ℤ)) := by
  simp only [update, Option.bind_eq_bind, Option.bind_eq_some, Option.pure_def,
    Option.some.injEq] at h
  obtain ⟨-, -, xx, hxx, c, hc, rfl⟩ := h
  obtain ⟨rfl, -, hle⟩ := intResult_eq_some.mp hxx
  exact ⟨(intResult_eq_some.mp hc).1, hle, rfl, rfl⟩

@[simp] theorem calculate_eq_none {f : LinearFit} : f.calculate = none ↔ f.divisor = 0 := by
  unfold calculate
  split_ifs with h <;> simp [h]

theorem update_square_overflow (f : LinearFit) (x y : ℤ) (hx : 46341 ≤ x) : f.update x y = none := by
  have hxx : intResult (x * x) = none := intResult_eq_none.mpr (.inr (by unfold intMax; nlinarith))
  unfold update
  cases intResult (x * y) <;> simp [hxx]

theorem update_square_overflow_max :
    46341 ≤ (65535 : ℤ) ∧ (new.update 0 0).bind (·.update 65535 65535) = none :=
  ⟨by norm_num, update_square_overflow _ 65535 65535 (by norm_num)⟩

/-! ### A fit over its samples

`adjust_offsets` records one sample `(baseline, DAC)` per run in a channel's fit. While the
sums stay below 2^53 every `double` operation of `update` and of the divisor is exact, and the
divisor of `calc` is minus the sum of the squared differences of the samples' `x`
(Lagrange's identity): it vanishes exactly when every sample has the same `x`. -/

/-- The fit after `update` on each sample in turn, from `linear_fit()`. -/
def ofSamples (samples : List (ℤ × ℤ)) : Option LinearFit :=
  samples.foldlM (fun f s => f.update s.1 s.2) new

theorem sum_mul_self_nonneg (xs : List ℤ) : 0 ≤ (xs.map fun x => x * x).sum :=
  List.sum_nonneg fun _ h => by
    obtain ⟨x, -, rfl⟩ := List.mem_map.mp h
    exact mul_self_nonneg x

theorem foldlM_update_exact : ∀ {samples : List (ℤ × ℤ)} {f f' : LinearFit} {a b : ℤ},
    samples.foldlM (fun f s => f.update s.1 s.2) f = some f' → f.sumX = a → f.sumXSq = b →
    -b ≤ a → a ≤ b → b + ((samples.map (·.1)).map fun x => x * x).sum < 2 ^ 53 →
      f'.count = f.count + samples.length ∧ f'.sumX = ((a + (samples.map (·.1)).sum : ℤ) : ℚ) ∧
        f'.sumXSq = ((b + ((samples.map (·.1)).map fun x => x * x).sum : ℤ) : ℚ)
  | [], f, f', a, b, h, ha, hb, _, _, _ => by
    obtain rfl : f = f' := Option.some.inj h
    simp [ha, hb]
  | s :: samples, f, f', a, b, h, ha, hb, hlo, hhi, hlt => by
    rw [List.foldlM_cons] at h
    obtain ⟨f₁, h₁, h⟩ := Option.bind_eq_some.mp h
    obtain ⟨hc₁, -, hx₁, hsq₁⟩ := update_eq_some h₁
    have hrest := sum_mul_self_nonneg (samples.map (·.1))
    simp only [List.map_cons, List.sum_cons] at hlt ⊢
    have hx : -(s.1 * s.1) ≤ s.1 ∧ s.1 ≤ s.1 * s.1 := ⟨by nlinarith, by nlinarith⟩
    have hsq : 0 ≤ s.1 * s.1 := mul_self_nonneg _
    have hx₁' : f₁.sumX = ((a + s.1 : ℤ) : ℚ) := by
      rw [hx₁, ha, ← Int.cast_add, toDouble_intCast (by omega) (by omega)]
    have hsq₁' : f₁.sumXSq = ((b + s.1 * s.1 : ℤ) : ℚ) := by
      rw [hsq₁, hb, ← Int.cast_add, toDouble_intCast (by omega) (by omega)]
    obtain ⟨hc, hX, hQ⟩ := foldlM_update_exact h hx₁' hsq₁' (by omega) (by omega) (by omega)
    refine ⟨by rw [hc, hc₁, List.length_cons]; push_cast; ring, by rw [hX, add_assoc], by rw [hQ, add_assoc]⟩

/-- `n·Σx² - (Σx)²` of a list of `x`: minus the exact divisor of `calc`. -/
def spread (xs : List ℤ) : ℤ :=
  xs.length * (xs.map fun x => x * x).sum - xs.sum * xs.sum

theorem sum_sq_sub (x : ℤ) : ∀ xs : List ℤ,
    (xs.map fun y => (y - x) ^ 2).sum = (xs.map fun y => y * y).sum - 2 * x * xs.sum + xs.length * (x * x)
  | [] => by simp
  | y :: ys => by
    simp only [List.map_cons, List.sum_cons, sum_sq_sub x ys, List.length_cons]
    push_cast
    ring

theorem spread_cons (x : ℤ) (xs : List ℤ) :
    spread (x :: xs) = spread xs + (xs.map fun y => (y - x) ^ 2).sum := by
  simp only [spread, List.length_cons, List.map_cons, List.sum_cons, sum_sq_sub]
  push_cast
  ring

theorem sum_sq_nonneg (x : ℤ) (xs : List ℤ) : 0 ≤ (xs.map fun y => (y - x) ^ 2).sum :=
  List.sum_nonneg fun _ h => by
    obtain ⟨y, -, rfl⟩ := List.mem_map.mp h
    positivity

theorem sum_sq_eq_zero_iff (x : ℤ) :
    ∀ xs : List ℤ, (xs.map fun y => (y - x) ^ 2).sum = 0 ↔ ∀ y ∈ xs, y = x
  | [] => by simp
  | y :: ys => by
    rw [List.map_cons, List.sum_cons, add_eq_zero_iff_of_nonneg (by positivity) (sum_sq_nonneg x ys),
      sum_sq_eq_zero_iff x ys, pow_eq_zero_iff two_ne_zero, sub_eq_zero, List.forall_mem_cons]

theorem spread_nonneg : ∀ xs : List ℤ, 0 ≤ spread xs
  | [] => by simp [spread]
  | x :: xs => by
    rw [spread_cons]
    exact add_nonneg (spread_nonneg xs) (sum_sq_nonneg x xs)

theorem spread_eq_zero_iff : ∀ xs : List ℤ, spread xs = 0 ↔ ∀ a ∈ xs, ∀ b ∈ xs, a = b
  | [] => by simp [spread]
  | x :: xs => by
    rw [spread_cons, add_eq_zero_iff_of_nonneg (spread_nonneg xs) (sum_sq_nonneg x xs),
      spread_eq_zero_iff xs, sum_sq_eq_zero_iff]
    simp only [List.forall_mem_cons, true_and]
    constructor
    · rintro ⟨hxs, hx⟩
      exact ⟨fun b hb => (hx b hb).symm, fun a ha => ⟨hx a ha, hxs a ha⟩⟩
    · rintro ⟨-, h⟩
      exact ⟨fun a ha => (h a ha).2, fun y hy => (h y hy).1⟩

theorem divisor_ofSamples {samples : List (ℤ × ℤ)} {f : LinearFit} (h : ofSamples samples = some f)
    (hexact : samples.length * (samples.map fun s => s.1 * s.1).sum < 2 ^ 53) :
    f.divisor = -spread (samples.map (·.1)) := by
  have hmap : ((samples.map (·.1)).map fun x => x * x) = samples.map fun s => s.1 * s.1 := by
    simp [Function.comp_def]
  have hQ := sum_mul_self_nonneg (samples.map (·.1))
  rw [hmap] at hQ
  have hsum : (samples.map fun s => s.1 * s.1).sum < 2 ^ 53 := by
    rcases samples with _ | ⟨s, rest⟩
    · simp
    · exact lt_of_le_of_lt (le_mul_of_one_le_left hQ (by simp)) hexact
  obtain ⟨hc, hX, hQ'⟩ := foldlM_update_exact (a := 0) (b := 0) h (by simp [new]) (by simp [new])
    le_rfl le_rfl (by rw [hmap]; simpa using hsum)
  have hspread := spread_nonneg (samples.map (·.1))
  have hsq := mul_self_nonneg (samples.map (·.1)).sum
  simp only [spread, List.length_map, hmap] at hspread ⊢
  rw [divisor, hX, hQ', hc, hmap]
  simp only [new, zero_add, Int.cast_natCast]
  rw [← Int.cast_mul, toDouble_intCast (by omega) (by omega), ← Int.cast_natCast,
    ← Int.cast_mul, toDouble_intCast (by omega) hexact, ← Int.cast_sub,
    toDouble_intCast (by omega) (by omega)]
  push_cast
  ring

theorem calculate_same_x {x y₀ y₁ : ℤ} {f₀ f₁ : LinearFit} (h₀ : new.update x y₀ = some f₀)
    (h₁ : f₀.update x y₁ = some f₁) : f₁.calculate = none := by
  have hs : ofSamples [(x, y₀), (x, y₁)] = some f₁ := by simp [ofSamples, h₀, h₁]
  have hxx : x * x ≤ intMax := (update_eq_some h₀).2.1
  rw [calculate_eq_none, divisor_ofSamples hs (by simp; unfold intMax at hxx; omega)]
  simp [spread]
  ring

/-- `calc` divides by zero exactly when every sample recorded has the same `x`, on samples
with `n·Σx² < 2^53`: at most `runs` samples of `int` baselines below 2^16 in
`adjust_offsets`. -/
theorem calculate_eq_none_iff {samples : List (ℤ × ℤ)} {f : LinearFit}
    (h : ofSamples samples = some f)
    (hexact : samples.length * (samples.map fun s => s.1 * s.1).sum < 2 ^ 53) :
    f.calculate = none ↔ ∀ a ∈ samples, ∀ b ∈ samples, a.1 = b.1 := by
  rw [calculate_eq_none, divisor_ofSamples h hexact, neg_eq_zero, Int.cast_eq_zero,
    spread_eq_zero_iff]
  simp only [List.forall_mem_map]

theorem calculate_eq_none_iff_two_samples :
    ofSamples [(100, 0), (100, 200)] = some ⟨0, 0, 200, 200, 20000, 20000, 2⟩ ∧
      [((100 : ℤ), (0 : ℤ)), (100, 200)].length *
          ([((100 : ℤ), (0 : ℤ)), (100, 200)].map fun s => s.1 * s.1).sum < 2 ^ 53 ∧
      ((⟨0, 0, 200, 200, 20000, 20000, 2⟩ : LinearFit).calculate = none ↔
        ∀ a ∈ [((100 : ℤ), (0 : ℤ)), (100, 200)], ∀ b ∈ [((100 : ℤ), (0 : ℤ)), (100, 200)], a.1 = b.1) :=
  have h : ofSamples [(100, 0), (100, 200)] = some ⟨0, 0, 200, 200, 20000, 20000, 2⟩ := by
    norm_num [ofSamples, update, intResult, intMin, intMax, new]
  have hexact : [((100 : ℤ), (0 : ℤ)), (100, 200)].length *
      ([((100 : ℤ), (0 : ℤ)), (100, 200)].map fun s => s.1 * s.1).sum < 2 ^ 53 := by decide
  ⟨h, hexact, calculate_eq_none_iff h hexact⟩

end LinearFit

end PixieSdk
