import Mathlib.Data.List.GetD
import PixieSdk.Afe.Arith

/-! # `channel_baseline`

The baseline of a channel's traces: a histogram with one bin per ADC code, the first bin of
largest count, and the mean of the codes in the bins within `noise_bins` of it, weighted by
their counts. Comparisons with a baseline allow a noise range of a percent of full scale. -/

namespace PixieSdk

/-- An ADC sample, `hw::adc_word` (`std::uint16_t`). -/
abbrev AdcWord := UInt16

/-- `channel_baseline`. The structure keeps what its constructor and `start` establish: the
noise percent lies in [0, 100] and `1 << adc_bits` is a positive `int`. `bins` are the counts
of the `std::vector<int>`. -/
structure ChannelBaseline where
  channel : ℤ
  adcBits : ℕ
  noisePercent : ℚ
  runs : ℕ
  baseline : ℤ
  bins : List ℕ
  adcBits_lt : adcBits < 31
  noise_nonneg : 0 ≤ noisePercent
  noise_le : noisePercent ≤ 100
  deriving DecidableEq

namespace ChannelBaseline

/-- `channel_baseline::noise_bins`. -/
def noiseBins : ℕ := 30

/-- The default argument of `channel_baseline(double noise_percent = 0.5)`. -/
def defaultNoise : ℚ := 1 / 2

/-- `channel_baseline(noise_percent)`: no channel and no bins, baseline -1, and the noise
percent clamped to [0, 100]. -/
def new (noisePercent : ℚ) : ChannelBaseline where
  channel := -1
  adcBits := 0
  noisePercent := if 100 < noisePercent then 100 else if noisePercent < 0 then 0 else noisePercent
  runs := 0
  baseline := -1
  bins := []
  adcBits_lt := by decide
  noise_nonneg := by split_ifs <;> linarith
  noise_le := by split_ifs <;> linarith

/-- `channel_baseline::start(channel, adc_bits)`: clear the bins and size them `1 << adc_bits`.
At 31 the shift gives `INT_MIN`, which `resize` rejects with `std::length_error`; past it the
shift is undefined. -/
def start (b : ChannelBaseline) (channel : ℤ) (adcBits : ℕ) : Exit ChannelBaseline :=
  if h : adcBits < 31 then
    .returned { b with channel := channel, adcBits := adcBits, runs := 0, baseline := -1,
                       bins := List.replicate (2 ^ adcBits) 0, adcBits_lt := h }
  else if adcBits = 31 then .threw .other
  else .undefined

/-- The bin of `channel_baseline::update` for a sample among `n` bins: a sample above `n` is
clamped to the last bin. The test is `>`, so a sample equal to `n` stays `n`, past the end. -/
def clampBin (n : ℕ) (sample : AdcWord) : ℕ :=
  if n < sample.toNat then n - 1 else sample.toNat

/-- One sample of `channel_baseline::update`: its bin's count goes up. -/
def bump (bins : List ℕ) (sample : AdcWord) : Option (List ℕ) :=
  let s := clampBin bins.length sample
  match bins[s]? with
  | some n => if (n : ℤ) < intMax then some (bins.set s (n + 1)) else none
  | none => none

/-- `channel_baseline::update(trace)`: one more run, and each sample counted in its bin. -/
def update (b : ChannelBaseline) (trace : List AdcWord) : Option ChannelBaseline := do
  let runs ← intResult (b.runs + 1)
  let bins ← trace.foldlM bump b.bins
  pure { b with runs := runs.toNat, bins := bins }

/-- `std::max_element` over the bins, as a position: the first bin of largest count (the end,
0, when there are none). -/
def maxBin (bins : List ℕ) : ℕ :=
  bins.indexOf (bins.foldr max 0)

/-- One bin of the window sums of `channel_baseline::end`, in `int`. The window lies within the
bins. -/
def windowStep (bins : List ℕ) (acc : ℤ × ℤ) (b : ℕ) : Option (ℤ × ℤ) := do
  let weighted ← intResult (b * bins.getD b 0)
  let sum ← intResult (acc.1 + weighted)
  let samples ← intResult (acc.2 + bins.getD b 0)
  pure (sum, samples)

/-- `from_bin` of `channel_baseline::end`: `noise_bins` below the first largest bin, or 0. -/
def fromBin (bins : List ℕ) : ℕ :=
  maxBin bins - noiseBins

/-- `to_bin` of `channel_baseline::end`: `noise_bins` above the first largest bin, or the
number of bins. -/
def toBin (bins : List ℕ) : ℕ :=
  min (maxBin bins + noiseBins) bins.length

/-- `channel_baseline::end()` (`end` is a Lean keyword): the mean of the codes from `from_bin`
up to `to_bin`, weighted by their counts and divided in `int`. A window with no samples
divides by zero. -/
def finish (b : ChannelBaseline) : Option ChannelBaseline := do
  let acc ← (List.range' (fromBin b.bins) (toBin b.bins - fromBin b.bins)).foldlM
    (windowStep b.bins) (0, 0)
  if acc.2 = 0 then none else pure { b with baseline := acc.1.tdiv acc.2 }

/-- The noise range of `operator==(int)`: `int((1 << adc_bits) * (noise_percent / 100))`, or 1
without noise. The structure's bounds keep it within `int`. -/
def noiseRange (b : ChannelBaseline) : ℤ :=
  if 0 < b.noisePercent then truncQ (2 ^ b.adcBits * (b.noisePercent / 100)) else 1

/-- `channel_baseline::operator==(int bl)`: the baseline lies within the noise range of `bl`.
Undefined when `bl ± range` overflows. -/
def eqInt (b : ChannelBaseline) (bl : ℤ) : Option Bool := do
  let lo ← intResult (bl - b.noiseRange)
  let hi ← intResult (bl + b.noiseRange)
  pure (decide (lo ≤ b.baseline) && decide (b.baseline ≤ hi))

/-- `channel_baseline::operator!=(int bl)`. -/
def neInt (b : ChannelBaseline) (bl : ℤ) : Option Bool :=
  (b.eqInt bl).map (!·)

/-- `channel_baseline::operator==(other)`: the two baselines are the same. -/
def eqBaseline (b other : ChannelBaseline) : Bool :=
  b.baseline == other.baseline

/-- `channel_baseline::operator!=(other)`: `*this != other.baseline`, the comparison with an
`int`, which allows the noise range where `operator==(other)` does not. -/
def neBaseline (b other : ChannelBaseline) : Option Bool :=
  b.neInt other.baseline

theorem new_noisePercent {p : ℚ} (h₀ : 0 ≤ p) (h₁ : p ≤ 100) : (new p).noisePercent = p := by
  simp only [new, if_neg (not_lt.mpr h₁), if_neg (not_lt.mpr h₀)]

theorem start_config {b b' : ChannelBaseline} {channel : ℤ} {adcBits : ℕ}
    (h : b.start channel adcBits = .returned b') :
    b'.channel = channel ∧ b'.adcBits = adcBits ∧ b'.noisePercent = b.noisePercent := by
  unfold start at h
  split_ifs at h
  cases h
  exact ⟨rfl, rfl, rfl⟩

theorem update_finish_config {b b' : ChannelBaseline} {trace : List AdcWord}
    (h : (b.update trace).bind finish = some b') :
    b'.channel = b.channel ∧ b'.adcBits = b.adcBits ∧ b'.noisePercent = b.noisePercent := by
  obtain ⟨b₁, h₁, h₂⟩ := Option.bind_eq_some.mp h
  simp only [update, bind, Option.bind_eq_some, pure, Option.some.injEq] at h₁
  obtain ⟨_, _, _, _, rfl⟩ := h₁
  simp only [finish, bind, Option.bind_eq_some] at h₂
  obtain ⟨_, _, h₂⟩ := h₂
  split_ifs at h₂
  cases h₂
  exact ⟨rfl, rfl, rfl⟩

theorem noiseRange_defaultNoise {b : ChannelBaseline} (h : b.noisePercent = defaultNoise) :
    b.noiseRange = ⌊(2 ^ b.adcBits : ℚ) / 200⌋ := by
  rw [noiseRange, h, defaultNoise, if_pos (by norm_num), truncQ_of_nonneg (by positivity)]
  congr 1
  ring

/-- For every ADC width below 16, a sample equal to the number of bins is a 16-bit word that
is not clamped: its count is written past the end of the bins. -/
theorem update_sample_at_bin_count (b : ChannelBaseline) (channel : ℤ) (adcBits : ℕ)
    (h : adcBits < 16) :
    ∃ b', b.start channel adcBits = .returned b' ∧
      b'.update [UInt16.ofNat (2 ^ adcBits)] = none := by
  have h31 : adcBits < 31 := by omega
  have hpow : 2 ^ adcBits < 65536 :=
    (Nat.pow_lt_pow_right (by decide) h).trans_eq rfl
  refine ⟨_, dif_pos h31, ?_⟩
  simp [update, bump, clampBin, List.foldlM, intResult, intMin, intMax, UInt16.toNat,
    UInt16.ofNat, Nat.mod_eq_of_lt hpow, List.getElem?_replicate]

theorem update_sample_at_bin_count_one :
    1 < 16 ∧ ∃ b', (new defaultNoise).start 0 1 = .returned b' ∧
      b'.update [UInt16.ofNat (2 ^ 1)] = none :=
  ⟨by decide, update_sample_at_bin_count (new defaultNoise) 0 1 (by decide)⟩

/-! ### The baseline of a trace

On a trace none of whose samples equals the number of bins, `start`, `update` and `end` count
every sample once and return the weighted mean of the window around the first largest bin. -/

/-- The histogram of a trace over `n` bins, each sample in its clamped bin. -/
def histogram (n : ℕ) (trace : List AdcWord) : List ℕ :=
  (List.range n).map fun j => trace.countP (clampBin n · = j)

theorem bump_eq {bins : List ℕ} {sample : AdcWord} {c : ℕ}
    (hc : bins[clampBin bins.length sample]? = some c) (hmax : (c : ℤ) < intMax) :
    bump bins sample = some (bins.set (clampBin bins.length sample) (c + 1)) := by
  simp [bump, hc, hmax]

theorem sum_set_succ : ∀ {l : List ℕ} {i c : ℕ}, l[i]? = some c → (l.set i (c + 1)).sum = l.sum + 1
  | _ :: _, 0, _, h => by simp at h; simp [h]; omega
  | _ :: _, _ + 1, _, h => by simp at h; simp [sum_set_succ h]; omega

theorem foldlM_bump (trace : List AdcWord) : ∀ (bins : List ℕ),
    (∀ x ∈ trace, clampBin bins.length x < bins.length) →
    (∀ (j c : ℕ), bins[j]? = some c → (c : ℤ) + trace.length ≤ intMax) →
    ∃ bins', trace.foldlM bump bins = some bins' ∧ bins'.length = bins.length ∧
      bins'.sum = bins.sum + trace.length ∧
      ∀ j, bins'[j]? = bins[j]?.map (· + trace.countP (clampBin bins.length · = j)) := by
  induction trace with
  | nil => intro bins _ _; exact ⟨bins, rfl, rfl, rfl, fun j => by cases bins[j]? <;> rfl⟩
  | cons x trace ih =>
    intro bins hin hcount
    have hs := hin x (List.mem_cons_self _ _)
    obtain ⟨c, hc⟩ : ∃ c, bins[clampBin bins.length x]? = some c :=
      ⟨_, List.getElem?_eq_getElem hs⟩
    have hmax : (c : ℤ) < intMax := by
      have := hcount _ _ hc
      simp only [List.length_cons, Nat.cast_add, Nat.cast_one] at this
      omega
    obtain ⟨bins', hfold, hlen, hsum, hget⟩ := ih (bins.set (clampBin bins.length x) (c + 1))
      (by simpa using fun y hy => hin y (List.mem_cons_of_mem _ hy))
      (fun j c' hj => by
        rw [List.getElem?_set] at hj
        split_ifs at hj with hjs
        · have := hcount _ _ hc
          simp at hj this
          omega
        · have := hcount _ _ hj
          simp at this
          omega)
    refine ⟨bins', by simp [List.foldlM, bump_eq hc hmax, hfold], by simpa using hlen,
      by rw [hsum, sum_set_succ hc, List.length_cons]; omega, fun j => ?_⟩
    rw [hget, List.length_set, List.getElem?_set, List.countP_cons]
    by_cases hj : clampBin bins.length x = j
    · subst hj
      simp [hc, hs]
      omega
    · simp [hj]

/-- `Σ j·bins[j]` over the bins `lo, ..., lo + len - 1`. -/
def weightedSum (bins : List ℕ) (lo len : ℕ) : ℕ :=
  ((List.range' lo len).map fun j => j * bins.getD j 0).sum

/-- `Σ bins[j]` over the bins `lo, ..., lo + len - 1`. -/
def countSum (bins : List ℕ) (lo len : ℕ) : ℕ :=
  ((List.range' lo len).map fun j => bins.getD j 0).sum

@[simp] theorem weightedSum_zero (bins : List ℕ) (lo : ℕ) : weightedSum bins lo 0 = 0 := rfl

@[simp] theorem countSum_zero (bins : List ℕ) (lo : ℕ) : countSum bins lo 0 = 0 := rfl

theorem weightedSum_succ (bins : List ℕ) (lo len : ℕ) :
    weightedSum bins lo (len + 1) = lo * bins.getD lo 0 + weightedSum bins (lo + 1) len := by
  simp [weightedSum, List.range'_succ]

theorem countSum_succ (bins : List ℕ) (lo len : ℕ) :
    countSum bins lo (len + 1) = bins.getD lo 0 + countSum bins (lo + 1) len := by
  simp [countSum, List.range'_succ]

theorem foldlM_windowStep (bins : List ℕ) : ∀ (len lo : ℕ) (a c : ℕ),
    ((a + weightedSum bins lo len : ℕ) : ℤ) ≤ intMax → ((c + countSum bins lo len : ℕ) : ℤ) ≤ intMax →
    (List.range' lo len).foldlM (windowStep bins) ((a : ℤ), (c : ℤ)) =
      some (((a + weightedSum bins lo len : ℕ) : ℤ), ((c + countSum bins lo len : ℕ) : ℤ))
  | 0, _, _, _, _, _ => rfl
  | len + 1, lo, a, c, hw, hc => by
    rw [weightedSum_succ] at hw ⊢
    rw [countSum_succ] at hc ⊢
    have hstep : windowStep bins ((a : ℤ), (c : ℤ)) lo =
        some (((a + lo * bins.getD lo 0 : ℕ) : ℤ), ((c + bins.getD lo 0 : ℕ) : ℤ)) := by
      simp only [windowStep, ← Nat.cast_mul]
      generalize bins.getD lo 0 = g at hw hc ⊢
      generalize weightedSum bins (lo + 1) len = w at hw
      generalize countSum bins (lo + 1) len = n at hc
      generalize lo * g = p at hw ⊢
      simp only [intMax] at hw hc
      push_cast at hw hc ⊢
      have e₁ : intResult (p : ℤ) = some (p : ℤ) :=
        intResult_of_le (by simp [intMin]; omega) (by simp [intMax]; omega)
      have e₂ : intResult ((a : ℤ) + p) = some ((a : ℤ) + p) :=
        intResult_of_le (by simp [intMin]; omega) (by simp [intMax]; omega)
      have e₃ : intResult ((c : ℤ) + g) = some ((c : ℤ) + g) :=
        intResult_of_le (by simp [intMin]; omega) (by simp [intMax]; omega)
      simp [e₁, e₂, e₃]
    have ih := foldlM_windowStep bins len (lo + 1) (a + lo * bins.getD lo 0) (c + bins.getD lo 0)
      (by simpa only [Nat.add_assoc] using hw) (by simpa only [Nat.add_assoc] using hc)
    rw [List.range'_succ, List.foldlM_cons, hstep]
    simpa only [Nat.add_assoc] using ih

theorem le_foldr_max {l : List ℕ} {x : ℕ} (h : x ∈ l) : x ≤ l.foldr max 0 := by
  induction l with
  | nil => cases h
  | cons a l ih =>
    rcases List.mem_cons.mp h with rfl | h
    · exact le_max_left _ _
    · exact (ih h).trans (le_max_right _ _)

theorem foldr_max_mem : ∀ {l : List ℕ}, l ≠ [] → l.foldr max 0 ∈ l
  | [a], _ => by simp
  | a :: b :: l, _ => by
    rcases max_choice a ((b :: l).foldr max 0) with h | h
    · rw [List.foldr_cons, h]
      exact List.mem_cons_self _ _
    · rw [List.foldr_cons, h]
      exact List.mem_cons_of_mem _ (foldr_max_mem (List.cons_ne_nil _ _))

theorem maxBin_spec {bins : List ℕ} (h : bins ≠ []) :
    ∃ hm : maxBin bins < bins.length,
      (∀ j (hj : j < bins.length), bins[j] ≤ bins[maxBin bins]) ∧
      ∀ j (hj : j < maxBin bins), bins[j] < bins[maxBin bins] := by
  have hm : maxBin bins < bins.length := List.indexOf_lt_length.mpr (foldr_max_mem h)
  have hval : bins[maxBin bins] = bins.foldr max 0 := List.getElem_indexOf hm
  refine ⟨hm, fun j hj => hval ▸ le_foldr_max (List.getElem_mem hj), fun j hj => ?_⟩
  have hne := List.not_of_lt_findIdx hj
  rw [hval]
  exact lt_of_le_of_ne (le_foldr_max (List.getElem_mem _)) (by simpa using hne)

theorem countSum_cons_succ (x : ℕ) (rest : List ℕ) :
    ∀ lo len, countSum (x :: rest) (lo + 1) len = countSum rest lo len
  | _, 0 => rfl
  | lo, len + 1 => by rw [countSum_succ, countSum_succ, countSum_cons_succ x rest (lo + 1) len]; rfl

theorem countSum_le_sum : ∀ (bins : List ℕ) (lo len : ℕ), countSum bins lo len ≤ bins.sum
  | [], lo, len => by induction len generalizing lo <;> simp_all [countSum_succ]
  | _, _, 0 => Nat.zero_le _
  | x :: rest, 0, len + 1 => by
    rw [countSum_succ, countSum_cons_succ, List.sum_cons]
    exact Nat.add_le_add_left (countSum_le_sum rest 0 len) x
  | x :: rest, lo + 1, len => by
    rw [countSum_cons_succ, List.sum_cons]
    exact (countSum_le_sum rest lo len).trans (Nat.le_add_left _ _)

theorem getD_le_countSum (bins : List ℕ) :
    ∀ (len lo j : ℕ), lo ≤ j → j < lo + len → bins.getD j 0 ≤ countSum bins lo len
  | 0, _, _, h₁, h₂ => by omega
  | len + 1, lo, j, h₁, h₂ => by
    rw [countSum_succ]
    rcases Nat.eq_or_lt_of_le h₁ with rfl | h
    · exact Nat.le_add_right _ _
    · exact (getD_le_countSum bins len (lo + 1) j h (by omega)).trans (Nat.le_add_left _ _)

theorem weightedSum_le_mul (bins : List ℕ) {k : ℕ} (hk : ∀ j, bins.getD j 0 ≠ 0 → j ≤ k) :
    ∀ lo len, weightedSum bins lo len ≤ k * countSum bins lo len
  | _, 0 => Nat.zero_le _
  | lo, len + 1 => by
    rw [weightedSum_succ, countSum_succ, Nat.mul_add]
    have hlo : lo * bins.getD lo 0 ≤ k * bins.getD lo 0 := by
      by_cases h : bins.getD lo 0 = 0
      · simp only [h, Nat.mul_zero, le_refl]
      · exact Nat.mul_le_mul_right _ (hk lo h)
    exact Nat.add_le_add hlo (weightedSum_le_mul bins hk (lo + 1) len)

theorem mul_countSum_le_weightedSum (bins : List ℕ) :
    ∀ lo len, lo * countSum bins lo len ≤ weightedSum bins lo len
  | _, 0 => Nat.zero_le _
  | lo, len + 1 => by
    rw [weightedSum_succ, countSum_succ, Nat.mul_add]
    exact Nat.add_le_add_left ((Nat.mul_le_mul_right _ (Nat.le_succ lo)).trans
      (mul_countSum_le_weightedSum bins (lo + 1) len)) _

theorem weightedSum_add_countSum_le (bins : List ℕ) :
    ∀ lo len, weightedSum bins lo len + countSum bins lo len ≤ (lo + len) * countSum bins lo len
  | _, 0 => by simp
  | lo, len + 1 => by
    have ih := weightedSum_add_countSum_le bins (lo + 1) len
    rw [show lo + 1 + len = lo + (len + 1) by omega] at ih
    rw [weightedSum_succ, countSum_succ]
    calc lo * bins.getD lo 0 + weightedSum bins (lo + 1) len +
          (bins.getD lo 0 + countSum bins (lo + 1) len)
        = (lo + 1) * bins.getD lo 0 +
          (weightedSum bins (lo + 1) len + countSum bins (lo + 1) len) := by ring
      _ ≤ (lo + (len + 1)) * bins.getD lo 0 + (lo + (len + 1)) * countSum bins (lo + 1) len :=
          Nat.add_le_add (Nat.mul_le_mul_right _ (by omega)) ih
      _ = (lo + (len + 1)) * (bins.getD lo 0 + countSum bins (lo + 1) len) := by ring

theorem finish_eq (b : ChannelBaseline)
    (hw : (weightedSum b.bins (fromBin b.bins) (toBin b.bins - fromBin b.bins) : ℤ) ≤ intMax)
    (hc : (countSum b.bins (fromBin b.bins) (toBin b.bins - fromBin b.bins) : ℤ) ≤ intMax)
    (hpos : 0 < countSum b.bins (fromBin b.bins) (toBin b.bins - fromBin b.bins)) :
    b.finish = some { b with baseline :=
      (weightedSum b.bins (fromBin b.bins) (toBin b.bins - fromBin b.bins) /
        countSum b.bins (fromBin b.bins) (toBin b.bins - fromBin b.bins) : ℕ) } := by
  have h := foldlM_windowStep b.bins (toBin b.bins - fromBin b.bins) (fromBin b.bins) 0 0
    (by simpa using hw) (by simpa using hc)
  simp only [Nat.cast_zero, Nat.zero_add] at h
  simp only [finish, h, Option.bind_eq_bind, Option.some_bind, Nat.cast_eq_zero, hpos.ne',
    if_false]
  rfl

theorem getD_histogram (n : ℕ) (trace : List AdcWord) (j : ℕ) :
    (histogram n trace).getD j 0 = if j < n then trace.countP (clampBin n · = j) else 0 := by
  by_cases hj : j < n
  · simp [histogram, hj]
  · have hr : (List.range n)[j]? = none := List.getElem?_eq_none (by simp; omega)
    simp [histogram, hj, hr]

theorem clampBin_le (n : ℕ) (x : AdcWord) : clampBin n x ≤ x.toNat := by
  unfold clampBin
  split_ifs <;> omega

theorem clampBin_lt {n : ℕ} {x : AdcWord} (hn : 0 < n) (hx : x.toNat ≠ n) : clampBin n x < n := by
  unfold clampBin
  split_ifs <;> omega

theorem sum_replicate_zero : ∀ n, (List.replicate n 0).sum = 0
  | 0 => rfl
  | n + 1 => by rw [List.replicate_succ, List.sum_cons, sum_replicate_zero n]

theorem foldlM_bump_replicate (n : ℕ) (trace : List AdcWord) (hn : 0 < n)
    (hav : ∀ x ∈ trace, x.toNat ≠ n) (hlen : (trace.length : ℤ) ≤ intMax) :
    trace.foldlM bump (List.replicate n 0) = some (histogram n trace) ∧
      (histogram n trace).sum = trace.length := by
  obtain ⟨bins', hfold, -, hsum, hget⟩ := foldlM_bump trace (List.replicate n 0)
    (fun x hx => by simpa using clampBin_lt hn (hav x hx))
    (fun j c hj => by
      rw [List.getElem?_replicate] at hj
      split_ifs at hj
      simp at hj
      omega)
  have hb : bins' = histogram n trace := List.ext_getElem? fun j => by
    by_cases hj : j < n
    · simp [hget, List.getElem?_replicate, histogram, hj]
    · rw [hget, List.getElem?_eq_none (by simpa using hj), histogram,
        List.getElem?_eq_none (by simpa using hj)]
      rfl
  subst hb
  exact ⟨hfold, by rw [hsum, sum_replicate_zero, Nat.zero_add]⟩

theorem fromBin_le_maxBin_lt_toBin {bins : List ℕ} (h : bins ≠ []) :
    fromBin bins ≤ maxBin bins ∧ maxBin bins < toBin bins :=
  ⟨Nat.sub_le _ _, lt_min (by unfold noiseBins; omega) (maxBin_spec h).1⟩

theorem countSum_window_pos {bins : List ℕ} {j : ℕ} (hj : j < bins.length) (hpos : 0 < bins[j]) :
    0 < countSum bins (fromBin bins) (toBin bins - fromBin bins) := by
  have hne : bins ≠ [] := List.ne_nil_of_length_pos (by omega)
  obtain ⟨hm, hmax, -⟩ := maxBin_spec hne
  obtain ⟨hlo, hhi⟩ := fromBin_le_maxBin_lt_toBin hne
  have hwin := getD_le_countSum bins (toBin bins - fromBin bins) (fromBin bins) (maxBin bins) hlo
    (by omega)
  rw [List.getD_eq_getElem _ _ hm] at hwin
  exact lt_of_lt_of_le hpos ((hmax j hj).trans hwin)

theorem weightedSum_histogram_le (n : ℕ) (trace : List AdcWord) (lo len : ℕ) :
    weightedSum (histogram n trace) lo len ≤ 65535 * countSum (histogram n trace) lo len := by
  refine weightedSum_le_mul _ (fun j hj => ?_) _ _
  rw [getD_histogram] at hj
  split_ifs at hj
  · obtain ⟨x, -, hx⟩ := List.countP_pos_iff.mp (Nat.pos_of_ne_zero hj)
    have := clampBin_le n x
    have := x.toNat_lt
    simp only [decide_eq_true_eq] at hx
    omega
  · exact absurd rfl hj

theorem start_update_finish (channel : ℤ) (adcBits : ℕ) (hbits : adcBits < 31)
    (trace : List AdcWord) (hne : trace ≠ []) (hlen : trace.length ≤ 8192)
    (hav : ∀ x ∈ trace, x.toNat ≠ 2 ^ adcBits) :
    ∃ b b', (new defaultNoise).start channel adcBits = .returned b ∧
      (b.update trace).bind finish = some b' ∧
      b'.bins = histogram (2 ^ adcBits) trace ∧
      (histogram (2 ^ adcBits) trace).sum = trace.length ∧
      0 < countSum b'.bins (fromBin b'.bins) (toBin b'.bins - fromBin b'.bins) ∧
      b'.baseline = (weightedSum b'.bins (fromBin b'.bins) (toBin b'.bins - fromBin b'.bins) /
        countSum b'.bins (fromBin b'.bins) (toBin b'.bins - fromBin b'.bins) : ℕ) ∧
      (fromBin b'.bins : ℤ) ≤ b'.baseline ∧ b'.baseline < toBin b'.bins := by
  have hn : 0 < 2 ^ adcBits := Nat.pos_pow_of_pos _ (by decide)
  obtain ⟨hfold, hsum⟩ := foldlM_bump_replicate (2 ^ adcBits) trace hn hav
    (by simp only [intMax]; omega)
  set h := histogram (2 ^ adcBits) trace with hh
  -- the first sample's bin is not empty, so neither is the window
  obtain ⟨x₀, hx₀⟩ := List.exists_mem_of_ne_nil _ hne
  have hx₀lt : clampBin (2 ^ adcBits) x₀ < h.length := by
    simpa [hh, histogram] using clampBin_lt hn (hav x₀ hx₀)
  have hpos : 0 < countSum h (fromBin h) (toBin h - fromBin h) :=
    countSum_window_pos hx₀lt (by
      simp only [hh, histogram, List.getElem_map, List.getElem_range]
      exact List.countP_pos_iff.mpr ⟨x₀, hx₀, by simp⟩)
  have hC : countSum h (fromBin h) (toBin h - fromBin h) ≤ 8192 :=
    (countSum_le_sum _ _ _).trans (hsum ▸ hlen)
  have hW : weightedSum h (fromBin h) (toBin h - fromBin h) ≤
      65535 * countSum h (fromBin h) (toBin h - fromBin h) := weightedSum_histogram_le _ _ _ _
  have hwin : fromBin h + (toBin h - fromBin h) = toBin h := by
    have := fromBin_le_maxBin_lt_toBin (List.ne_nil_of_length_pos (by omega) : h ≠ [])
    omega
  let b₀ : ChannelBaseline :=
    { new defaultNoise with
      channel := channel, adcBits := adcBits, runs := 0, baseline := -1,
      bins := List.replicate (2 ^ adcBits) 0, adcBits_lt := hbits }
  have hupd : b₀.update trace = some { b₀ with runs := 1, bins := h } := by
    simp [b₀, update, hfold, intResult, intMin, intMax]
  refine ⟨b₀,
    { b₀ with
      runs := 1, bins := h,
      baseline := (weightedSum h (fromBin h) (toBin h - fromBin h) /
        countSum h (fromBin h) (toBin h - fromBin h) : ℕ) },
    dif_pos hbits, ?_, rfl, hsum, hpos, rfl, ?_, ?_⟩
  · rw [hupd]
    exact finish_eq _ (by simp only [intMax]; omega) (by simp only [intMax]; omega) hpos
  · show (fromBin h : ℤ) ≤ ((weightedSum h (fromBin h) (toBin h - fromBin h) /
      countSum h (fromBin h) (toBin h - fromBin h) : ℕ) : ℤ)
    exact_mod_cast (Nat.le_div_iff_mul_le hpos).mpr (mul_countSum_le_weightedSum h _ _)
  · show ((weightedSum h (fromBin h) (toBin h - fromBin h) /
      countSum h (fromBin h) (toBin h - fromBin h) : ℕ) : ℤ) < (toBin h : ℤ)
    have := weightedSum_add_countSum_le h (fromBin h) (toBin h - fromBin h)
    rw [hwin] at this
    exact_mod_cast (Nat.div_lt_iff_lt_mul hpos).mpr
      (Nat.lt_of_lt_of_le (Nat.lt_add_of_pos_right hpos) this)

theorem weightedSum_eq_mul (bins : List ℕ) {s : ℕ} (hs : ∀ j, bins.getD j 0 ≠ 0 → j = s) :
    ∀ lo len, weightedSum bins lo len = s * countSum bins lo len
  | _, 0 => rfl
  | lo, len + 1 => by
    rw [weightedSum_succ, countSum_succ, Nat.mul_add, weightedSum_eq_mul bins hs (lo + 1) len]
    by_cases h : bins.getD lo 0 = 0
    · simp only [h, Nat.mul_zero]
    · rw [hs lo h]

theorem start_update_finish_one_bin (channel : ℤ) (adcBits : ℕ) (hbits : adcBits < 31)
    (trace : List AdcWord) (hne : trace ≠ []) (hlen : trace.length ≤ 8192)
    (hav : ∀ x ∈ trace, x.toNat ≠ 2 ^ adcBits) (s : ℕ)
    (hs : ∀ x ∈ trace, clampBin (2 ^ adcBits) x = s) :
    ∃ b b', (new defaultNoise).start channel adcBits = .returned b ∧
      (b.update trace).bind finish = some b' ∧ b'.baseline = s := by
  obtain ⟨b, b', hb, hb', hbins, -, hpos, hbl, -⟩ :=
    start_update_finish channel adcBits hbits trace hne hlen hav
  refine ⟨b, b', hb, hb', ?_⟩
  rw [hbl, weightedSum_eq_mul _ (fun j hj => ?_), Nat.mul_div_cancel _ hpos]
  rw [hbins, getD_histogram] at hj
  split_ifs at hj
  · obtain ⟨x, hx, hxj⟩ := List.countP_pos_iff.mp (Nat.pos_of_ne_zero hj)
    simp only [decide_eq_true_eq] at hxj
    rw [← hxj, hs x hx]
  · exact absurd rfl hj

end ChannelBaseline

end PixieSdk
