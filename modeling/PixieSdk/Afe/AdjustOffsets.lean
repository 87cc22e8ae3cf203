import PixieSdk.Afe.LinearFit
import PixieSdk.Afe.Boot

/-! # `afe_dbs::adjust_offsets`

The offset adjustment moves each channel's offset DAC until its baseline lies within the noise
range of its target, a baseline percent of full scale. Each run captures the traces; every
channel with an offset DAC whose baseline is outside the range records the sample
`(baseline, DAC)` in its linear fit and moves its DAC, by a learn step of 200 while the fit
has fewer than two samples and to the fitted line's value at the target after. The loop stops
after a run that moved no DAC, or after 10 runs, and the DAC values are written back to the
OffsetDAC variables. -/

namespace PixieSdk

open AfeM

/-- The per-channel vectors of `adjust_offsets`, one entry per channel: `bl_percents`,
`offsetdacs`, `has_offset_dacs` and `bl_fits`. -/
structure OffsetChannel where
  blPercent : ℚ
  offsetDac : ℤ
  hasOffsetDac : Bool
  fit : LinearFit

/-- `voffset_start_voltage`. -/
def voffsetStartVoltage : ℚ := 0

/-- `dac_slope_learn_steps`. -/
def dacSlopeLearnSteps : ℤ := 200

/-- `linear_fit_samples`. -/
def linearFitSamples : ℤ := 2

/-- `runs`, the cap on the runs of the loop. -/
def runs : ℕ := 10

/-- `adc_target` of a channel: `int((1 << bl.adc_bits) * (bl_percents[chan] / 100))`, the
quotient and the product rounded to `double`. -/
def adcTarget (adcBits : ℕ) (blPercent : ℚ) : Option ℤ := do
  let full ← oneShl adcBits
  truncToInt (toDouble (full * toDouble (blPercent / 100)))

/-- A channel outside the range of its target: the fit records `(baseline, dac)`; below
`linear_fit_samples` samples the DAC takes a learn step (down when the target is above the
baseline), then the fitted line's value at the target. -/
def nextDac (fit : LinearFit) (baseline target dac : ℤ) : Option (LinearFit × ℤ) := do
  let fit ← fit.update baseline dac
  if fit.count < linearFitSamples then
    let dac ← intResult
      (if baseline < target then dac - dacSlopeLearnSteps else dac + dacSlopeLearnSteps)
    pure (fit, dac)
  else
    let fit ← fit.calculate
    let dac ← fit.y target
    pure (fit, dac)

/-- One channel of a run: a channel with an offset DAC whose baseline `baselines[chan]` is
outside the noise range of its target takes its next DAC value and sets it, which makes the
loop run again. -/
def adjustChannel (baselines : List ChannelBaseline) (chan : ℕ) (oc : OffsetChannel) :
    AfeM (OffsetChannel × Bool) := do
  if oc.hasOffsetDac then
    let bl ← ofOption baselines[chan]?
    let target ← ofOption (adcTarget bl.adcBits oc.blPercent)
    if (← ofOption (bl.neInt target)) then
      let next ← ofOption (nextDac oc.fit bl.baseline target oc.offsetDac)
      setDac chan (wordOfInt next.2)
      pure ({ oc with offsetDac := next.2, fit := next.1 }, true)
    else pure (oc, false)
  else pure (oc, false)

/-- The channel loop of a run from channel `chan` on, and whether a channel moved its DAC. -/
def adjustChannels (baselines : List ChannelBaseline) :
    ℕ → List OffsetChannel → AfeM (List OffsetChannel × Bool)
  | _, [] => pure ([], false)
  | chan, oc :: ocs => do
    let first ← adjustChannel baselines chan oc
    let rest ← adjustChannels baselines (chan + 1) ocs
    pure (first.1 :: rest.1, first.2 || rest.2)

/-- One run of the loop: a capture, the channel loop, and the settling wait when a DAC
moved. -/
def adjustRun (env : AfeEnv) (ocs : List OffsetChannel) : AfeM (List OffsetChannel × Bool) := do
  let baselines ← analyzeChannelBaselines env
  let next ← adjustChannels baselines 0 ocs
  if next.2 then waitDacSettlePeriod
  pure next

/-- The loop `for (run = 0; run_again && run < runs; ++run)` with `fuel` runs left. -/
def adjustRuns (env : AfeEnv) : ℕ → List OffsetChannel → AfeM (List OffsetChannel)
  | 0, ocs => pure ocs
  | fuel + 1, ocs => do
    let next ← adjustRun env ocs
    if next.2 then adjustRuns env fuel next.1 else pure next.1

/-- The reads before the loop for channel `chan`: its baseline percent, its OffsetDAC variable
as an `int`, whether its fixture has an offset DAC, and an empty fit. -/
def offsetChannel (chan : ℕ) : AfeM OffsetChannel := do
  let ch ← channel chan
  let dac ← readOffsetDac chan
  let has ← ofExcept (ch.fixture.getBool "HAS_OFFSET_DAC")
  pure ⟨ch.baselinePercent, intOfWord dac, has, LinearFit.new⟩

/-- The write-back: each channel's OffsetDAC variable takes its DAC value. -/
def writeBack (ocs : List OffsetChannel) : AfeM Unit :=
  ocs.enum.forM fun p => writeOffsetDac p.1 (wordOfInt p.2.offsetDac)

/-- `afe_dbs::adjust_offsets`. -/
def adjustOffsets (env : AfeEnv) : AfeM Unit := do
  setChannelVoffset env voffsetStartVoltage 1
  let ocs ← (List.range (← get).channels.length).mapM offsetChannel
  let ocs ← adjustRuns env runs ocs
  writeBack ocs

/-! ### Captures -/

theorem adjustChannel_captures (baselines : List ChannelBaseline) (chan : ℕ)
    (oc : OffsetChannel) : Captures 0 (adjustChannel baselines chan oc) := by
  unfold adjustChannel
  split
  · refine (Captures.ofOption' _).bind_right fun _ => (Captures.ofOption' _).bind_right
      fun _ => (Captures.ofOption' _).bind_right fun ne => ?_
    split
    · exact (Captures.ofOption' _).bind_right fun _ =>
        (setDac_captures _ _).bind_right fun _ => Captures.pure' _
    · exact Captures.pure' _
  · exact Captures.pure' _

theorem adjustChannels_captures (baselines : List ChannelBaseline) :
    ∀ (chan : ℕ) (ocs : List OffsetChannel), Captures 0 (adjustChannels baselines chan ocs)
  | _, [] => Captures.pure' _
  | chan, oc :: ocs => (adjustChannel_captures baselines chan oc).bind_right fun _ =>
      (adjustChannels_captures baselines (chan + 1) ocs).bind_right fun _ => Captures.pure' _

theorem adjustRun_captures (env : AfeEnv) (ocs : List OffsetChannel) :
    Captures 1 (adjustRun env ocs) := by
  refine (analyzeChannelBaselines_captures env).bind_right fun _ =>
    (adjustChannels_captures _ 0 ocs).bind_right fun next => ?_
  split
  · exact waitDacSettlePeriod_captures.bind_right fun _ => Captures.pure' _
  · exact (Captures.pure' _).bind_right fun _ => Captures.pure' _

theorem adjustRuns_captures (env : AfeEnv) :
    ∀ (fuel : ℕ) (ocs : List OffsetChannel), Captures fuel (adjustRuns env fuel ocs)
  | 0, _ => Captures.pure' _
  | fuel + 1, ocs => by
    refine ((adjustRun_captures env ocs).bind fun next => ?_).mono (Nat.add_comm 1 fuel).le
    split
    · exact adjustRuns_captures env fuel _
    · exact (Captures.pure' _).mono (Nat.zero_le _)

theorem adjustOffsets_captures (env : AfeEnv) : Captures runs (adjustOffsets env) :=
  (setChannelVoffset_captures env _ 1).bind_left fun _ => Captures.get'.bind_left fun _ =>
    (Captures.mapM fun _ _ => (channel_captures _).bind_right fun _ =>
      (Captures.get'.bind_right fun _ => Captures.ofOption' _).bind_right fun _ =>
        (Captures.ofExcept' _).bind_right fun _ => Captures.pure' _).bind_left fun _ =>
      (adjustRuns_captures env runs _).bind_right fun _ =>
        Captures.forM fun _ _ => Captures.of_calls fun _ => rfl

/-! ### One channel, the channel loop, one run -/

theorem neInt_eq_some_false {b : ChannelBaseline} {bl : ℤ} :
    b.neInt bl = some false ↔ b.eqInt bl = some true := by
  unfold ChannelBaseline.neInt
  cases b.eqInt bl with
  | none => simp
  | some e => cases e <;> simp

theorem nextDac_same_baseline {baseline dac₀ : ℤ} {fit : LinearFit}
    (h : LinearFit.new.update baseline dac₀ = some fit) (target dac : ℤ) :
    nextDac fit baseline target dac = none := by
  unfold nextDac
  cases h₁ : fit.update baseline dac with
  | none => rfl
  | some f₁ =>
    have hc : f₁.count = 2 := by
      rw [(LinearFit.update_eq_some h₁).1, (LinearFit.update_eq_some h).1]; rfl
    simp [hc, linearFitSamples, LinearFit.calculate_same_x h h₁]

theorem adjustChannel_of_neInt {baselines : List ChannelBaseline} {chan : ℕ} {oc : OffsetChannel}
    {bl : ChannelBaseline} {target : ℤ} (hhas : oc.hasOffsetDac) (hbl : baselines[chan]? = some bl)
    (htarget : adcTarget bl.adcBits oc.blPercent = some target)
    (hne : bl.neInt target = some true) :
    adjustChannel baselines chan oc = (do
      let next ← ofOption (nextDac oc.fit bl.baseline target oc.offsetDac)
      setDac chan (wordOfInt next.2)
      pure ({ oc with offsetDac := next.2, fit := next.1 }, true)) := by
  simp [adjustChannel, hhas, hbl, htarget, hne]

theorem adjustChannel_cases {baselines : List ChannelBaseline} {chan : ℕ}
    {oc oc' : OffsetChannel} {changed : Bool} {m m' : AfeModule}
    (h : adjustChannel baselines chan oc m = (m', .returned (oc', changed))) :
    (m' = m ∧ oc' = oc ∧ changed = false ∧ (oc.hasOffsetDac →
      ∃ bl target, baselines[chan]? = some bl ∧ adcTarget bl.adcBits oc.blPercent = some target ∧
        bl.eqInt target = some true)) ∨
    (m' = { m with calls := m.calls ++ [.setDac chan (wordOfInt oc'.offsetDac)] } ∧
      changed = true ∧ oc'.blPercent = oc.blPercent ∧ oc'.hasOffsetDac = oc.hasOffsetDac) := by
  unfold adjustChannel at h
  split at h
  case isTrue hhas =>
    simp only [bind_eq_returned, ofOption_eq_returned] at h
    obtain ⟨_, bl, ⟨hbl, rfl⟩, _, target, ⟨htarget, rfl⟩, _, ne, ⟨hne, rfl⟩, h⟩ := h
    split at h
    case isTrue hmove =>
      rw [bind_eq_returned] at h
      obtain ⟨_, next, h₁, h⟩ := h
      obtain ⟨-, rfl⟩ := ofOption_eq_returned.mp h₁
      rw [bind_eq_returned] at h
      obtain ⟨_, _, h₂, h⟩ := h
      obtain ⟨-, -, rfl⟩ := setDac_eq_returned.mp h₂
      simp only [pure_apply, Prod.mk.injEq, Exit.returned.injEq] at h
      obtain ⟨rfl, rfl, rfl⟩ := h
      exact .inr ⟨rfl, rfl, rfl, rfl⟩
    case isFalse hstay =>
      simp only [pure_apply, Prod.mk.injEq, Exit.returned.injEq, Bool.not_eq_true] at h hstay
      obtain ⟨rfl, rfl, rfl⟩ := h
      exact .inl ⟨rfl, rfl, rfl, fun _ =>
        ⟨bl, target, hbl, htarget, neInt_eq_some_false.mp (hstay ▸ hne)⟩⟩
  case isFalse hhas =>
    simp only [pure_apply, Prod.mk.injEq, Exit.returned.injEq] at h
    obtain ⟨rfl, rfl, rfl⟩ := h
    exact .inl ⟨rfl, rfl, rfl, fun h => absurd h hhas⟩

theorem adjustChannel_returned {baselines : List ChannelBaseline} {chan : ℕ}
    {oc oc' : OffsetChannel} {changed : Bool} {m m' : AfeModule}
    (h : adjustChannel baselines chan oc m = (m', .returned (oc', changed))) :
    ∃ w, m' = { m with calls := m.calls ++ w } ∧ w.count .getTraces = 0 ∧
      (∀ c, c ≠ chan → writesTo (.dac c) w = []) ∧
      oc'.blPercent = oc.blPercent ∧ oc'.hasOffsetDac = oc.hasOffsetDac ∧
      (writesTo (.dac chan) w = [] ∧ oc' = oc ∨ writesTo (.dac chan) w = [wordOfInt oc'.offsetDac]) ∧
      (changed = false → w = [] ∧ (oc.hasOffsetDac →
        ∃ bl target, baselines[chan]? = some bl ∧ adcTarget bl.adcBits oc.blPercent = some target ∧
          bl.eqInt target = some true)) := by
  rcases adjustChannel_cases h with ⟨rfl, rfl, rfl, hin⟩ | ⟨rfl, rfl, hbl, hhas⟩
  · exact ⟨[], by simp, rfl, fun _ _ => rfl, rfl, rfl, .inl ⟨rfl, rfl⟩, fun _ => ⟨rfl, hin⟩⟩
  · exact ⟨_, rfl, rfl, fun c hc => by simp [Ne.symm hc], hbl, hhas, .inr (by simp),
      fun h => absurd h (by simp)⟩

theorem adjustChannels_returned {baselines : List ChannelBaseline} :
    ∀ {chan : ℕ} {ocs ocs' : List OffsetChannel} {changed : Bool} {m m' : AfeModule},
      adjustChannels baselines chan ocs m = (m', .returned (ocs', changed)) →
      ∃ w, m' = { m with calls := m.calls ++ w } ∧ w.count .getTraces = 0 ∧
        ocs'.length = ocs.length ∧ (∀ c, c < chan → writesTo (.dac c) w = []) ∧
        (∀ j oc oc', ocs[j]? = some oc → ocs'[j]? = some oc' →
          oc'.blPercent = oc.blPercent ∧ oc'.hasOffsetDac = oc.hasOffsetDac ∧
          (writesTo (.dac (chan + j)) w = [] ∧ oc' = oc ∨
            writesTo (.dac (chan + j)) w = [wordOfInt oc'.offsetDac])) ∧
        (changed = false → w = [] ∧ ∀ j oc, ocs[j]? = some oc → oc.hasOffsetDac →
          ∃ bl target, baselines[chan + j]? = some bl ∧
            adcTarget bl.adcBits oc.blPercent = some target ∧ bl.eqInt target = some true)
  | chan, [], ocs', changed, m, m', h => by
    simp only [adjustChannels, pure_apply, Prod.mk.injEq, Exit.returned.injEq] at h
    obtain ⟨rfl, rfl, rfl⟩ := h
    exact ⟨[], by simp, rfl, rfl, fun _ _ => rfl, by simp, fun _ => ⟨rfl, by simp⟩⟩
  | chan, oc :: ocs, _, _, m, _, h => by
    simp only [adjustChannels, bind_eq_returned, pure_apply, Prod.mk.injEq,
      Exit.returned.injEq] at h
    obtain ⟨_, ⟨oc₁, c₁⟩, h₁, _, ⟨ocs₁, c₂⟩, h₂, rfl, rfl, rfl⟩ := h
    obtain ⟨w₁, rfl, hcount₁, hother₁, hbl₁, hhas₁, hdac₁, hstay₁⟩ := adjustChannel_returned h₁
    obtain ⟨w₂, rfl, hcount₂, hlen₂, hlow₂, heach₂, hstay₂⟩ := adjustChannels_returned h₂
    refine ⟨w₁ ++ w₂, by simp, by simp [hcount₁, hcount₂], by simp [hlen₂],
      fun c hc => by simp [hother₁ c (by omega), hlow₂ c (by omega)], ?_, ?_⟩
    · rintro (_ | j) oc oc' hj hj'
      · simp only [List.getElem?_cons_zero, Option.some.injEq] at hj hj'
        subst hj hj'
        simpa [writesTo_append, hlow₂ chan (Nat.lt_succ_self _)] using ⟨hbl₁, hhas₁, hdac₁⟩
      · simp only [List.getElem?_cons_succ] at hj hj'
        rw [show chan + (j + 1) = chan + 1 + j by omega, writesTo_append,
          hother₁ _ (by omega), List.nil_append]
        exact heach₂ j oc oc' hj hj'
    · intro hc
      simp only [Bool.or_eq_false_iff] at hc
      obtain ⟨rfl, hrest₁⟩ := hstay₁ hc.1
      obtain ⟨rfl, hrest₂⟩ := hstay₂ hc.2
      refine ⟨rfl, ?_⟩
      rintro (_ | j) oc hj hhas
      · simp only [List.getElem?_cons_zero, Option.some.injEq] at hj
        subst hj
        simpa using hrest₁ hhas
      · simp only [List.getElem?_cons_succ] at hj
        simpa [show chan + (j + 1) = chan + 1 + j by omega] using hrest₂ j oc hj hhas

/-! ### The runs -/

/-- The loop's per-channel values agree with the channels `chs` and the calls `new` made since
the start: one entry per channel, each with its channel's baseline percent and offset-DAC flag,
and with the value last written to its channel's DAC among `new`. -/
structure Adjusted (chs : List AfeChannel) (new : List AfeCall) (ocs : List OffsetChannel) :
    Prop where
  length : ocs.length = chs.length
  reads : ∀ (chan : ℕ) (oc : OffsetChannel), ocs[chan]? = some oc → ∃ ch, chs[chan]? = some ch ∧
    oc.blPercent = ch.baselinePercent ∧ ch.fixture.getBool "HAS_OFFSET_DAC" = .ok oc.hasOffsetDac
  dacs : ∀ (chan : ℕ) (oc : OffsetChannel), ocs[chan]? = some oc →
    (writesTo (.dac chan) new).getLast? = some (wordOfInt oc.offsetDac)

/-- The capture made after the calls `calls` found every channel with an offset DAC within the
noise range of its target. -/
def InRange (env : AfeEnv) (chs : List AfeChannel) (calls : List AfeCall) : Prop :=
  ∃ started traces bls, startBaselines 0 chs = .returned started ∧
    captureTraces env calls chs = .ok traces ∧ analyzeTraces started traces = some bls ∧
    ∀ (chan : ℕ) (ch : AfeChannel) (b : ChannelBaseline), chs[chan]? = some ch →
      bls[chan]? = some b → ch.fixture.getBool "HAS_OFFSET_DAC" = .ok true →
      ∃ target, adcTarget b.adcBits ch.baselinePercent = some target ∧ b.eqInt target = some true

theorem Adjusted.of_channel {chs : List AfeChannel} {new : List AfeCall}
    {ocs : List OffsetChannel} {chan : ℕ} {ch : AfeChannel} (hadj : Adjusted chs new ocs)
    (hch : chs[chan]? = some ch) :
    ∃ oc, ocs[chan]? = some oc ∧ oc.blPercent = ch.baselinePercent ∧
      ch.fixture.getBool "HAS_OFFSET_DAC" = .ok oc.hasOffsetDac := by
  have hlt : chan < ocs.length := hadj.length ▸ (List.getElem?_eq_some_iff.mp hch).1
  obtain ⟨ch', hch', hbl, hhas⟩ := hadj.reads chan _ (List.getElem?_eq_getElem hlt)
  obtain rfl : ch' = ch := Option.some.inj (hch'.symm.trans hch)
  exact ⟨_, List.getElem?_eq_getElem hlt, hbl, hhas⟩

theorem adjustRun_returned {env : AfeEnv} {ocs ocs' : List OffsetChannel} {again : Bool}
    {m m' : AfeModule} {new : List AfeCall} (hadj : Adjusted m.channels new ocs)
    (h : adjustRun env ocs m = (m', .returned (ocs', again))) :
    ∃ w, m' = { m with calls := m.calls ++ [.getTraces] ++ w } ∧ w.count .getTraces = 0 ∧
      Adjusted m.channels (new ++ [.getTraces] ++ w) ocs' ∧
      (again = false → w = [] ∧ InRange env m.channels (m.calls ++ [.getTraces])) := by
  simp only [adjustRun, bind_eq_returned] at h
  obtain ⟨_, bls, hbls, m₂, ⟨ocs₁, c⟩, hloop, h⟩ := h
  obtain ⟨rfl, rfl, rfl⟩ : m' = m₂ ∧ ocs' = ocs₁ ∧ again = c := by
    split at h
    · obtain ⟨m₃, _, hwait, hret⟩ := bind_eq_returned.mp h
      obtain rfl : m₃ = m₂ := (congrArg Prod.fst hwait).symm.trans (waitDacSettlePeriod_fst m₂)
      simp only [pure_apply, Prod.mk.injEq, Exit.returned.injEq] at hret
      exact ⟨hret.1.symm, hret.2.1.symm, hret.2.2.symm⟩
    · simp only [pure_bind_apply, pure_apply, Prod.mk.injEq, Exit.returned.injEq] at h
      exact ⟨h.1.symm, h.2.1.symm, h.2.2.symm⟩
  obtain ⟨started, traces, hstart, hcap, han, rfl⟩ := analyzeChannelBaselines_eq_returned.mp hbls
  obtain ⟨w, rfl, hcount, hlen, -, heach, hstay⟩ := adjustChannels_returned hloop
  have hget : ∀ chan oc', ocs'[chan]? = some oc' → ∃ oc, ocs[chan]? = some oc := fun chan _ h =>
    ⟨_, List.getElem?_eq_getElem (hlen ▸ (List.getElem?_eq_some_iff.mp h).1)⟩
  refine ⟨w, rfl, hcount, ⟨hlen.trans hadj.length, fun chan oc' hoc' => ?_,
    fun chan oc' hoc' => ?_⟩, fun hc => ⟨(hstay hc).1, started, traces, bls, hstart, hcap, han,
      fun chan ch b hch hb hhas => ?_⟩⟩
  · obtain ⟨oc, hoc⟩ := hget chan oc' hoc'
    obtain ⟨hbl, hhas, -⟩ := heach chan oc oc' hoc hoc'
    simpa [hbl, hhas] using hadj.reads chan oc hoc
  · obtain ⟨oc, hoc⟩ := hget chan oc' hoc'
    obtain ⟨-, -, ⟨hw, rfl⟩ | hw⟩ := heach chan oc oc' hoc hoc' <;> rw [Nat.zero_add] at hw
    · simpa only [writesTo_append, writesTo_getTraces, hw, List.append_nil] using
        hadj.dacs chan oc' hoc
    · rw [writesTo_append, hw, List.getLast?_concat]
  · obtain ⟨oc, hoc, hbl, hhas'⟩ := hadj.of_channel hch
    obtain ⟨bl, target, hbl', htarget, heq⟩ :=
      (hstay hc).2 chan oc hoc (by simpa [hhas] using hhas'.symm)
    rw [Nat.zero_add, hb] at hbl'
    obtain rfl := Option.some.inj hbl'
    exact ⟨target, hbl ▸ htarget, heq⟩

theorem adjustRuns_returned (env : AfeEnv) :
    ∀ (fuel : ℕ) {ocs ocs' : List OffsetChannel} {m m' : AfeModule} {new : List AfeCall},
      adjustRuns env fuel ocs m = (m', .returned ocs') → Adjusted m.channels new ocs →
      ∃ more, m' = { m with calls := m.calls ++ more } ∧ Adjusted m.channels (new ++ more) ocs' ∧
        more.count .getTraces ≤ fuel ∧
        (more.count .getTraces < fuel → ∃ pre, more = pre ++ [.getTraces] ∧
          InRange env m.channels (m.calls ++ pre ++ [.getTraces]))
  | 0, _, _, _, _, _, h, hadj => by
    simp only [adjustRuns, pure_apply, Prod.mk.injEq, Exit.returned.injEq] at h
    obtain ⟨rfl, rfl⟩ := h
    exact ⟨[], by simp, by simpa using hadj, by simp, fun h => absurd h (Nat.not_lt_zero _)⟩
  | fuel + 1, _, _, m, _, _, h, hadj => by
    rw [adjustRuns, bind_eq_returned] at h
    obtain ⟨_, ⟨ocs₁, again⟩, hrun, h⟩ := h
    obtain ⟨w, rfl, hcount, hadj₁, hstop⟩ := adjustRun_returned hadj hrun
    cases again with
    | true =>
      rw [if_pos rfl] at h
      obtain ⟨more, rfl, hadj', hle, hlast⟩ := adjustRuns_returned env fuel h hadj₁
      have hcount' : ([AfeCall.getTraces] ++ w ++ more).count .getTraces =
          more.count .getTraces + 1 := by
        simp [hcount, Nat.add_comm]
      refine ⟨[.getTraces] ++ w ++ more, by simp, by simpa using hadj', by omega, fun hlt => ?_⟩
      obtain ⟨pre, rfl, hin⟩ := hlast (by omega)
      exact ⟨[.getTraces] ++ w ++ pre, by simp, by simpa using hin⟩
    | false =>
      rw [if_neg Bool.false_ne_true] at h
      simp only [pure_apply, Prod.mk.injEq, Exit.returned.injEq] at h
      obtain ⟨rfl, rfl⟩ := h
      obtain ⟨rfl, hin⟩ := hstop rfl
      exact ⟨[.getTraces], by simp, by simpa using hadj₁, by simp, fun _ => ⟨[], rfl, by simpa using hin⟩⟩

/-! ### The whole adjustment -/

/-- The entry `oc` that the reads before the loop give for channel `chan` of the module `m`. -/
def ReadFrom (m : AfeModule) (chan : ℕ) (oc : OffsetChannel) : Prop :=
  ∃ ch w, m.channels[chan]? = some ch ∧ m.offsetDacs[chan]? = some w ∧
    oc.blPercent = ch.baselinePercent ∧ oc.offsetDac = intOfWord w ∧
    ch.fixture.getBool "HAS_OFFSET_DAC" = .ok oc.hasOffsetDac

theorem offsetChannel_returned {chan : ℕ} {oc : OffsetChannel} {m m' : AfeModule}
    (h : offsetChannel chan m = (m', .returned oc)) : m' = m ∧ ReadFrom m chan oc := by
  simp only [offsetChannel, bind_eq_returned, ofExcept_eq_returned, pure_apply, Prod.mk.injEq,
    Exit.returned.injEq] at h
  obtain ⟨_, ch, hch, _, w, hw, _, has, ⟨hhas, rfl⟩, rfl, rfl⟩ := h
  obtain ⟨hch, rfl⟩ := channel_eq_returned.mp hch
  obtain ⟨hw, rfl⟩ := readOffsetDac_eq_returned.mp hw
  exact ⟨rfl, ch, w, hch, hw, rfl, rfl, hhas⟩

theorem adjusted_start {m : AfeModule} {ocs : List OffsetChannel}
    (h : List.Forall₂ (ReadFrom m) (List.range m.channels.length) ocs) :
    Adjusted m.channels (dacCalls (m.offsetDacs.take m.channels.length)) ocs ∧
      ∀ chan < m.channels.length, chan < m.offsetDacs.length := by
  have hlen : ocs.length = m.channels.length := by simpa using h.length_eq.symm
  have hread : ∀ chan oc, ocs[chan]? = some oc → ReadFrom m chan oc := fun chan oc hoc => by
    obtain ⟨hlt, rfl⟩ := List.getElem?_eq_some_iff.mp hoc
    simpa using (List.forall₂_iff_get.mp h).2 chan (h.length_eq ▸ hlt) hlt
  refine ⟨⟨hlen, fun chan oc hoc => ?_, fun chan oc hoc => ?_⟩, fun chan hchan => ?_⟩
  · obtain ⟨ch, -, hch, -, hbl, -, hhas⟩ := hread chan oc hoc
    exact ⟨ch, hch, hbl, hhas⟩
  · obtain ⟨ch, w, hch, hw, -, hdac, -⟩ := hread chan oc hoc
    rw [writesTo_dacCalls_take, if_pos (List.getElem?_eq_some_iff.mp hch).1, hw, hdac,
      wordOfInt_intOfWord]
    rfl
  · obtain ⟨ch, w, -, hw, -⟩ := hread chan _ (List.getElem?_eq_getElem (hlen ▸ hchan))
    exact (List.getElem?_eq_some_iff.mp hw).1

theorem writeBack_eq (ocs : List OffsetChannel) (m : AfeModule) :
    writeBack ocs m = ({ m with offsetDacs := (ocs.enum.foldl
      (fun ws p => ws.set p.1 (wordOfInt p.2.offsetDac)) m.offsetDacs) }, .returned ()) := by
  rw [writeBack, show (fun p : ℕ × OffsetChannel => writeOffsetDac p.1 (wordOfInt p.2.offsetDac)) =
    fun p => modify _ from rfl, forM_modify, foldl_writeOffsetDac]

theorem getElem?_foldl_set_enumFrom_lt (f : OffsetChannel → Word) :
    ∀ (l : List OffsetChannel) (k : ℕ) (ws : List Word) (i : ℕ), i < k →
      ((l.enumFrom k).foldl (fun ws p => ws.set p.1 (f p.2)) ws)[i]? = ws[i]?
  | [], _, _, _, _ => rfl
  | _ :: l, k, ws, i, hi => by
    rw [List.enumFrom_cons, List.foldl_cons, getElem?_foldl_set_enumFrom_lt f l (k + 1) _ i
      (by omega), List.getElem?_set_ne (by omega)]

theorem getElem?_foldl_set_enumFrom (f : OffsetChannel → Word) :
    ∀ (l : List OffsetChannel) (k : ℕ) (ws : List Word) (j : ℕ) (oc : OffsetChannel),
      l[j]? = some oc → k + j < ws.length →
      ((l.enumFrom k).foldl (fun ws p => ws.set p.1 (f p.2)) ws)[k + j]? = some (f oc)
  | [], _, _, _, _, h, _ => by simp at h
  | _ :: l, k, ws, 0, _, h, hk => by
    rw [List.getElem?_cons_zero, Option.some.injEq] at h
    subst h
    rw [List.enumFrom_cons, List.foldl_cons, show k + 0 = k from rfl,
      getElem?_foldl_set_enumFrom_lt f l (k + 1) _ k (by omega), List.getElem?_set_self (by omega)]
  | _ :: l, k, ws, j + 1, oc, h, hk => by
    rw [List.getElem?_cons_succ] at h
    rw [List.enumFrom_cons, List.foldl_cons, show k + (j + 1) = k + 1 + j by omega]
    exact getElem?_foldl_set_enumFrom f l (k + 1) _ j oc h (by rw [List.length_set]; omega)

/-- `adjust_offsets` captures at most `runs` times on every exit. On return each OffsetDAC variable
is the last value written to its DAC, and a loop that stopped before its cap last captured every
channel within range. -/
theorem adjustOffsets_offsetDacs_last_written (env : AfeEnv) (m : AfeModule) :
    Captures runs (adjustOffsets env) ∧
    ∀ m', adjustOffsets env m = (m', .returned ()) →
      ∃ new, m'.calls = m.calls ++ new ∧
        (∀ chan < m.channels.length, (writesTo (.dac chan) new).getLast? = m'.offsetDacs[chan]?) ∧
        (new.count .getTraces < runs → ∃ pre, new = pre ++ [.getTraces] ∧
          InRange env m.channels (m.calls ++ pre ++ [.getTraces])) := by
  refine ⟨adjustOffsets_captures env, fun m' h => ?_⟩
  simp only [adjustOffsets, bind_eq_returned, get_bind_apply] at h
  obtain ⟨m₁, _, hv, m₂, ocs, hocs, m₃, ocs', hruns, hwb⟩ := h
  obtain rfl := setChannelVoffset_eq_returned hv
  obtain ⟨rfl, hread⟩ := returned_of_mapM (fun _ _ _ _ => offsetChannel_returned) hocs
  obtain ⟨hstart, hwords⟩ := adjusted_start hread
  obtain ⟨more, rfl, hadj, -, hlast⟩ := adjustRuns_returned env runs hruns hstart
  obtain ⟨rfl, -⟩ := Prod.mk.inj ((writeBack_eq ocs' _).symm.trans hwb)
  refine ⟨_ ++ more, List.append_assoc _ _ _, fun chan hchan => ?_, fun hlt => ?_⟩
  · obtain ⟨oc, hoc⟩ : ∃ oc, ocs'[chan]? = some oc :=
      ⟨_, List.getElem?_eq_getElem (hadj.length ▸ hchan)⟩
    have := getElem?_foldl_set_enumFrom (fun oc => wordOfInt oc.offsetDac) ocs' 0 _ chan oc hoc
      (by simpa using hwords chan hchan)
    rw [Nat.zero_add] at this
    exact (hadj.dacs chan oc hoc).trans this.symm
  · rw [List.count_append, count_getTraces_dacCalls, Nat.zero_add] at hlt
    obtain ⟨pre, rfl, hin⟩ := hlast hlt
    exact ⟨_ ++ pre, (List.append_assoc _ _ _).symm, by simpa using hin⟩

/-! ### A railed channel

The one DB04 channel of `oneDb`, 8-bit with a baseline percent of 0, whose baseline reads 100
whatever its DAC: each run of `adjust_offsets` on it, stated for every call history. -/

section OneDb

variable (env : AfeEnv) {β : Type} {s : AdcSwapState} (calls : List AfeCall)

theorem setDac_oneDb {w : Word} (hw : w.toNat ≤ 65535) (f : Unit → AfeM β) :
    (setDac 0 w >>= f) (oneDb s calls) = f () (oneDb s (calls ++ [.setDac 0 w])) :=
  bind_of_returned (setDac_eq_returned.mpr ⟨⟨_, rfl, rfl⟩, hw, rfl⟩)

theorem waitDacSettlePeriod_oneDb (f : Unit → AfeM β) :
    (waitDacSettlePeriod >>= f) (oneDb s calls) = f () (oneDb s calls) :=
  bind_of_returned (waitDacSettlePeriod_eq (by simp [Fixture.isDb04]))

theorem offsetChannels_oneDb (f : List OffsetChannel → AfeM β) :
    ((List.range 1).mapM offsetChannel >>= f) (oneDb s calls) =
      f [⟨0, 0, true, LinearFit.new⟩] (oneDb s calls) :=
  bind_of_returned rfl

theorem adjustRun_oneDb_move {trace : List AdcWord} {b b' : ChannelBaseline} {oc : OffsetChannel}
    {target : ℤ} {next : LinearFit × ℤ}
    (hacq : env.acquire (calls ++ [.getTraces]) 0 = .ok trace)
    (hb : (ChannelBaseline.new ChannelBaseline.defaultNoise).start 0 8 = .returned b)
    (hb' : (b.update trace).bind ChannelBaseline.finish = some b')
    (hhas : oc.hasOffsetDac) (htarget : adcTarget b'.adcBits oc.blPercent = some target)
    (hne : b'.neInt target = some true)
    (hnext : nextDac oc.fit b'.baseline target oc.offsetDac = some next)
    (hw : (wordOfInt next.2).toNat ≤ 65535) :
    adjustRun env [oc] (oneDb s calls) =
      (oneDb s (calls ++ [.getTraces] ++ [.setDac 0 (wordOfInt next.2)]),
        .returned ([{ oc with offsetDac := next.2, fit := next.1 }], true)) := by
  simp only [adjustRun, analyzeChannelBaselines_oneDb env calls hacq hb hb', adjustChannels,
    bind_assoc, adjustChannel_of_neInt hhas (show [b'][0]? = some b' from rfl) htarget hne, hnext, ofOption_some,
    pure_bind_apply, setDac_oneDb _ hw, Bool.or_false, if_true, waitDacSettlePeriod_oneDb,
    pure_apply]

theorem adjustRun_oneDb_undefined {trace : List AdcWord} {b b' : ChannelBaseline}
    {oc : OffsetChannel} {target : ℤ}
    (hacq : env.acquire (calls ++ [.getTraces]) 0 = .ok trace)
    (hb : (ChannelBaseline.new ChannelBaseline.defaultNoise).start 0 8 = .returned b)
    (hb' : (b.update trace).bind ChannelBaseline.finish = some b')
    (hhas : oc.hasOffsetDac) (htarget : adcTarget b'.adcBits oc.blPercent = some target)
    (hne : b'.neInt target = some true)
    (hnext : nextDac oc.fit b'.baseline target oc.offsetDac = none) :
    adjustRun env [oc] (oneDb s calls) = (oneDb s (calls ++ [.getTraces]), .undefined) := by
  simp only [adjustRun, analyzeChannelBaselines_oneDb env calls hacq hb hb', adjustChannels,
    bind_assoc, adjustChannel_of_neInt hhas (show [b'][0]? = some b' from rfl) htarget hne, hnext, ofOption_none,
    undefined_bind_apply]

theorem adjustOffsets_oneDb (henv : ∀ v, env.voffsetDac v = 0) :
    adjustOffsets env (oneDb s calls) =
      (adjustRuns env runs [⟨0, 0, true, LinearFit.new⟩] >>= writeBack)
        (oneDb s (calls ++ [.setDac 0 0])) := by
  simp only [adjustOffsets, setChannelVoffset_oneDb env _ henv, get_bind_apply, oneDb_channels,
    List.length_singleton, offsetChannels_oneDb]

end OneDb

/-- Hardware on which channel 0's baseline reads a flat trace at 100 whatever its DAC, as on a
railed input; its voltage offsets are all word 0. -/
def railedBaseline : AfeEnv :=
  ⟨fun _ => 0, fun _ _ => .ok [100], fun _ => .ok ()⟩

/-- A channel whose baseline does not move with its DAC: the first run takes the learn step
to 200, and the second records the same baseline again, so the fit's divisor is zero and
`adjust_offsets` is undefined before it writes the OffsetDAC variables back. -/
theorem adjustOffsets_railed_baseline :
    ∃ started b, startBaselines 0 (oneDb .unswapped []).channels = .returned started ∧
      analyzeTraces started [[100]] = some [b] ∧ b.baseline = 100 ∧
      adjustOffsets railedBaseline (oneDb .unswapped []) =
        (oneDb .unswapped [.setDac 0 0, .getTraces, .setDac 0 200, .getTraces], .undefined) := by
  obtain ⟨b, b₀, hb, hb₀, hbl₀⟩ := ChannelBaseline.start_update_finish_one_bin 0 8 (by norm_num)
    [100] (by simp) (by simp) (by decide) 100 (by decide)
  obtain ⟨-, hbits, hnoise⟩ := ChannelBaseline.start_config hb
  obtain ⟨-, hbits₀, hnoise₀⟩ := ChannelBaseline.update_finish_config hb₀
  have hrange : b₀.noiseRange = 1 := by
    rw [ChannelBaseline.noiseRange_defaultNoise (by
      rw [hnoise₀, hnoise, ChannelBaseline.new_noisePercent (by norm_num [ChannelBaseline.defaultNoise])
        (by norm_num [ChannelBaseline.defaultNoise])]), hbits₀, hbits]
    norm_num [Int.floor_eq_iff]
  have htarget : adcTarget b₀.adcBits 0 = some 0 := by
    rw [hbits₀, hbits]; simp [adcTarget, oneShl, truncToInt, truncQ, intResult_of_le, intMin, intMax]
  have hne : b₀.neInt 0 = some true := by
    rw [ChannelBaseline.neInt, ChannelBaseline.eqInt, hrange, hbl₀]; decide
  obtain ⟨fit, hfit⟩ : ∃ fit, LinearFit.new.update 100 0 = some fit := ⟨_, rfl⟩
  have hlearn : nextDac LinearFit.new 100 0 0 = some (fit, 200) := by
    have hc : fit.count = 1 := (LinearFit.update_eq_some hfit).1
    simp [nextDac, hfit, hc, linearFitSamples, dacSlopeLearnSteps, intResult_of_le, intMin, intMax]
  have hrun₁ : adjustRun railedBaseline [⟨0, 0, true, LinearFit.new⟩]
      (oneDb .unswapped ([] ++ [.setDac 0 0])) = _ :=
    adjustRun_oneDb_move railedBaseline _ (by rfl) hb hb₀ rfl htarget hne
      (by rw [hbl₀]; exact hlearn) (by exact (show (wordOfInt 200).toNat ≤ 65535 by decide))
  have hrun₂ : adjustRun railedBaseline [⟨0, 200, true, fit⟩]
      (oneDb .unswapped ([] ++ [.setDac 0 0] ++ [.getTraces] ++ [.setDac 0 (wordOfInt 200)])) = _ :=
    adjustRun_oneDb_undefined railedBaseline _ (by rfl) hb hb₀ rfl htarget hne
      (by rw [hbl₀]; exact nextDac_same_baseline hfit 0 200)
  have hruns : adjustRuns railedBaseline 10 [⟨0, 0, true, LinearFit.new⟩]
      (oneDb .unswapped ([] ++ [.setDac 0 0])) = (oneDb .unswapped ([] ++ [.setDac 0 0] ++
        [.getTraces] ++ [.setDac 0 (wordOfInt 200)] ++ [.getTraces]), .undefined) := by
    simp only [adjustRuns, bind_of_returned hrun₁, reduceIte, bind_of_undefined hrun₂]
  refine ⟨[b], b₀, (startBaselines_cons hb).trans rfl, by rw [analyzeTraces_singleton, hb₀]; rfl,
    hbl₀, ?_⟩
  rw [adjustOffsets_oneDb railedBaseline [] (fun _ => rfl), runs, bind_of_undefined hruns]
  rfl


end PixieSdk
