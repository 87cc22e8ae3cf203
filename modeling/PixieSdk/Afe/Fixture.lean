import PixieSdk.Afe.State

/-! # The AFE fixture operations

The operations of `afe_dbs` and its channel fixtures that `boot` and `adjust_offsets` are made
of: setting the offset DACs, waiting for them to settle, moving the channels' voltage offsets,
capturing traces and analysing their baselines. Each operation has its spec lemma, the exact
result on DB04 channels or what it leaves on return, and its bound on captures; the callers
cite those and never unfold an operation. -/

namespace PixieSdk

open AfeM

/-- Channel `chan` of the module; indexing past the channels is undefined. -/
def channel (chan : ℕ) : AfeM AfeChannel := do
  ofOption (← get).channels[chan]?

/-- Modelled from the spec (`module.cpp` is not part of the sources):
`module::read_var(OffsetDAC, chan)`, the channel's OffsetDAC variable. -/
def readOffsetDac (chan : ℕ) : AfeM Word := do
  ofOption (← get).offsetDacs[chan]?

/-- Modelled from the spec (`module.cpp` is not part of the sources):
`module::write_var(OffsetDAC, value, chan)`. -/
def writeOffsetDac (chan : ℕ) (value : Word) : AfeM Unit :=
  modify fun m => { m with offsetDacs := m.offsetDacs.set chan value }

/-- The channel fixture's `set_dac(value)`: DB04 rejects a value past its 16-bit DAC, then
selects its DB's port and writes the CFG_DAC command for the channel; the motherboard fixture
leaves the DACs to the DSP. The module label that prefixes the DB04 message is left out. -/
def setDac (chan : ℕ) (value : Word) : AfeM Unit := do
  match (← channel chan).fixture with
  | .motherboard => raise (unsupportedOp "set DAC is using the DSP")
  | .db04 .. =>
    if 65535 < value.toNat then
      raise (.pixie .invalidValue ("invalid DAC offset: channel=" ++ toString chan))
    else record (.setDac chan value)

/-- `wait_dac_settle_period`: every channel's settling period is read; the wait changes
nothing. -/
def waitDacSettlePeriod : AfeM Unit := do
  let _ ← ofExcept ((← get).channels.mapM (·.fixture.getInt "DAC_SETTLE_PERIOD"))

/-- The loop body of `afe_dbs::set_dacs`: the channel's DAC is set to its OffsetDAC variable. -/
def setDacToVar (chan : ℕ) : AfeM Unit := do
  setDac chan (← readOffsetDac chan)

/-- `afe_dbs::set_dacs`: each channel's DAC is set to its OffsetDAC variable. -/
def setDacs : AfeM Unit := do
  (List.range (← get).channels.length).forM setDacToVar

/-- Modelled from the spec (`channel.cpp` is not part of the sources): `channel::voffset(v)`
sets the channel's OffsetDAC variable to the word for the voltage `v`. -/
def voffset (env : AfeEnv) (v : ℚ) (chan : ℕ) : AfeM Unit :=
  writeOffsetDac chan (env.voffsetDac v)

/-- `set_channel_voffset(mod, voffset, step)`: every `step`-th channel from 0 takes the
voltage offset, then the DACs are set and their settling period waited. -/
def setChannelVoffset (env : AfeEnv) (v : ℚ) (step : ℕ) : AfeM Unit := do
  ((List.range (← get).channels.length).filter (· % step = 0)).forM (voffset env v)
  setDacs
  waitDacSettlePeriod

/-- The traces a capture reads: each channel's ADC acquisition in channel order, which the
motherboard fixture leaves to the DSP. -/
def captureTraces (env : AfeEnv) (calls : List AfeCall) (chs : List AfeChannel) :
    Except Exception (List (List AdcWord)) :=
  chs.enum.mapM fun p => match p.2.fixture with
    | .motherboard => .error (unsupportedOp "ADC acquire is using the DSP")
    | .db04 .. => env.acquire calls p.1

/-- `afe_dbs::get_traces` and the reads of `analyze_channel_baselines`. -/
def getTraces (env : AfeEnv) : AfeM (List (List AdcWord)) := do
  record .getTraces
  let m ← get
  ofExcept (captureTraces env m.calls m.channels)

/-- The `start` loop of `analyze_channel_baselines`: a default baseline for each channel from
number `i` on, started with the channel's number and ADC width. -/
def startBaselines (i : ℕ) : List AfeChannel → Exit (List ChannelBaseline)
  | [] => .returned []
  | ch :: chs =>
    match (ChannelBaseline.new ChannelBaseline.defaultNoise).start i ch.adcBits with
    | .returned b => (startBaselines (i + 1) chs).map (b :: ·)
    | .threw e => .threw e
    | .terminated => .terminated
    | .undefined => .undefined

/-- The `update` and `end` loops of `analyze_channel_baselines` on one capture. -/
def analyzeTraces (started : List ChannelBaseline) (traces : List (List AdcWord)) :
    Option (List ChannelBaseline) := do
  let updated ← (started.zip traces).mapM fun p => p.1.update p.2
  updated.mapM ChannelBaseline.finish

/-- `analyze_channel_baselines(mod, baselines)` with one trace. -/
def analyzeChannelBaselines (env : AfeEnv) : AfeM (List ChannelBaseline) := do
  let started ← ofExit (startBaselines 0 (← get).channels)
  let traces ← getTraces env
  ofOption (analyzeTraces started traces)

/-! ### Reads and `set_dac` -/

variable {m m' : AfeModule} {chan : ℕ}

theorem channel_eq_returned {ch : AfeChannel} :
    channel chan m = (m', .returned ch) ↔ m.channels[chan]? = some ch ∧ m' = m := by
  simp only [channel, bind_eq_returned, get_apply, Prod.mk.injEq, Exit.returned.injEq,
    ofOption_eq_returned]
  exact ⟨fun ⟨_, _, ⟨h₁, h₂⟩, h, h'⟩ => by subst h₁ h₂; exact ⟨h, h'⟩,
    fun ⟨h, h'⟩ => ⟨m, m, ⟨rfl, rfl⟩, h, h'⟩⟩

theorem readOffsetDac_eq_returned {w : Word} :
    readOffsetDac chan m = (m', .returned w) ↔ m.offsetDacs[chan]? = some w ∧ m' = m := by
  simp only [readOffsetDac, bind_eq_returned, get_apply, Prod.mk.injEq, Exit.returned.injEq,
    ofOption_eq_returned]
  exact ⟨fun ⟨_, _, ⟨h₁, h₂⟩, h, h'⟩ => by subst h₁ h₂; exact ⟨h, h'⟩,
    fun ⟨h, h'⟩ => ⟨m, m, ⟨rfl, rfl⟩, h, h'⟩⟩

theorem channel_eq {ch : AfeChannel} (h : m.channels[chan]? = some ch) :
    channel chan m = (m, .returned ch) :=
  channel_eq_returned.mpr ⟨h, rfl⟩

theorem setDac_eq {ch : AfeChannel} (h : m.channels[chan]? = some ch) (hdb : ch.fixture.isDb04)
    (value : Word) :
    setDac chan value m =
      if 65535 < value.toNat then
        (m, .threw (.pixie .invalidValue ("invalid DAC offset: channel=" ++ toString chan)))
      else ({ m with calls := m.calls ++ [.setDac chan value] }, .returned ()) := by
  rcases ch with ⟨_ | ⟨_, _, _⟩, _, _⟩
  · cases hdb
  · simp only [setDac, bind_of_returned (channel_eq h)]
    split <;> rfl

theorem setDac_eq_returned {value : Word} :
    setDac chan value m = (m', .returned ()) ↔
      (∃ ch, m.channels[chan]? = some ch ∧ ch.fixture.isDb04) ∧ value.toNat ≤ 65535 ∧
        m' = { m with calls := m.calls ++ [.setDac chan value] } := by
  rcases hch : m.channels[chan]? with _ | ⟨⟨_ | ⟨_, _, _⟩, _, _⟩⟩
  · simp [setDac, channel, bind_apply, hch]
  · simp [setDac, bind_of_returned (channel_eq hch), Fixture.isDb04]
  · rw [setDac_eq hch rfl]
    split_ifs with hv
    · simp only [Prod.mk.injEq, reduceCtorEq, and_false, false_iff]
      exact fun ⟨_, h, _⟩ => by omega
    · simp only [Prod.mk.injEq, and_true, Option.some.injEq, exists_eq_left', Fixture.isDb04,
        true_and, Nat.le_of_not_lt hv]
      exact eq_comm

theorem setDacToVar_eq_returned :
    setDacToVar chan m = (m', .returned ()) ↔
      (∃ ch, m.channels[chan]? = some ch ∧ ch.fixture.isDb04) ∧
        ∃ w, m.offsetDacs[chan]? = some w ∧ w.toNat ≤ 65535 ∧
          m' = { m with calls := m.calls ++ [.setDac chan w] } := by
  simp only [setDacToVar, bind_eq_returned, readOffsetDac_eq_returned, setDac_eq_returned]
  constructor
  · rintro ⟨_, w, ⟨hw, rfl⟩, hch, hv, rfl⟩
    exact ⟨hch, w, hw, hv, rfl⟩
  · rintro ⟨hch, w, hw, hv, rfl⟩
    exact ⟨_, w, ⟨hw, rfl⟩, hch, hv, rfl⟩

/-! ### `set_dacs` -/

/-- The DAC writes of `set_dacs` for the OffsetDAC words `ws`, channel by channel. -/
def dacCalls (ws : List Word) : List AfeCall :=
  ws.mapIdx fun chan w => .setDac chan w

theorem dacCalls_take_succ {ws : List Word} {k : ℕ} {w : Word} (h : ws[k]? = some w) :
    dacCalls (ws.take (k + 1)) = dacCalls (ws.take k) ++ [.setDac k w] := by
  have hk : k < ws.length := (List.getElem?_eq_some_iff.mp h).1
  simp [dacCalls, List.take_succ, h, List.mapIdx_append, Nat.min_eq_left hk.le]

theorem writesTo_dacCalls_take (ws : List Word) (chan : ℕ) :
    ∀ n, writesTo (.dac chan) (dacCalls (ws.take n)) = if chan < n then ws[chan]?.toList else []
  | 0 => by simp [dacCalls]
  | n + 1 => by
    cases hw : ws[n]? with
    | none =>
      have hn : ws.length ≤ n := List.getElem?_eq_none_iff.mp hw
      rw [show ws.take (n + 1) = ws.take n by
        rw [List.take_of_length_le (by omega), List.take_of_length_le hn],
        writesTo_dacCalls_take ws chan n]
      by_cases hc : chan = n
      · subst hc; simp [hw]
      · simp only [show chan < n + 1 ↔ chan < n by omega]
    | some w =>
      rw [dacCalls_take_succ hw, writesTo_append, writesTo_dacCalls_take ws chan n, writesTo_setDac]
      by_cases hc : chan = n
      · subst hc; simp [hw]
      · simp [show chan < n + 1 ↔ chan < n by omega, Ne.symm hc]

theorem count_getTraces_dacCalls (ws : List Word) : (dacCalls ws).count .getTraces = 0 :=
  List.count_eq_zero.mpr fun h => by
    obtain ⟨_, _, h⟩ := List.mem_mapIdx.mp h
    cases h

theorem setDacs_eq (hdb : ∀ ch ∈ m.channels, ch.fixture.isDb04)
    (hlen : m.channels.length ≤ m.offsetDacs.length) (hv : ∀ w ∈ m.offsetDacs, w.toNat ≤ 65535) :
    setDacs m =
      ({ m with calls := m.calls ++ dacCalls (m.offsetDacs.take m.channels.length) }, .returned ()) := by
  obtain ⟨m', hl, rfl⟩ := forM_range'_returned (f := setDacToVar)
    (I := fun k m' => m' = { m with calls := m.calls ++ dacCalls (m.offsetDacs.take k) })
    0 m.channels.length (m := m) (fun k _ _ hk h => by
      subst h
      replace hk : k < m.channels.length := by omega
      have hch : m.channels[k]? = some m.channels[k] := List.getElem?_eq_getElem hk
      have hw : m.offsetDacs[k]? = some m.offsetDacs[k] := List.getElem?_eq_getElem (by omega)
      refine ⟨_, setDacToVar_eq_returned.mpr ⟨⟨_, hch, hdb _ (List.getElem_mem hk)⟩, _, hw,
        hv _ (List.getElem_mem _), rfl⟩, ?_⟩
      simp [dacCalls_take_succ hw]) (by simp [dacCalls])
  simpa [setDacs, bind_apply, List.range_eq_range'] using hl

theorem setDacs_eq_returned (h : setDacs m = (m', .returned ())) :
    m' = { m with calls := m.calls ++ dacCalls (m.offsetDacs.take m.channels.length) } := by
  simp only [setDacs, bind_of_returned (get_apply m), List.range_eq_range'] at h
  simpa using returned_of_forM_range' (f := setDacToVar)
    (I := fun k m' => m' = { m with calls := m.calls ++ dacCalls (m.offsetDacs.take k) })
    0 m.channels.length (fun k _ _ _ _ hI hk => by
      subst hI
      obtain ⟨_, w, hw, _, rfl⟩ := setDacToVar_eq_returned.mp hk
      simp [dacCalls_take_succ hw]) (by simp [dacCalls]) h

theorem length_le_of_setDacs_returned (h : setDacs m = (m', .returned ())) :
    m.channels.length ≤ m.offsetDacs.length := by
  simp only [setDacs, bind_of_returned (get_apply m), List.range_eq_range'] at h
  simpa using (returned_of_forM_range' (f := setDacToVar)
    (I := fun k m' => m'.offsetDacs = m.offsetDacs ∧ k ≤ m.offsetDacs.length)
    0 m.channels.length (fun k _ _ _ _ hI hk => by
      obtain ⟨_, w, hw, _, rfl⟩ := setDacToVar_eq_returned.mp hk
      exact ⟨hI.1, hI.1 ▸ (List.getElem?_eq_some_iff.mp hw).1⟩) ⟨rfl, Nat.zero_le _⟩ h).2

/-! ### Settling, voltage offsets, captures -/

theorem waitDacSettlePeriod_fst (m : AfeModule) : (waitDacSettlePeriod m).1 = m := by
  simp only [waitDacSettlePeriod, bind_apply, get_apply]
  cases m.channels.mapM (·.fixture.getInt "DAC_SETTLE_PERIOD") <;> rfl

theorem waitDacSettlePeriod_eq (hdb : ∀ ch ∈ m.channels, ch.fixture.isDb04) :
    waitDacSettlePeriod m = (m, .returned ()) := by
  have : ∀ chs : List AfeChannel, (∀ ch ∈ chs, ch.fixture.isDb04) →
      ∃ r, chs.mapM (·.fixture.getInt "DAC_SETTLE_PERIOD") = .ok r := by
    intro chs
    induction chs with
    | nil => exact fun _ => ⟨[], rfl⟩
    | cons ch chs ih =>
      intro h
      obtain ⟨r, hr⟩ := ih fun c hc => h c (List.mem_cons_of_mem _ hc)
      rcases ch with ⟨_ | ⟨_, _, _⟩, _, _⟩
      · cases h _ (List.mem_cons_self _ _)
      · exact ⟨250 :: r, by rw [List.mapM_cons, hr]; rfl⟩
  obtain ⟨r, hr⟩ := this _ hdb
  simp only [waitDacSettlePeriod, bind_apply, get_apply, hr]
  rfl

theorem getElem?_foldl_set (w : Word) :
    ∀ (l : List ℕ) (ws : List Word) (j : ℕ),
      (l.foldl (fun ws i => ws.set i w) ws)[j]? = if j ∈ l then ws[j]?.map fun _ => w else ws[j]?
  | [], _, _ => by simp
  | i :: l, ws, j => by
    rw [List.foldl_cons, getElem?_foldl_set w l, List.getElem?_set]
    by_cases hij : i = j
    · subst hij
      by_cases hi : i < ws.length
      · simp [hi, List.getElem?_eq_getElem hi]
      · simp [hi, List.getElem?_eq_none (Nat.le_of_not_lt hi)]
    · simp [hij, Ne.symm hij]

theorem foldl_writeOffsetDac {γ : Type} (i : γ → ℕ) (v : γ → Word) :
    ∀ (l : List γ) (m : AfeModule),
      l.foldl (fun m a => { m with offsetDacs := m.offsetDacs.set (i a) (v a) }) m =
        { m with offsetDacs := l.foldl (fun ws a => ws.set (i a) (v a)) m.offsetDacs }
  | [], _ => rfl
  | _ :: l, _ => foldl_writeOffsetDac i v l _

/-- The OffsetDAC words after `set_channel_voffset(v, step)` on words `ws` and `n` channels. -/
def voffsetWords (w : Word) (step n : ℕ) (ws : List Word) : List Word :=
  ((List.range n).filter (· % step = 0)).foldl (fun ws i => ws.set i w) ws

theorem voffsetWords_one (w : Word) {ws : List Word} {n : ℕ} (h : ws.length = n) :
    voffsetWords w 1 n ws = List.replicate n w := by
  apply List.ext_getElem?
  intro j
  rw [voffsetWords, getElem?_foldl_set, List.getElem?_replicate]
  by_cases hj : j < n
  · simp [hj, Nat.mod_one, List.getElem?_eq_getElem (h ▸ hj)]
  · simp [hj, List.getElem?_eq_none (by omega : ws.length ≤ j)]

theorem length_voffsetWords (w : Word) (step n : ℕ) (ws : List Word) :
    (voffsetWords w step n ws).length = ws.length := by
  unfold voffsetWords
  induction ((List.range n).filter (· % step = 0)) generalizing ws with
  | nil => rfl
  | cons i l ih => simp [ih]

theorem voffsetWords_le {w : Word} (step n : ℕ) {ws : List Word} (hw : w.toNat ≤ 65535)
    (hv : ∀ x ∈ ws, x.toNat ≤ 65535) : ∀ x ∈ voffsetWords w step n ws, x.toNat ≤ 65535 := by
  intro x hx
  obtain ⟨j, hj⟩ := List.getElem?_of_mem hx
  rw [voffsetWords, getElem?_foldl_set] at hj
  split_ifs at hj
  · obtain ⟨_, _, rfl⟩ := Option.map_eq_some'.mp hj
    exact hw
  · exact hv x (List.mem_iff_getElem?.mpr ⟨j, hj⟩)

theorem voffsetLoop_eq (env : AfeEnv) (v : ℚ) (step : ℕ) (m : AfeModule) :
    ((List.range m.channels.length).filter (· % step = 0)).forM (voffset env v) m =
      ({ m with offsetDacs := voffsetWords (env.voffsetDac v) step m.channels.length m.offsetDacs },
        .returned ()) := by
  rw [show voffset env v = fun i => modify _ from rfl, forM_modify, foldl_writeOffsetDac]
  rfl

theorem setChannelVoffset_eq (env : AfeEnv) (v : ℚ) (step : ℕ)
    (hdb : ∀ ch ∈ m.channels, ch.fixture.isDb04) (hlen : m.channels.length ≤ m.offsetDacs.length)
    (hw : (env.voffsetDac v).toNat ≤ 65535) (hv : ∀ w ∈ m.offsetDacs, w.toNat ≤ 65535) :
    setChannelVoffset env v step m =
      let ws := voffsetWords (env.voffsetDac v) step m.channels.length m.offsetDacs
      ({ m with offsetDacs := ws, calls := m.calls ++ dacCalls (ws.take m.channels.length) },
        .returned ()) := by
  have hloop := voffsetLoop_eq env v step m
  have hlen' := length_voffsetWords (env.voffsetDac v) step m.channels.length m.offsetDacs
  have hv' := voffsetWords_le step m.channels.length hw hv
  generalize voffsetWords (env.voffsetDac v) step m.channels.length m.offsetDacs = ws
    at hloop hlen' hv' ⊢
  have hset := setDacs_eq (m := { m with offsetDacs := ws }) hdb (hlen'.symm ▸ hlen) hv'
  simp only [setChannelVoffset, bind_of_returned (get_apply m), bind_of_returned hloop,
    bind_of_returned hset]
  exact waitDacSettlePeriod_eq hdb

theorem setChannelVoffset_eq_returned {env : AfeEnv} {v : ℚ} {step : ℕ}
    (h : setChannelVoffset env v step m = (m', .returned ())) :
    let ws := voffsetWords (env.voffsetDac v) step m.channels.length m.offsetDacs
    m' = { m with offsetDacs := ws, calls := m.calls ++ dacCalls (ws.take m.channels.length) } := by
  simp only [setChannelVoffset, bind_of_returned (get_apply m),
    bind_of_returned (voffsetLoop_eq env v step m), bind_eq_returned] at h
  obtain ⟨m₁, _, hset, hwait⟩ := h
  have := waitDacSettlePeriod_fst m₁
  rw [hwait] at this
  subst this
  exact setDacs_eq_returned hset

theorem setChannelVoffset_one_returned {env : AfeEnv} {v : ℚ}
    (h : setChannelVoffset env v 1 m = (m', .returned ())) :
    m'.channels = m.channels ∧ ∀ chan < m.channels.length,
      m'.offsetDacs[chan]? = some (env.voffsetDac v) ∧
        (writesTo (.dac chan) m'.calls).getLast? = some (env.voffsetDac v) := by
  have hlen : m.channels.length ≤ m.offsetDacs.length := by
    simp only [setChannelVoffset, bind_of_returned (get_apply m),
      bind_of_returned (voffsetLoop_eq env v 1 m), bind_eq_returned] at h
    obtain ⟨_, _, hset, _⟩ := h
    simpa [length_voffsetWords] using length_le_of_setDacs_returned hset
  rw [setChannelVoffset_eq_returned h]
  refine ⟨rfl, fun chan hc => ?_⟩
  have hws : (voffsetWords (env.voffsetDac v) 1 m.channels.length m.offsetDacs)[chan]? =
      some (env.voffsetDac v) := by
    simp [voffsetWords, getElem?_foldl_set, hc, Nat.mod_one,
      List.getElem?_eq_getElem (hc.trans_le hlen)]
  simp [hws, writesTo_dacCalls_take, hc]

theorem setChannelVoffset_returned_words {env : AfeEnv} {v : ℚ} {step : ℕ}
    (h : setChannelVoffset env v step m = (m', .returned ())) :
    m'.channels = m.channels ∧ ∀ chan < m.channels.length, ∃ w,
      m'.offsetDacs[chan]? = some w ∧ (writesTo (.dac chan) m'.calls).getLast? = some w ∧
      (if chan % step = 0 then some (env.voffsetDac v) else m.offsetDacs[chan]?) = some w := by
  have hlen : m.channels.length ≤ m.offsetDacs.length := by
    simp only [setChannelVoffset, bind_of_returned (get_apply m),
      bind_of_returned (voffsetLoop_eq env v step m), bind_eq_returned] at h
    obtain ⟨_, _, hset, _⟩ := h
    simpa [length_voffsetWords] using length_le_of_setDacs_returned hset
  rw [setChannelVoffset_eq_returned h]
  refine ⟨rfl, fun chan hc => ?_⟩
  obtain ⟨w₀, hw₀⟩ : ∃ w₀, m.offsetDacs[chan]? = some w₀ :=
    ⟨_, List.getElem?_eq_getElem (hc.trans_le hlen)⟩
  have hws : (voffsetWords (env.voffsetDac v) step m.channels.length m.offsetDacs)[chan]? =
      some (if chan % step = 0 then env.voffsetDac v else w₀) := by
    simp only [voffsetWords, getElem?_foldl_set, List.mem_filter, List.mem_range, hc, true_and,
      decide_eq_true_eq, hw₀]
    split_ifs <;> rfl
  refine ⟨_, hws, by simp [hws, writesTo_dacCalls_take, hc], ?_⟩
  rw [hw₀]
  split_ifs <;> rfl

theorem getTraces_eq (env : AfeEnv) (m : AfeModule) :
    getTraces env m =
      match captureTraces env (m.calls ++ [.getTraces]) m.channels with
      | .ok traces => ({ m with calls := m.calls ++ [.getTraces] }, .returned traces)
      | .error e => ({ m with calls := m.calls ++ [.getTraces] }, .threw e) := by
  simp only [getTraces, bind_of_returned (record_apply _ m), bind_of_returned (get_apply _)]
  split <;> (rename_i h; rw [h]; rfl)

theorem analyzeChannelBaselines_eq_returned {env : AfeEnv} {bls : List ChannelBaseline} :
    analyzeChannelBaselines env m = (m', .returned bls) ↔
      ∃ started traces, startBaselines 0 m.channels = .returned started ∧
        captureTraces env (m.calls ++ [.getTraces]) m.channels = .ok traces ∧
        analyzeTraces started traces = some bls ∧
        m' = { m with calls := m.calls ++ [.getTraces] } := by
  simp only [analyzeChannelBaselines, bind_of_returned (get_apply m), bind_eq_returned,
    ofExit_eq_returned, getTraces_eq, ofOption_eq_returned]
  constructor
  · rintro ⟨m₁, started, ⟨hs, rfl⟩, _, traces, hc, ha, rfl⟩
    rcases hcap : captureTraces env (m₁.calls ++ [.getTraces]) m₁.channels with e | traces'
    · simp only [hcap, Prod.mk.injEq, reduceCtorEq, and_false] at hc
    · simp only [hcap, Prod.mk.injEq, Exit.returned.injEq] at hc
      obtain ⟨rfl, rfl⟩ := hc
      exact ⟨started, traces', hs, hcap, ha, rfl⟩
  · rintro ⟨started, traces, hs, hc, ha, rfl⟩
    exact ⟨_, started, ⟨hs, rfl⟩, _, traces, by rw [hc], ha, rfl⟩

theorem analyzeChannelBaselines_capture_threw (env : AfeEnv) {started : List ChannelBaseline}
    {e : Exception} (hs : startBaselines 0 m.channels = .returned started)
    (hc : captureTraces env (m.calls ++ [.getTraces]) m.channels = .error e) :
    analyzeChannelBaselines env m = ({ m with calls := m.calls ++ [.getTraces] }, .threw e) := by
  simp only [analyzeChannelBaselines, bind_of_returned (get_apply m), hs, ofExit,
    bind_of_returned (pure_apply _ _)]
  rw [bind_apply, getTraces_eq, hc]

theorem startBaselines_cons {i : ℕ} {ch : AfeChannel} {chs : List AfeChannel}
    {b : ChannelBaseline}
    (h : (ChannelBaseline.new ChannelBaseline.defaultNoise).start i ch.adcBits = .returned b) :
    startBaselines i (ch :: chs) = (startBaselines (i + 1) chs).map (b :: ·) := by
  simp [startBaselines, h]

theorem startBaselines_returned :
    ∀ (i : ℕ) (chs : List AfeChannel), (∀ ch ∈ chs, ch.adcBits < 31) →
      ∃ started, startBaselines i chs = .returned started
  | _, [], _ => ⟨[], rfl⟩
  | i, ch :: chs, h => by
    obtain ⟨started, hs⟩ :=
      startBaselines_returned (i + 1) chs fun c hc => h c (List.mem_cons_of_mem _ hc)
    exact ⟨_, by rw [startBaselines_cons (dif_pos (h ch (List.mem_cons_self _ _))), hs]; rfl⟩

theorem captureTraces_first_threw {env : AfeEnv} {calls : List AfeCall} {ch : AfeChannel}
    {chs : List AfeChannel} {e : Exception} (hdb : ch.fixture.isDb04)
    (h : env.acquire calls 0 = .error e) : captureTraces env calls (ch :: chs) = .error e := by
  rcases ch with ⟨_ | ⟨_, _, _⟩, _, _⟩
  · cases hdb
  · rw [captureTraces, List.enum_cons, List.mapM_cons]
    simp only [h]
    rfl

theorem captureTraces_singleton {env : AfeEnv} {calls : List AfeCall} {ch : AfeChannel}
    {trace : List AdcWord} (hdb : ch.fixture.isDb04) (h : env.acquire calls 0 = .ok trace) :
    captureTraces env calls [ch] = .ok [trace] := by
  rcases ch with ⟨_ | ⟨_, _, _⟩, _, _⟩
  · cases hdb
  · rw [captureTraces, List.enum_cons, List.mapM_cons]
    simp only [h]
    rfl

theorem analyzeTraces_singleton (b : ChannelBaseline) (trace : List AdcWord) :
    analyzeTraces [b] [trace] = ((b.update trace).bind ChannelBaseline.finish).map ([·]) := by
  simp only [analyzeTraces, List.zip_cons_cons, List.zip_nil_right, List.mapM_cons, List.mapM_nil]
  cases b.update trace with
  | none => rfl
  | some b' => cases h : b'.finish <;> simp [h, List.mapM.loop]

/-! ### Captures -/

theorem channel_captures (chan : ℕ) : Captures 0 (channel chan) :=
  Captures.get'.bind_right fun _ => Captures.ofOption' _

theorem setDac_captures (chan : ℕ) (value : Word) : Captures 0 (setDac chan value) := by
  unfold setDac
  refine (channel_captures chan).bind_right fun ch => ?_
  rcases ch with ⟨_ | ⟨_, _, _⟩, _, _⟩
  · exact Captures.raise' _
  · dsimp only
    split
    · exact Captures.raise' _
    · exact Captures.record' (by simp)

theorem waitDacSettlePeriod_captures : Captures 0 waitDacSettlePeriod :=
  Captures.of_calls fun m => by rw [waitDacSettlePeriod_fst]

theorem setDacs_captures : Captures 0 setDacs :=
  Captures.get'.bind_right fun _ => Captures.forM fun _ _ =>
    (Captures.get'.bind_right fun _ => Captures.ofOption' _).bind_right fun _ =>
      setDac_captures _ _

theorem setChannelVoffset_captures (env : AfeEnv) (v : ℚ) (step : ℕ) :
    Captures 0 (setChannelVoffset env v step) :=
  Captures.get'.bind_right fun _ =>
    (Captures.forM fun _ _ => Captures.of_calls fun _ => rfl).bind_right fun _ =>
      setDacs_captures.bind_right fun _ => waitDacSettlePeriod_captures

theorem getTraces_captures (env : AfeEnv) : Captures 1 (getTraces env) :=
  Captures.record_getTraces.bind_right fun _ => Captures.get'.bind_right fun _ =>
    Captures.ofExcept' _

theorem analyzeChannelBaselines_captures (env : AfeEnv) :
    Captures 1 (analyzeChannelBaselines env) :=
  Captures.get'.bind_left fun _ => (Captures.ofExit' _).bind_left fun _ =>
    (getTraces_captures env).bind_right fun _ => Captures.ofOption' _

end PixieSdk
