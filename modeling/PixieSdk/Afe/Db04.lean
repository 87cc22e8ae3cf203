import PixieSdk.Afe.AdjustOffsets

/-! # The DB04 offset DACs at register level

`db04::set_dac` selects the port of the channel's daughter board and writes one CFG_DAC
command `[addr(8), ctrl(8), data(16)]`: the address picks the DAC of the DB's first or last
four channels, and the control code the DAC output the PCB wires to the channel's offset. The
fixture model records a DAC write as `AfeCall.setDac`; here those calls are lowered to the bus
operations `set_dac` makes and replayed on the DACs.

The main results: the command word carries the address, the control code and the value in
fields that do not overlap (`decode_cfgDac`); on a DB layout whose channels have distinct
places within the eight outputs of a DB, replaying the bus operations of a call log leaves
each channel's DAC output holding the last value the log writes to the channel's DAC
(`replay_output`); and the operations of the fixture model append only DAC writes that fit the
DAC and keep the channels' places (`DacWritesFit`), so that the replay holds of `set_dacs`,
`boot` and `adjust_offsets` on every exit. -/

namespace PixieSdk

namespace Db04

/-- `dac_addr` of `db04::set_dac`, `0x20 | ((offset < 4 ? 1 : 0) << 1)`: address bit 1 selects
the DAC of the DB's first four channels. -/
def dacAddr (offset : ℤ) : Word :=
  (0x20 : Word) ||| ((if offset < 4 then (1 : Word) else 0) <<< (1 : Word))

/-- `dac_ctrl` of `db04::set_dac`: `0x30` plus the DAC output the PCB wires to the offset
(0, 4 → B; 1, 5 → C; 2, 6 → A; 3, 7 → D); any other offset leaves `0x30`. -/
def dacCtrl (offset : ℤ) : Word :=
  0x30 + match offset with
    | 0 | 4 => 1
    | 1 | 5 => 2
    | 2 | 6 => 0
    | 3 | 7 => 3
    | _ => 0

/-- The CFG_DAC command of `db04::set_dac`, `(dac_addr << 24) | (dac_ctrl << 16) | value`. -/
def cfgDac (offset : ℤ) (value : Word) : Word :=
  dacAddr offset <<< (24 : Word) ||| dacCtrl offset <<< (16 : Word) ||| value

/-- A DAC's reading of a CFG_DAC command, `[addr(8), ctrl(8), data(16)]`. -/
def decode (command : Word) : Word × Word × Word :=
  (command >>> (24 : Word), (command >>> (16 : Word)) &&& 0xff, command &&& 0xffff)

/-- What `db04::set_dac` does on the bus once its value is checked: `module::select_port` of the
DB's port and `module::write_word` of the command to CFG_DAC (`module.cpp` is not part of the
sources: both are taken as the bus operations they name). -/
inductive BusOp where
  | selectPort (port : ℤ)
  | writeCfgDac (command : Word)
  deriving DecidableEq, Repr

/-- The place of a channel among the daughter boards: the DB number and the offset on it of a
DB04 channel. -/
def place : Fixture → Option (ℤ × ℤ)
  | .db04 number offset _ => some (number, offset)
  | .motherboard => none

def places (m : AfeModule) : List (Option (ℤ × ℤ)) :=
  m.channels.map fun ch => place ch.fixture

/-- The bus operations of a call of the fixture model, on channels at `places`: a DAC write of
a DB04 channel selects its DB's port, `number + 1`, and writes its command. -/
def busOps (places : List (Option (ℤ × ℤ))) : AfeCall → List BusOp
  | .setDac chan value =>
    match places[chan]? with
    | some (some (number, offset)) => [.selectPort (number + 1), .writeCfgDac (cfgDac offset value)]
    | _ => []
  | _ => []

/-- The DB04 DACs: the port selected last, and the last data each output `(port, address,
control)` received. -/
structure Dacs where
  port : ℤ
  out : ℤ × Word × Word → Option Word

def Dacs.step (d : Dacs) : BusOp → Dacs
  | .selectPort port => { d with port := port }
  | .writeCfgDac command =>
    { d with out := Function.update d.out (d.port, (decode command).1, (decode command).2.1)
                      (some (decode command).2.2) }

/-- The DACs after the bus operations of the calls `calls`, in order. -/
def replay (places : List (Option (ℤ × ℤ))) (calls : List AfeCall) (d : Dacs) : Dacs :=
  (calls.flatMap (busOps places)).foldl Dacs.step d

/-- The DAC output of the channel at place `(number, offset)`. -/
def output (p : ℤ × ℤ) : ℤ × Word × Word :=
  (p.1 + 1, dacAddr p.2, dacCtrl p.2)

/-- A layout of DB04 channels: each offset lies within the eight DAC outputs of a DB, and no two
channels share a place. -/
structure Layout (places : List (Option (ℤ × ℤ))) : Prop where
  offset_lt : ∀ (chan : ℕ) (p : ℤ × ℤ), places[chan]? = some (some p) → 0 ≤ p.2 ∧ p.2 < 8
  inj : ∀ (chan chan' : ℕ) (p : ℤ × ℤ), places[chan]? = some (some p) → places[chan']? = some (some p) → chan = chan'

/-- `hw::module_fixture`, the fixture a channel's configuration names. -/
inductive ModuleFixture where
  | mainboard
  | db01
  | db02
  | db04
  | db06
  | db07
  deriving DecidableEq, Repr

/-- The EEPROM's daughter-board map (`eeprom.cpp` is not part of the sources): the DB of a channel,
`db_find`, and a DB's first channel, `db_channel_base`. -/
structure DbMap where
  dbFind : ℕ → ℤ
  dbChannelBase : ℤ → ℤ

/-- `fixture::make` for channel `chan`: a DB04 configuration makes a `db04` at DB
`db_find(chan)`, offset `chan - db_channel_base(number)`, in its boot swap state (`db::db`);
any other makes the motherboard default. -/
def make (map : DbMap) (chan : ℕ) : ModuleFixture → Fixture
  | .db04 => .db04 (map.dbFind chan) (chan - map.dbChannelBase (map.dbFind chan)) .bootState
  | _ => .motherboard

/-- The fixtures `afe_dbs::init_channels` makes for the channels, from their configurations. -/
def initChannels (map : DbMap) (configs : List ModuleFixture) : List Fixture :=
  configs.enum.map fun p => make map p.1 p.2

/-! ### The command word -/

theorem dacAddr_lt (offset : ℤ) : (dacAddr offset).toNat < 2 ^ 8 := by
  unfold dacAddr
  split_ifs <;> decide

theorem dacCtrl_lt (offset : ℤ) : (dacCtrl offset).toNat < 2 ^ 8 := by
  unfold dacCtrl
  split <;> decide

theorem toNat_cfgDac (offset : ℤ) {value : Word} (hv : value.toNat ≤ 65535) :
    (cfgDac offset value).toNat =
      2 ^ 16 * (2 ^ 8 * (dacAddr offset).toNat + (dacCtrl offset).toNat) + value.toNat := by
  have ha := dacAddr_lt offset
  have hc := dacCtrl_lt offset
  rw [cfgDac, toNat_word_or, toNat_word_or, toNat_shiftLeft_24, toNat_shiftLeft_16,
    Nat.mod_eq_of_lt (by omega), Nat.mod_eq_of_lt (by omega), or_fields hc (by omega)]

theorem decode_cfgDac (offset : ℤ) {value : Word} (hv : value.toNat ≤ 65535) :
    decode (cfgDac offset value) = (dacAddr offset, dacCtrl offset, value) := by
  have h := toNat_cfgDac offset hv
  have ha := dacAddr_lt offset
  have hc := dacCtrl_lt offset
  simp only [decode, Prod.mk.injEq]
  refine ⟨UInt32.toNat.inj ?_, UInt32.toNat.inj ?_, UInt32.toNat.inj ?_⟩
  · rw [toNat_shiftRight_24, h]
    omega
  · rw [show (0xff : Word) = UInt32.ofNat (2 ^ 8 - 1) from rfl, toNat_and_mask _ 8 (by norm_num),
      toNat_shiftRight_16, h]
    omega
  · rw [show (0xffff : Word) = UInt32.ofNat (2 ^ 16 - 1) from rfl, toNat_and_mask _ 16 (by norm_num),
      h]
    omega

theorem dacAddr_dacCtrl_inj {o o' : ℤ} (ho : 0 ≤ o ∧ o < 8) (ho' : 0 ≤ o' ∧ o' < 8)
    (h : dacAddr o = dacAddr o' ∧ dacCtrl o = dacCtrl o') : o = o' := by
  have hfin : ∀ k l : Fin 8, dacAddr k = dacAddr l ∧ dacCtrl k = dacCtrl l → k = l := by decide
  have hk := hfin ⟨o.toNat, by omega⟩ ⟨o'.toNat, by omega⟩
  simp only [Fin.mk.injEq, Int.toNat_of_nonneg ho.1, Int.toNat_of_nonneg ho'.1] at hk
  have := hk h
  omega

theorem output_inj {p q : ℤ × ℤ} (hp : 0 ≤ p.2 ∧ p.2 < 8) (hq : 0 ≤ q.2 ∧ q.2 < 8)
    (h : output p = output q) : p = q := by
  simp only [output, Prod.mk.injEq, add_left_inj] at h
  exact Prod.ext h.1 (dacAddr_dacCtrl_inj hp hq h.2)

theorem layout_initChannels (map : DbMap) (configs : List ModuleFixture)
    (h8 : ∀ (chan : ℕ), configs[chan]? = some .db04 →
      0 ≤ chan - map.dbChannelBase (map.dbFind chan) ∧ chan - map.dbChannelBase (map.dbFind chan) < 8) :
    Layout ((initChannels map configs).map place) := by
  have hplace : ∀ chan p, ((initChannels map configs).map place)[chan]? = some (some p) →
      configs[chan]? = some .db04 ∧ p = (map.dbFind chan, chan - map.dbChannelBase (map.dbFind chan)) := by
    intro chan p h
    simp only [initChannels, List.getElem?_map, List.getElem?_enum, Option.map_map,
      Function.comp_def, Option.map_eq_some'] at h
    obtain ⟨fx, hfx, h⟩ := h
    cases fx <;> simp_all [make, place]
  refine ⟨fun chan p h => ?_, fun chan chan' p h h' => ?_⟩
  · obtain ⟨hc, rfl⟩ := hplace chan p h
    exact h8 chan hc
  · obtain ⟨-, rfl⟩ := hplace chan _ h
    obtain ⟨-, he⟩ := hplace chan' _ h'
    simp only [Prod.mk.injEq] at he
    rw [he.1] at he
    omega

/-! ### Replaying a call log -/

section Replay

variable {places : List (Option (ℤ × ℤ))}

theorem replay_cons (c : AfeCall) (calls : List AfeCall) (d : Dacs) :
    replay places (c :: calls) d = replay places calls ((busOps places c).foldl Dacs.step d) := by
  simp only [replay, List.flatMap_cons, List.foldl_append]

theorem step_setDac {chan : ℕ} {q : ℤ × ℤ} (hq : places[chan]? = some (some q)) {value : Word}
    (hv : value.toNat ≤ 65535) (d : Dacs) :
    ((busOps places (.setDac chan value)).foldl Dacs.step d).out =
      Function.update d.out (output q) (some value) := by
  simp only [busOps, hq, List.foldl_cons, List.foldl_nil, Dacs.step, decode_cfgDac q.2 hv]
  rfl

theorem busOps_output (hl : Layout places) {chan : ℕ} {p : ℤ × ℤ}
    (hp : places[chan]? = some (some p)) {c : AfeCall}
    (hc : ∀ chan' value, c = .setDac chan' value → value.toNat ≤ 65535) (d : Dacs) :
    ((busOps places c).foldl Dacs.step d).out (output p) =
      ((writesTo (.dac chan) [c]).getLast?).or (d.out (output p)) := by
  cases c with
  | setDac chan' value =>
    rw [writesTo_setDac]
    cases hq : places[chan']? with
    | some q? =>
      cases q? with
      | some q =>
        rw [step_setDac hq (hc _ _ rfl), Function.update_apply]
        by_cases hcc : chan' = chan
        · subst hcc
          obtain rfl : p = q := by simpa [hp] using hq
          simp
        · have hne : output p ≠ output q := fun h => hcc (hl.inj chan' chan p
            (by rw [hq, output_inj (hl.offset_lt _ _ hp) (hl.offset_lt _ _ hq) h]) hp)
          simp [hne, hcc]
      | none =>
        have hcc : chan' ≠ chan := by rintro rfl; simp [hp] at hq
        simp [busOps, hq, hcc]
    | none =>
      have hcc : chan' ≠ chan := by rintro rfl; simp [hp] at hq
      simp [busOps, hq, hcc]
  | getTraces => simp [busOps]
  | writeAdcctrl db value => simp [busOps]

theorem replay_output (hl : Layout places) {chan : ℕ} {p : ℤ × ℤ}
    (hp : places[chan]? = some (some p)) :
    ∀ {calls : List AfeCall}, (∀ chan' value, AfeCall.setDac chan' value ∈ calls → value.toNat ≤ 65535) →
      ∀ d : Dacs, (replay places calls d).out (output p) =
        ((writesTo (.dac chan) calls).getLast?).or (d.out (output p))
  | [], _, d => rfl
  | c :: calls, hfit, d => by
    rw [replay_cons, replay_output hl hp (fun chan' value h => hfit chan' value (.tail _ h)),
      busOps_output hl hp (fun chan' value h => hfit chan' value (h ▸ .head _)),
      show c :: calls = [c] ++ calls from rfl, writesTo_append, List.getLast?_append, Option.or_assoc]

end Replay


/-! ### The operations write only what fits the DACs

Every operation of the fixture model appends to the calls, on every exit, DAC writes whose
values fit the 16-bit DAC (`set_dac` throws on the others before it writes), and keeps each
channel's place: `boot` only moves a channel's swap state. So the replay of what an operation
appends is read on the places the module had before it. -/

/-- From `m` to `m'` only calls are appended, each DAC write among them fits the DAC, and the
channels keep their places. -/
def FitStep (m m' : AfeModule) : Prop :=
  ∃ new, m'.calls = m.calls ++ new ∧
    (∀ chan value, AfeCall.setDac chan value ∈ new → value.toNat ≤ 65535) ∧ places m' = places m

theorem FitStep.refl (m : AfeModule) : FitStep m m :=
  ⟨[], by simp, by simp, rfl⟩

theorem FitStep.trans {m₀ m₁ m₂ : AfeModule} (h₀ : FitStep m₀ m₁) (h₁ : FitStep m₁ m₂) :
    FitStep m₀ m₂ := by
  obtain ⟨new₀, hc₀, hf₀, hp₀⟩ := h₀
  obtain ⟨new₁, hc₁, hf₁, hp₁⟩ := h₁
  refine ⟨new₀ ++ new₁, by rw [hc₁, hc₀, List.append_assoc], fun chan value h => ?_, hp₁.trans hp₀⟩
  rcases List.mem_append.mp h with h | h
  exacts [hf₀ chan value h, hf₁ chan value h]

/-- `x` takes the module by a `FitStep` on every exit. -/
def DacWritesFit {α : Type} (x : AfeM α) : Prop :=
  ∀ m, FitStep m (x m).1

namespace DacWritesFit

open AfeM

variable {α β γ : Type} {x : AfeM α}

theorem of_calls (h : ∀ m, (x m).1.calls = m.calls ∧ places (x m).1 = places m) : DacWritesFit x :=
  fun m => ⟨[], by simp [(h m).1], by simp, (h m).2⟩

theorem bind {f : α → AfeM β} (hx : DacWritesFit x) (hf : ∀ a, DacWritesFit (f a)) :
    DacWritesFit (x >>= f) := fun m => by
  have h := hx m
  rw [bind_apply]
  rcases hx' : x m with ⟨m', _ | _ | _ | _⟩
  case returned a =>
    rw [hx'] at h
    exact h.trans (hf a m')
  all_goals rw [hx'] at h; exact h

theorem forM {l : List γ} {f : γ → AfeM Unit} (hf : ∀ a ∈ l, DacWritesFit (f a)) :
    DacWritesFit (l.forM f) := by
  induction l with
  | nil => exact fun m => FitStep.refl m
  | cons a l ih =>
    rw [List.forM_cons']
    exact bind (hf a (.head _)) fun _ => ih fun b hb => hf b (.tail _ hb)

theorem pure' (a : α) : DacWritesFit (pure a : AfeM α) := fun m => FitStep.refl m

theorem get' : DacWritesFit get := fun m => FitStep.refl m

theorem mapM {l : List γ} {f : γ → AfeM β} (hf : ∀ a ∈ l, DacWritesFit (f a)) :
    DacWritesFit (l.mapM f) := by
  induction l with
  | nil => exact pure' _
  | cons a l ih =>
    rw [List.mapM_cons]
    exact bind (hf a (.head _)) fun _ => bind (ih fun b hb => hf b (.tail _ hb)) fun _ => pure' _

theorem ofOption' (o : Option α) : DacWritesFit (ofOption o) := fun m => by
  cases o <;> exact FitStep.refl m

theorem ofExcept' (e : Except Exception α) : DacWritesFit (ofExcept e) := fun m => by
  cases e <;> exact FitStep.refl m

theorem ofExit' (e : Exit α) : DacWritesFit (ofExit e) := fun m => by
  cases e <;> exact FitStep.refl m

theorem raise' (e : Exception) : DacWritesFit (raise e : AfeM α) := fun m => FitStep.refl m

theorem undefined' : DacWritesFit (undefined : AfeM α) := fun m => FitStep.refl m

theorem modify' {g : AfeModule → AfeModule} (h : ∀ m, (g m).calls = m.calls ∧ (g m).channels = m.channels) :
    DacWritesFit (modify g) :=
  of_calls fun m => ⟨(h m).1, by simp only [modify_apply, places, (h m).2]⟩

theorem record' {call : AfeCall} (h : ∀ chan value, call = .setDac chan value → value.toNat ≤ 65535) :
    DacWritesFit (record call) := fun _ =>
  ⟨[call], rfl, fun chan value hc => h chan value (List.mem_singleton.mp hc).symm, rfl⟩

end DacWritesFit

open AfeM DacWritesFit

theorem channel_fit (chan : ℕ) : DacWritesFit (channel chan) :=
  get'.bind fun _ => ofOption' _

theorem readOffsetDac_fit (chan : ℕ) : DacWritesFit (readOffsetDac chan) :=
  get'.bind fun _ => ofOption' _

theorem writeOffsetDac_fit (chan : ℕ) (value : Word) : DacWritesFit (writeOffsetDac chan value) :=
  modify' fun _ => ⟨rfl, rfl⟩

theorem setDac_fit (chan : ℕ) (value : Word) : DacWritesFit (setDac chan value) := by
  unfold setDac
  refine (channel_fit chan).bind fun ch => ?_
  rcases ch with ⟨_ | ⟨_, _, _⟩, _, _⟩
  · exact raise' _
  · dsimp only
    split
    · exact raise' _
    · exact record' fun _ _ h => by cases h; omega

theorem waitDacSettlePeriod_fit : DacWritesFit waitDacSettlePeriod :=
  of_calls fun m => by rw [waitDacSettlePeriod_fst]; exact ⟨rfl, rfl⟩

theorem setDacs_fit : DacWritesFit setDacs :=
  get'.bind fun _ => forM fun _ _ => (readOffsetDac_fit _).bind fun _ => setDac_fit _ _

theorem setChannelVoffset_fit (env : AfeEnv) (v : ℚ) (step : ℕ) :
    DacWritesFit (setChannelVoffset env v step) :=
  get'.bind fun _ => (forM fun _ _ => writeOffsetDac_fit _ _).bind fun _ =>
    setDacs_fit.bind fun _ => waitDacSettlePeriod_fit

theorem getTraces_fit (env : AfeEnv) : DacWritesFit (getTraces env) :=
  (record' fun _ _ h => by cases h).bind fun _ => get'.bind fun _ => ofExcept' _

theorem analyzeChannelBaselines_fit (env : AfeEnv) : DacWritesFit (analyzeChannelBaselines env) :=
  get'.bind fun _ => (ofExit' _).bind fun _ => (getTraces_fit env).bind fun _ => ofOption' _

theorem writeAdcctrl_fit (env : AfeEnv) (db : ℕ) (value : Word) :
    DacWritesFit (writeAdcctrl env db value) :=
  (record' fun _ _ h => by cases h).bind fun _ => get'.bind fun _ => ofExcept' _

theorem place_setBool {f f' : Fixture} {value : Bool} (h : f.setBool "ADC_SWAP" value = .ok f') :
    place f' = place f := by
  cases f with
  | motherboard => simp [Fixture.setBool] at h
  | db04 number offset s =>
    rw [Fixture.setBool_adcSwap] at h
    cases h
    rfl

theorem places_setFixture {m : AfeModule} {chan : ℕ} {ch : AfeChannel} {f : Fixture}
    (hch : m.channels[chan]? = some ch) (hf : place f = place ch.fixture) :
    places (m.setFixture chan f) = places m := by
  refine List.ext_getElem? fun c => ?_
  have h := congrArg (Option.map place) (getElem?_setFixture m chan f c)
  simp only [Option.map_map, Function.comp_def] at h
  simp only [places, List.getElem?_map, h]
  split_ifs with hc
  · subst hc
    simp [hch, hf]
  · simp [Option.map_map, Function.comp_def]

theorem modify_adcctrl (a : AfeModule → Fin 4 → Word) :
    DacWritesFit (modify fun m => { m with adcctrl := a m }) :=
  modify' fun _ => ⟨rfl, rfl⟩

theorem swapChannel_fit (env : AfeEnv) (chan : ℕ) (swapped : Bool) :
    DacWritesFit (swapChannel env chan swapped) := fun m => by
  rcases hch : m.channels[chan]? with _ | ch
  · have hu : channel chan m = (m, .undefined) := by simp [channel, hch]
    simp only [swapChannel, bind_of_undefined hu]
    exact FitStep.refl m
  rcases hset : ch.fixture.setBool "ADC_SWAP" swapped with e | f
  · simp only [swapChannel, bind_of_returned (channel_eq hch), hset, ofExcept_error,
      raise_bind_apply]
    exact FitStep.refl m
  simp only [swapChannel, bind_of_returned (channel_eq hch), hset, ofExcept_ok, pure_bind_apply,
    modify_bind_apply]
  refine FitStep.trans ⟨[], by simp, by simp, places_setFixture hch (place_setBool hset)⟩ ((?_ : DacWritesFit _) _)
  split
  · refine (ofExcept' _).bind fun _ => (ofExcept' _).bind fun _ => ?_
    split
    · exact raise' _
    split
    · refine get'.bind fun _ => (ofOption' _).bind fun _ => (modify_adcctrl _).bind fun _ => ?_
      split
      exacts [writeAdcctrl_fit env _ _, pure' _]
    · exact undefined'
  · exact pure' _

theorem swapPass_fit (env : AfeEnv) (swapped : ℕ → Option Bool) : DacWritesFit (swapPass env swapped) :=
  get'.bind fun _ => forM fun _ _ => (ofOption' _).bind fun _ => swapChannel_fit env _ _

theorem boot_fit (env : AfeEnv) : DacWritesFit (AfeDbs.boot env) := by
  refine (setChannelVoffset_fit env _ 1).bind fun _ => (analyzeChannelBaselines_fit env).bind
    fun _ => (setChannelVoffset_fit env _ 2).bind fun _ => (analyzeChannelBaselines_fit env).bind
    fun _ => (swapPass_fit env _).bind fun _ => (analyzeChannelBaselines_fit env).bind fun _ =>
    get'.bind fun _ => (ofOption' _).bind fun _ => (setChannelVoffset_fit env 0 1).bind fun _ => ?_
  split
  exacts [raise' _, pure' _]

theorem adjustChannel_fit (baselines : List ChannelBaseline) (chan : ℕ) (oc : OffsetChannel) :
    DacWritesFit (adjustChannel baselines chan oc) := by
  unfold adjustChannel
  split
  · refine (ofOption' _).bind fun _ => (ofOption' _).bind fun _ => (ofOption' _).bind fun _ => ?_
    split
    · exact (ofOption' _).bind fun _ => (setDac_fit _ _).bind fun _ => pure' _
    · exact pure' _
  · exact pure' _

theorem adjustChannels_fit (baselines : List ChannelBaseline) :
    ∀ (chan : ℕ) (ocs : List OffsetChannel), DacWritesFit (adjustChannels baselines chan ocs)
  | _, [] => pure' _
  | chan, oc :: ocs => (adjustChannel_fit baselines chan oc).bind fun _ =>
      (adjustChannels_fit baselines (chan + 1) ocs).bind fun _ => pure' _

theorem adjustRun_fit (env : AfeEnv) (ocs : List OffsetChannel) : DacWritesFit (adjustRun env ocs) := by
  refine (analyzeChannelBaselines_fit env).bind fun _ => (adjustChannels_fit _ 0 ocs).bind fun _ => ?_
  split
  · exact waitDacSettlePeriod_fit.bind fun _ => pure' _
  · exact (pure' _).bind fun _ => pure' _

theorem adjustRuns_fit (env : AfeEnv) :
    ∀ (fuel : ℕ) (ocs : List OffsetChannel), DacWritesFit (adjustRuns env fuel ocs)
  | 0, _ => pure' _
  | fuel + 1, ocs => (adjustRun_fit env ocs).bind fun next => by
    split
    exacts [adjustRuns_fit env fuel _, pure' _]

theorem adjustOffsets_fit (env : AfeEnv) : DacWritesFit (adjustOffsets env) :=
  (setChannelVoffset_fit env _ 1).bind fun _ => get'.bind fun _ =>
    (mapM fun _ _ => (channel_fit _).bind fun _ => (readOffsetDac_fit _).bind fun _ =>
      (ofExcept' _).bind fun _ => pure' _).bind fun _ =>
    (adjustRuns_fit env runs _).bind fun _ => forM fun _ _ => writeOffsetDac_fit _ _

/-! ### The DACs after `set_dacs`, `boot` and `adjust_offsets` -/

/-- The calls `new` replayed on the DACs `d` leave each DB04 channel's output holding the last
value `new` writes to its DAC, or what the output held before when `new` writes none. -/
def LastWritesHeld (places : List (Option (ℤ × ℤ))) (new : List AfeCall) (d : Dacs) : Prop :=
  ∀ chan p, places[chan]? = some (some p) →
    (replay places new d).out (output p) = ((writesTo (.dac chan) new).getLast?).or (d.out (output p))

theorem DacWritesFit.lastWritesHeld {α : Type} {x : AfeM α} (hx : DacWritesFit x) (m : AfeModule)
    (hl : Layout (places m)) (d : Dacs) :
    ∃ new, (x m).1.calls = m.calls ++ new ∧ LastWritesHeld (places m) new d := by
  obtain ⟨new, hcalls, hfit, -⟩ := hx m
  exact ⟨new, hcalls, fun chan p hp => replay_output hl hp hfit d⟩

/-- On a module whose DB04 channels have distinct places, `set_dacs`, `boot` and `adjust_offsets`
leave, on every exit, each DB04 channel's DAC output at register level holding the last value
recorded for that channel's DAC. -/
theorem afeDbs_dacs_hold_last_writes (env : AfeEnv) (m : AfeModule) (hl : Layout (places m))
    (d : Dacs) :
    (∃ new, (setDacs m).1.calls = m.calls ++ new ∧ LastWritesHeld (places m) new d) ∧
      (∃ new, (AfeDbs.boot env m).1.calls = m.calls ++ new ∧ LastWritesHeld (places m) new d) ∧
      (∃ new, (adjustOffsets env m).1.calls = m.calls ++ new ∧ LastWritesHeld (places m) new d) :=
  ⟨setDacs_fit.lastWritesHeld m hl d, (boot_fit env).lastWritesHeld m hl d,
    (adjustOffsets_fit env).lastWritesHeld m hl d⟩

/-- Two DBs of four channels each, as the EEPROM may map them. -/
def fourPerDb : DbMap :=
  ⟨fun chan => chan / 4, fun db => 4 * db⟩

/-- Five DB04 channels, four on DB 0 and one on DB 1, and a motherboard channel, with the
fixtures `init_channels` makes. -/
def twoDbModule : AfeModule :=
  ⟨(initChannels fourPerDb [.db04, .db04, .db04, .db04, .db04, .mainboard]).map fun f => ⟨f, 14, 50⟩,
    List.replicate 6 0, fun _ => 0, []⟩

theorem afeDbs_dacs_hold_last_writes_two_dbs :
    Layout (places twoDbModule) ∧
      (∃ new, (setDacs twoDbModule).1.calls = [] ++ new ∧
        LastWritesHeld (places twoDbModule) new ⟨0, fun _ => none⟩) ∧
      (∃ new, (AfeDbs.boot railedBaseline twoDbModule).1.calls = [] ++ new ∧
        LastWritesHeld (places twoDbModule) new ⟨0, fun _ => none⟩) ∧
      (∃ new, (adjustOffsets railedBaseline twoDbModule).1.calls = [] ++ new ∧
        LastWritesHeld (places twoDbModule) new ⟨0, fun _ => none⟩) :=
  have hl : Layout (places twoDbModule) := by
    have h := layout_initChannels fourPerDb [.db04, .db04, .db04, .db04, .db04, .mainboard]
      fun chan _ => by simp only [fourPerDb]; omega
    simpa [places, twoDbModule, List.map_map, Function.comp_def] using h
  ⟨hl, afeDbs_dacs_hold_last_writes railedBaseline _ hl _⟩

end Db04

end PixieSdk
