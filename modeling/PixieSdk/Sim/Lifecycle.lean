import PixieSdk.Sim.VarDefaults

/-! # The lifecycle of a simulated module

`sim::module` stands in for a module's hardware: `open` maps memory from a module definition,
`close` unmaps it, and `probe` and `boot` mark the DSP and the two FPGAs loaded and initialise
the module's values, the simulation's `init_values` loading the definition's variable defaults
file. The base module's `erase_values`, `erase_channels`, `init_values` and `init_channels`
(`module.cpp`), the file system and `util.cpp` are outside the sources; they are the fields of
`Outside`.

A simulated module is present exactly when its memory is mapped, and online only with its DSP
and both FPGAs loaded, over any run of these calls, returned or thrown (`run_consistent`). A
probe or a boot that throws leaves the module offline, and closing a module and opening it
again on its device gives back the module the first open gave. -/

namespace PixieSdk.Sim

/-- What a simulated module calls outside the sources: `util::split`, `util::trim`, the base
module's erase and initialisation (taken to leave `present_` and `online_`), and reading a file: its
lines, or the `strerror` text. -/
structure Outside where
  split : String → Char → List String
  trim : String → String
  erase : Module → Module
  initValues : Module → Module
  initChannels : Module → Module
  readFile : String → Except String (List String)
  erase_flags : ∀ b, (erase b).present = b.present ∧ (erase b).online = b.online
  initValues_flags : ∀ b, (initValues b).present = b.present ∧ (initValues b).online = b.online
  initChannels_flags : ∀ b, (initChannels b).present = b.present ∧ (initChannels b).online = b.online

variable (env : Outside)

namespace SimModule

/-- `sim::module::close`: the module is no longer present and its memory is unmapped;
`online_` and the load flags are left as they are. -/
def close (m : SimModule) : SimModule :=
  { m with base := { m.base with present := false }, vmaddr := false }

/-- The module with `online_`, `dsp_online`, `fippi_fpga` and `comms_fpga` set. -/
def setFlags (m : SimModule) (online dsp fippi comms : Bool) : SimModule :=
  { m with base := { m.base with online := online }, dspOnline := dsp, fippiFpga := fippi,
           commsFpga := comms }

/-- `sim::module::init_values`: the base module's `init_values`, then the defaults file when
the definition names one. A file that does not open throws `file_read_failure`. -/
def initValues (m : SimModule) : Ran SimModule :=
  let m := { m with base := env.initValues m.base }
  if m.varDefaults.isEmpty then (m, .ok ())
  else
    match env.readFile m.varDefaults with
    | .error reason =>
      (m, .error (.pixie .fileReadFailure
        ("module var defaults open: " ++ m.varDefaults ++ ": " ++ reason)))
    | .ok lines =>
      let r := loadVarDefaults env.split env.trim m.base lines
      ({ m with base := r.1 }, r.2)

/-- The statements after a call that may throw: `finish` runs on the module the call left when
the call returned; an exception passes through with the module as the call left it. -/
def thenFinish {σ : Type} (r : Ran σ) (finish : σ → σ) : Ran σ :=
  match r with
  | (s, .ok ()) => (finish s, .ok ())
  | r => r

/-- `probe` up to `init_values`: offline with nothing loaded, values and channels erased. -/
def probeStart (m : SimModule) : SimModule :=
  let m := m.setFlags false false false false
  { m with base := env.erase m.base }

/-- `probe` after `init_values`: channels initialised, everything loaded and online (the
fixture's `online` does nothing). -/
def probeFinish (m : SimModule) : SimModule :=
  ({ m with base := env.initChannels m.base }).setFlags true true true true

/-- `sim::module::probe`. -/
def probe (m : SimModule) : Ran SimModule :=
  thenFinish ((probeStart env m).initValues env) (probeFinish env)

/-- `boot` up to `init_values`: offline, and each part asked for marked loaded (the fixture's
hooks do nothing). -/
def bootStart (bootComms bootFippi bootDsp : Bool) (m : SimModule) : SimModule :=
  { m with base := { m.base with online := false }, commsFpga := m.commsFpga || bootComms,
           fippiFpga := m.fippiFpga || bootFippi, dspOnline := m.dspOnline || bootDsp }

/-- `boot` after `init_values`: channels initialised, and online when all three parts are
loaded. -/
def bootFinish (m : SimModule) : SimModule :=
  let m := { m with base := env.initChannels m.base }
  { m with base := { m.base with online := m.commsFpga && m.fippiFpga && m.dspOnline } }

/-- `sim::module::boot(boot_comms, boot_fippi, boot_dsp)`. -/
def boot (bootComms bootFippi bootDsp : Bool) (m : SimModule) : Ran SimModule :=
  thenFinish ((bootStart bootComms bootFippi bootDsp m).initValues env) (bootFinish env)

theorem thenFinish_eq {σ : Type} (r : Ran σ) (finish : σ → σ) :
    thenFinish r finish = (if r.2 = .ok () then finish r.1 else r.1, r.2) := by
  rcases r with ⟨s, e | ⟨⟩⟩ <;> simp [thenFinish]

/-- A call that leaves the mapping, the load flags, `present_` and `online_` as they were. -/
structure SameFlags (m m' : SimModule) : Prop where
  vmaddr : m'.vmaddr = m.vmaddr
  dspOnline : m'.dspOnline = m.dspOnline
  fippiFpga : m'.fippiFpga = m.fippiFpga
  commsFpga : m'.commsFpga = m.commsFpga
  present : m'.base.present = m.base.present
  online : m'.base.online = m.base.online

theorem initValues_sameFlags (m : SimModule) : SameFlags m (m.initValues env).1 := by
  have hb := env.initValues_flags m.base
  unfold initValues
  dsimp only
  split_ifs
  · exact ⟨rfl, rfl, rfl, rfl, hb.1, hb.2⟩
  · split
    · exact ⟨rfl, rfl, rfl, rfl, hb.1, hb.2⟩
    · next lines _ =>
      have hv := (writes_loadVarDefaults env.split env.trim (env.initValues m.base) lines).varsOnly
      exact ⟨rfl, rfl, rfl, rfl, (hv.congr Module.present fun _ _ => rfl).trans hb.1,
        (hv.congr Module.online fun _ _ => rfl).trans hb.2⟩

theorem isOk_of_ne {r : Except Exception Unit} (h : ¬ r = .ok ()) : r.isOk = false := by
  rcases r with e | ⟨⟩
  · rfl
  · exact absurd rfl h

/-- A probe leaves the mapping and `present_` alone. When it returns, the DSP and both FPGAs
are loaded and the module is online; when it throws, nothing is loaded and it is offline. -/
theorem probe_flags (m : SimModule) :
    (m.probe env).1.vmaddr = m.vmaddr ∧ (m.probe env).1.base.present = m.base.present ∧
      (m.probe env).1.base.online = (m.probe env).2.isOk ∧
      (m.probe env).1.commsFpga = (m.probe env).2.isOk ∧
      (m.probe env).1.fippiFpga = (m.probe env).2.isOk ∧
      (m.probe env).1.dspOnline = (m.probe env).2.isOk := by
  have h₀ := initValues_sameFlags env (probeStart env m)
  have he := (env.erase_flags (m.setFlags false false false false).base).1
  have hc := (env.initChannels_flags ((probeStart env m).initValues env).1.base).1
  rw [probe, thenFinish_eq]
  by_cases hok : ((probeStart env m).initValues env).2 = .ok ()
  · simp only [hok, if_true, probeFinish, setFlags, Except.isOk, Except.toBool]
    exact ⟨h₀.vmaddr, hc.trans (h₀.present.trans he), trivial, trivial, trivial, trivial⟩
  · simp only [hok, if_false, isOk_of_ne hok]
    exact ⟨h₀.vmaddr, h₀.present.trans he,
      h₀.online.trans (env.erase_flags (m.setFlags false false false false).base).2,
      h₀.commsFpga, h₀.fippiFpga, h₀.dspOnline⟩

/-- A boot leaves the mapping and `present_` alone, marks each part asked for loaded and
unloads none. The module ends online exactly when the boot returns with all three parts
loaded: a boot that throws leaves it offline. -/
theorem boot_flags (m : SimModule) (bootComms bootFippi bootDsp : Bool) :
    (m.boot env bootComms bootFippi bootDsp).1.vmaddr = m.vmaddr ∧
      (m.boot env bootComms bootFippi bootDsp).1.base.present = m.base.present ∧
      (m.boot env bootComms bootFippi bootDsp).1.commsFpga = (m.commsFpga || bootComms) ∧
      (m.boot env bootComms bootFippi bootDsp).1.fippiFpga = (m.fippiFpga || bootFippi) ∧
      (m.boot env bootComms bootFippi bootDsp).1.dspOnline = (m.dspOnline || bootDsp) ∧
      (m.boot env bootComms bootFippi bootDsp).1.base.online =
        ((m.boot env bootComms bootFippi bootDsp).2.isOk && (m.commsFpga || bootComms) &&
          (m.fippiFpga || bootFippi) && (m.dspOnline || bootDsp)) := by
  have h₀ := initValues_sameFlags env (bootStart bootComms bootFippi bootDsp m)
  have hc := (env.initChannels_flags
    ((bootStart bootComms bootFippi bootDsp m).initValues env).1.base).1
  rw [boot, thenFinish_eq]
  by_cases hok : ((bootStart bootComms bootFippi bootDsp m).initValues env).2 = .ok ()
  · simp only [hok, if_true, bootFinish, Except.isOk, Except.toBool, h₀.commsFpga, h₀.fippiFpga,
      h₀.dspOnline, Bool.true_and]
    exact ⟨h₀.vmaddr, hc.trans h₀.present, rfl, rfl, rfl, rfl⟩
  · simp only [hok, if_false, isOk_of_ne hok, Bool.false_and]
    exact ⟨h₀.vmaddr, h₀.present, h₀.commsFpga, h₀.fippiFpga, h₀.dspOnline, h₀.online⟩

end SimModule

open SimModule

/-! ### Runs of calls -/

/-- What holds of a simulated module between calls: it is present exactly when its memory is
mapped, and online only with its DSP and both FPGAs loaded. -/
structure Consistent (m : SimModule) : Prop where
  present_eq : m.base.present = m.vmaddr
  loaded : m.base.online = true → m.commsFpga = true ∧ m.fippiFpga = true ∧ m.dspOnline = true

theorem Consistent.sameFlags {m m' : SimModule} (h : Consistent m) (hs : SameFlags m m') :
    Consistent m' where
  present_eq := by rw [hs.present, hs.vmaddr, h.present_eq]
  loaded hon := by
    rw [hs.commsFpga, hs.fippiFpga, hs.dspOnline]
    exact h.loaded (hs.online ▸ hon)

theorem Consistent.thenFinish {r : Ran SimModule} {finish : SimModule → SimModule}
    (h : Consistent r.1) (hf : ∀ s, Consistent s → Consistent (finish s)) :
    Consistent (thenFinish r finish).1 := by
  rw [thenFinish_eq]
  split_ifs
  · exact hf _ h
  · exact h

theorem Consistent.openDevice {defs : List ModuleDef} {m m' : SimModule} {n : ℕ} (h : Consistent m)
    (ho : m.openDevice defs n = .returned m') : Consistent m' := by
  unfold SimModule.openDevice at ho
  split_ifs at ho
  split at ho
  · cases ho
  · split_ifs at ho
    cases ho
    exact ⟨rfl, h.loaded⟩

theorem Consistent.close {m : SimModule} (h : Consistent m) : Consistent m.close :=
  ⟨rfl, h.loaded⟩

theorem Consistent.probe {m : SimModule} (h : Consistent m) : Consistent (m.probe env).1 := by
  have he := env.erase_flags (m.setFlags false false false false).base
  have hstart : Consistent (probeStart env m) :=
    ⟨he.1.trans h.present_eq, fun hon => absurd (he.2.symm.trans hon) (by simp [setFlags])⟩
  refine (hstart.sameFlags (initValues_sameFlags env _)).thenFinish fun s hs => ?_
  exact ⟨(env.initChannels_flags s.base).1.trans hs.present_eq, fun _ => ⟨rfl, rfl, rfl⟩⟩

theorem Consistent.boot {m : SimModule} (h : Consistent m) (bootComms bootFippi bootDsp : Bool) :
    Consistent (m.boot env bootComms bootFippi bootDsp).1 := by
  have hstart : Consistent (bootStart bootComms bootFippi bootDsp m) :=
    ⟨h.present_eq, fun hon => absurd hon (by simp [bootStart])⟩
  refine (hstart.sameFlags (initValues_sameFlags env _)).thenFinish fun s hs => ?_
  refine ⟨(env.initChannels_flags s.base).1.trans hs.present_eq, fun hon => ?_⟩
  simpa [bootFinish, and_assoc] using hon

/-- The calls a test makes on a simulated module. -/
inductive Op where
  | openDevice (deviceNumber : ℕ)
  | close
  | probe
  | boot (bootComms bootFippi bootDsp : Bool)
  deriving DecidableEq, Repr

/-- One call on a simulated module, the definitions `defs` loaded: the module it leaves,
whether it returned or threw (the caller catching the exception), or `none` where its
behaviour is undefined. -/
def step (defs : List ModuleDef) (m : SimModule) : Op → Option SimModule
  | .openDevice n =>
    match m.openDevice defs n with
    | .returned m' => some m'
    | .threw _ => some m
    | _ => none
  | .close => some m.close
  | .probe => some (m.probe env).1
  | .boot c f d => some (m.boot env c f d).1

/-- Calls one after another; one whose behaviour is undefined ends the run. -/
def run (defs : List ModuleDef) : SimModule → List Op → Option SimModule
  | m, [] => some m
  | m, op :: ops => (step env defs m op).bind fun m' => run defs m' ops

theorem step_consistent {defs : List ModuleDef} {m m' : SimModule} {op : Op} (h : Consistent m)
    (hs : step env defs m op = some m') : Consistent m' := by
  cases op with
  | openDevice n =>
    simp only [step] at hs
    split at hs
    · next m'' ho => cases hs; exact h.openDevice ho
    · cases hs; exact h
    · cases hs
  | close => cases hs; exact h.close
  | probe => cases hs; exact h.probe env
  | boot c f d => cases hs; exact h.boot env c f d

theorem openDevice_defined {defs : List ModuleDef} (hdiv : ∀ d ∈ defs, d.adcClkDiv ≠ 0)
    (m : SimModule) (n : ℕ) :
    (∃ m', m.openDevice defs n = .returned m') ∨ ∃ e, m.openDevice defs n = .threw e := by
  unfold SimModule.openDevice
  split_ifs
  · exact .inr ⟨_, rfl⟩
  · split
    · exact .inr ⟨_, rfl⟩
    · next d hd => exact .inl ⟨_, if_neg (hdiv d (List.mem_of_find?_eq_some hd))⟩

theorem step_isSome {defs : List ModuleDef} (hdiv : ∀ d ∈ defs, d.adcClkDiv ≠ 0) (m : SimModule)
    (op : Op) : (step env defs m op).isSome := by
  cases op with
  | openDevice n => rcases openDevice_defined hdiv m n with ⟨m', h⟩ | ⟨e, h⟩ <;> simp [step, h]
  | _ => rfl

/-- Over any run of `open`, `close`, `probe` and `boot`, returned or thrown, a simulated module is
present exactly when mapped and online only with its DSP and FPGAs loaded; a run is defined when
every definition has a non-zero `adc-clk-div`. -/
theorem run_consistent (defs : List ModuleDef) :
    ∀ (ops : List Op) {m : SimModule}, Consistent m →
      (∀ m', run env defs m ops = some m' → Consistent m') ∧
        ((∀ d ∈ defs, d.adcClkDiv ≠ 0) → (run env defs m ops).isSome)
  | [], m, h => ⟨fun m' hm' => by cases hm'; exact h, fun _ => rfl⟩
  | op :: ops, m, h => by
    simp only [run]
    cases hs : step env defs m op with
    | none =>
      exact ⟨fun _ h' => by simp at h', fun hdiv =>
        absurd hs (Option.isSome_iff_ne_none.mp (step_isSome env hdiv m op))⟩
    | some m' => exact run_consistent defs ops (step_consistent env h hs)

/-- Outside calls that change nothing, and a file system on which no file opens. -/
def quietOutside : Outside where
  split := cut
  trim := id
  erase := id
  initValues := id
  initChannels := id
  readFile := fun _ => .error "No such file or directory"
  erase_flags := fun _ => ⟨rfl, rfl⟩
  initValues_flags := fun _ => ⟨rfl, rfl⟩
  initChannels_flags := fun _ => ⟨rfl, rfl⟩

/-- Open device 0, boot everything, probe, close. -/
def openBootProbeClose : List Op :=
  [.openDevice 0, .boot true true true, .probe, .close]

theorem run_consistent_unmappedModule :
    Consistent unmappedModule ∧
      (∀ m', run quietOutside [slotTwoDef] unmappedModule openBootProbeClose = some m' →
        Consistent m') ∧
      ((∀ d ∈ [slotTwoDef], d.adcClkDiv ≠ 0) →
        (run quietOutside [slotTwoDef] unmappedModule openBootProbeClose).isSome) :=
  have h : Consistent unmappedModule := ⟨rfl, fun hon => absurd hon (by decide)⟩
  ⟨h, run_consistent quietOutside [slotTwoDef] openBootProbeClose h⟩

/-! ### Closing and opening again -/

theorem length_resize {α : Type} (l : List α) (n : ℕ) (a : α) : (resize l n a).length = n := by
  simp only [resize, List.length_append, List.length_take, List.length_replicate]
  omega

theorem resize_of_length {α : Type} {l : List α} {n : ℕ} (a : α) (h : l.length = n) :
    resize l n a = l := by
  subst h
  simp [resize]

/-- Closing a module and opening it again on its device gives back the module the first open
gave. -/
theorem openDevice_close_openDevice {defs : List ModuleDef} {m m' : SimModule} {n : ℕ}
    (h : m.openDevice defs n = .returned m') : m'.close.openDevice defs n = .returned m' := by
  unfold SimModule.openDevice at h ⊢
  split_ifs at h
  split at h
  · cases h
  · next d hd =>
    split_ifs at h with hdiv
    cases h
    simp only [SimModule.close, Bool.false_eq_true, if_false, hd, hdiv,
      resize_of_length _ (length_resize _ _ _)]

/-- `unmappedModule` opened on device 0 from `slotTwoDef`. -/
def slotTwoModule : SimModule :=
  { unmappedModule with
    base := { Module.fresh 0 with slot := 2, revision := 15, numChannels := 16, present := true }
    vmaddr := true, eepromFormat := 1, serialNum := 1234,
    configs := List.replicate 16 ⟨14, 250, 2, 125⟩, varDefaults := "slot2-defaults.txt" }

theorem openDevice_close_openDevice_slotTwoDef :
    unmappedModule.openDevice [slotTwoDef] 0 = .returned slotTwoModule ∧
      slotTwoModule.close.openDevice [slotTwoDef] 0 = .returned slotTwoModule :=
  have h : unmappedModule.openDevice [slotTwoDef] 0 = .returned slotTwoModule := by decide
  ⟨h, openDevice_close_openDevice h⟩

end PixieSdk.Sim
