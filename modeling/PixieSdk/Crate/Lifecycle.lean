import PixieSdk.Crate.Initialize
import PixieSdk.Crate.Workers
import PixieSdk.Config.Import

/-! # The crate lifecycle

The remaining crate operations (`set_offline`, `probe`, `move_offlines`, `assign`,
`import_config`), the operations a user can issue, and runs of them from a new crate. Every
operation is taken over every outcome of the module calls it makes. -/

namespace PixieSdk

/-! ## Operations -/

/-- `crate::set_offline(module_ptr)`: the first module of `modules` that is the given object
is forced offline, appended to `offline` and erased from `modules`. -/
def setOffline (id : ℕ) (c : Crate) : Outcome Unit :=
  match c.modules.find? (·.id = id) with
  | none => ⟨c, [], .threw (.pixie .moduleNotFound "module not seen as online")⟩
  | some m =>
    let ms := c.modules.eraseP (·.id = id)
    ⟨{ c with modules := ms, offline := c.offline ++ [m.forceOffline], numModules := ms.length },
      [.forceOffline id], .returned ()⟩

theorem setOffline_keeps (id : ℕ) (c : Crate) : Crate.Keeps c (setOffline id c).crate := by
  unfold setOffline
  split
  · exact .refl _
  · next m hm => exact Crate.keeps_move hm rfl (by simp) rfl

/-- `crate::set_offline(int)`: `(*this)[module]`, then `set_offline(modules[module])`. -/
def setOfflineNumber (number : ℤ) (c : Crate) : Outcome Unit :=
  match c.index number with
  | .error e => ⟨c, [], .threw e⟩
  | .ok none => ⟨c, [], .undefined⟩
  | .ok (some m) => setOffline m.id c

theorem setOfflineNumber_keeps (number : ℤ) (c : Crate) :
    Crate.Keeps c (setOfflineNumber number c).crate := by
  unfold setOfflineNumber
  split
  · exact .refl _
  · exact .refl _
  · exact setOffline_keeps _ c

/-- The loop of `crate::probe`: `module->probe()` on each module, counting those online
after it; `outcome` gives each probe by identity. An exception leaves the loop. -/
def probeLoop (outcome : ℕ → Except Exception Bool) :
    List Module → List Call × List Module × Except Exception ℕ
  | [] => ([], [], .ok 0)
  | m :: rest =>
    match outcome m.id with
    | .error e => ([.probe m.id], m :: rest, .error e)
    | .ok b =>
      let r := probeLoop outcome rest
      (.probe m.id :: r.1, { m with online := b } :: r.2.1, r.2.2.map fun n => if b then n + 1 else n)

theorem probeLoop_ids (outcome : ℕ → Except Exception Bool) (ms : List Module) :
    Crate.ids (probeLoop outcome ms).2.1 = Crate.ids ms := by
  induction ms with
  | nil => rfl
  | cons m ms ih =>
    unfold probeLoop
    split <;> simp [ih]

/-- The region of `crate::probe()` under the crate lock: whether every module is online after
probing. -/
def probeLocked (outcome : ℕ → Except Exception Bool) (c : Crate) : Outcome Bool :=
  match probeLoop outcome c.modules with
  | (calls, ms, .error e) => ⟨{ c with modules := ms }, calls, .threw e⟩
  | (calls, ms, .ok online) => ⟨{ c with modules := ms }, calls, .returned (online == c.numModules)⟩

/-- `crate::probe()`. -/
def probe (outcome : ℕ → Except Exception Bool) (c : Crate) : Outcome Bool :=
  c.whenReady (probeLocked outcome)

theorem probeLocked_inPlace (outcome : ℕ → Except Exception Bool) (c : Crate) :
    Crate.InPlace c (probeLocked outcome c).crate := by
  have h := probeLoop_ids outcome c.modules
  unfold probeLocked
  split <;> next heq => rw [heq] at h; exact Crate.inPlace_modules h

theorem probe_inPlace (outcome : ℕ → Except Exception Bool) (c : Crate) :
    Crate.InPlace c (probe outcome c).crate :=
  Crate.whenReady_preserves Crate.InPlace .refl (probeLocked_inPlace outcome c)

/-- The `while (have_moved)` loop of `crate::move_offlines`: each pass scans `modules` from
the start for a module that is not online, reports it to the backplane, appends it to
`offline` and erases it; a pass that finds none ends the loop. `fuel` bounds the passes. -/
def moveOfflinesLoop : ℕ → Crate → List Call → Crate × List Call
  | 0, c, calls => (c, calls)
  | fuel + 1, c, calls =>
    match c.modules.find? (!·.online) with
    | none => (c, calls)
    | some m =>
      moveOfflinesLoop fuel
        { c with modules := c.modules.eraseP (!·.online), offline := c.offline ++ [m] }
        (calls ++ [.backplaneOffline m.id])

theorem moveOfflinesLoop_keeps :
    ∀ (fuel : ℕ) (c : Crate) (calls : List Call), Crate.Keeps c (moveOfflinesLoop fuel c calls).1
  | 0, _, _ => .refl _
  | fuel + 1, c, calls => by
    unfold moveOfflinesLoop
    split
    · exact .refl _
    · next m hm =>
      have hk : Crate.Keeps c
          { c with modules := c.modules.eraseP (!·.online), offline := c.offline ++ [m] } :=
        Crate.keeps_move hm rfl (by simp) rfl
      exact hk.trans (moveOfflinesLoop_keeps fuel _ _)

/-- `crate::move_offlines()`: one pass per module moved, and a last pass that finds none. -/
def moveOfflines (c : Crate) : Outcome Unit :=
  let r := moveOfflinesLoop (c.modules.length + 1) c []
  ⟨{ r.1 with numModules := r.1.modules.length }, r.2, .returned ()⟩

theorem moveOfflines_keeps (c : Crate) : Crate.Keeps c (moveOfflines c).crate :=
  (moveOfflinesLoop_keeps _ c []).trans ⟨.refl _, le_rfl⟩

/-- Modelled from the spec (`module.cpp` is not part of the sources): `module::assign` gives
each module the number the map pairs with its slot, and -1 when its slot is not mapped. -/
def assignNumbers (numbers : List (ℤ × ℤ)) (ms : List Module) : List Module :=
  ms.map fun m => { m with number := ((numbers.find? (·.2 = m.slot)).map (·.1)).getD (-1) }

theorem ids_assignNumbers (numbers : List (ℤ × ℤ)) (ms : List Module) :
    Crate.ids (assignNumbers numbers ms) = Crate.ids ms := by
  unfold assignNumbers
  apply Crate.ids_map
  intro _
  rfl

/-- Modelled from the spec: `order_by_number` sorts modules by number. -/
def orderByNumber (ms : List Module) : List Module :=
  ms.insertionSort fun a b => a.number ≤ b.number

/-- The restart loop of `crate::assign`: the first module numbered -1 is closed and erased, or
set offline, and the scan restarts. A close that throws leaves the loop. -/
def unassignLoop (close : Bool) (closeOutcome : ℕ → Except Exception Unit) :
    ℕ → Crate → List Call → Crate × List Call × Except Exception Unit
  | 0, c, calls => (c, calls, .ok ())
  | fuel + 1, c, calls =>
    match c.modules.find? (·.number = -1) with
    | none => (c, calls, .ok ())
    | some m =>
      if close then
        match closeOutcome m.id with
        | .ok () =>
          unassignLoop close closeOutcome fuel
            { c with modules := c.modules.eraseP (·.number = -1) } (calls ++ [.close m.id])
        | .error e => (c, calls ++ [.close m.id], .error e)
      else
        let r := setOffline m.id c
        match r.exit with
        | .threw e => (r.crate, calls ++ r.calls, .error e)
        | _ => unassignLoop close closeOutcome fuel r.crate (calls ++ r.calls)

theorem unassignLoop_keeps (close : Bool) (closeOutcome : ℕ → Except Exception Unit) :
    ∀ (fuel : ℕ) (c : Crate) (calls : List Call),
      Crate.Keeps c (unassignLoop close closeOutcome fuel c calls).1
  | 0, _, _ => .refl _
  | fuel + 1, c, calls => by
    unfold unassignLoop
    split
    · exact .refl _
    · split
      · split
        · have hk : Crate.Keeps c { c with modules := c.modules.eraseP (·.number = -1) } :=
            ⟨by simpa [Crate.ids] using
              (((List.eraseP_sublist c.modules).map Module.id).append_right _).subperm, le_rfl⟩
          exact hk.trans (unassignLoop_keeps close closeOutcome fuel _ _)
        · exact .refl _
      · dsimp only
        split
        · exact setOffline_keeps _ c
        · exact (setOffline_keeps _ c).trans (unassignLoop_keeps close closeOutcome fuel _ _)

/-- The region of `crate::assign(numbers, close)` under the crate lock. On an exception
`num_modules` is recounted and the modules are renumbered by slot before it propagates. -/
def assignLocked (numbers : List (ℤ × ℤ)) (close : Bool)
    (closeOutcome : ℕ → Except Exception Unit) (c : Crate) : Outcome Unit :=
  let c1 := { c with modules := assignNumbers numbers c.modules }
  match unassignLoop close closeOutcome (c1.modules.length + 1) c1 [] with
  | (c2, calls, .ok ()) =>
    ⟨{ c2 with numModules := c2.modules.length, modules := orderByNumber c2.modules },
      calls, .returned ()⟩
  | (c2, calls, .error e) =>
    ⟨{ c2 with numModules := c2.modules.length, modules := setNumberBySlot c2.modules },
      calls, .threw e⟩

/-- `crate::assign(numbers, close)`. -/
def assign (numbers : List (ℤ × ℤ)) (close : Bool) (closeOutcome : ℕ → Except Exception Unit)
    (c : Crate) : Outcome Unit :=
  c.whenReady (assignLocked numbers close closeOutcome)

theorem assignLocked_keeps (numbers : List (ℤ × ℤ)) (close : Bool)
    (closeOutcome : ℕ → Except Exception Unit) (c : Crate) :
    Crate.Keeps c (assignLocked numbers close closeOutcome c).crate := by
  have h1 : Crate.Keeps c { c with modules := assignNumbers numbers c.modules } :=
    (Crate.inPlace_modules (ids_assignNumbers numbers c.modules)).keeps
  have h2 := h1.trans (unassignLoop_keeps close closeOutcome
    ((assignNumbers numbers c.modules).length + 1)
    { c with modules := assignNumbers numbers c.modules } [])
  unfold assignLocked
  dsimp only
  split
  · next heq =>
    rw [heq] at h2
    exact h2.trans (Crate.keeps_of_perm ((List.perm_insertionSort _ _).map _) rfl rfl)
  · next heq =>
    rw [heq] at h2
    exact h2.trans (Crate.keeps_of_perm (.of_eq (ids_setNumberBySlot _)) rfl rfl)

theorem assign_keeps (numbers : List (ℤ × ℤ)) (close : Bool)
    (closeOutcome : ℕ → Except Exception Unit) (c : Crate) :
    Crate.Keeps c (assign numbers close closeOutcome c).crate :=
  Crate.whenReady_preserves Crate.Keeps .refl (assignLocked_keeps numbers close closeOutcome c)

/-- Modelled from the spec: after `sync_vars` returns, no variable of the module is dirty. -/
def Module.synced (m : Module) : Module :=
  { m with
    moduleVars := m.moduleVars.map (·.map fun cell => { cell with dirty := false })
    channels := m.channels.map (·.map (·.map fun cell => { cell with dirty := false })) }

/-- The loop of `import_config` that calls `sync_vars()` on every online module. -/
def syncLoop (outcome : ℕ → Except Exception Unit) :
    List Module → List Call × List Module × Except Exception Unit
  | [] => ([], [], .ok ())
  | m :: rest =>
    if !m.online then
      let r := syncLoop outcome rest
      (r.1, m :: r.2.1, r.2.2)
    else
      match outcome m.id with
      | .ok () =>
        let r := syncLoop outcome rest
        (.syncVars m.id :: r.1, m.synced :: r.2.1, r.2.2)
      | .error e => ([.syncVars m.id], m :: rest, .error e)

theorem syncLoop_ids (outcome : ℕ → Except Exception Unit) (ms : List Module) :
    Crate.ids (syncLoop outcome ms).2.1 = Crate.ids ms := by
  induction ms with
  | nil => rfl
  | cons m ms ih =>
    unfold syncLoop
    split
    · simp [ih]
    · split <;> simp [ih, Module.synced]

/-- The region of `crate::import_config(json_file, loaded)` under the crate lock:
`import_json`, then `sync_vars` on every online module. Returns `loaded`. -/
def importConfigLocked (filename : String) (file : ConfigFile)
    (syncVars : ℕ → Except Exception Unit) (c : Crate) : Outcome (List (ℤ × ℤ)) :=
  match importJson filename file (c, []) with
  | ((c1, _), .error e) => ⟨c1, [], .threw e⟩
  | ((c1, loaded), .ok ()) =>
    match syncLoop syncVars c1.modules with
    | (calls, ms, .ok ()) => ⟨{ c1 with modules := ms }, calls, .returned loaded⟩
    | (calls, ms, .error e) => ⟨{ c1 with modules := ms }, calls, .threw e⟩

/-- `crate::import_config(json_file, loaded)`. -/
def importConfig (filename : String) (file : ConfigFile) (syncVars : ℕ → Except Exception Unit)
    (c : Crate) : Outcome (List (ℤ × ℤ)) :=
  c.whenReady (importConfigLocked filename file syncVars)

theorem importConfigLocked_inPlace (filename : String) (file : ConfigFile)
    (syncVars : ℕ → Except Exception Unit) (c : Crate) :
    Crate.InPlace c (importConfigLocked filename file syncVars c).crate := by
  have hj := importJson_inPlace filename file (c, [])
  unfold importConfigLocked
  split
  · next heq => rw [heq] at hj; exact hj
  · next c1 _ heq =>
    rw [heq] at hj
    have h := syncLoop_ids syncVars c1.modules
    split <;> next heq' => rw [heq'] at h; exact hj.trans (Crate.inPlace_modules h)

theorem importConfig_inPlace (filename : String) (file : ConfigFile)
    (syncVars : ℕ → Except Exception Unit) (c : Crate) :
    Crate.InPlace c (importConfig filename file syncVars c).crate :=
  Crate.whenReady_preserves Crate.InPlace .refl (importConfigLocked_inPlace filename file syncVars c)

/-! ## Runs -/

/-- A crate operation with the outcomes of the module calls it makes. -/
inductive Op where
  | initializeCrate (descs : VarDescs × VarDescs) (bus : ℕ → Device)
  | shutdown (close : ℕ → Except Exception Unit)
  | probe (probe : ℕ → Except Exception Bool)
  | boot (params : BootParams) (boot : ℕ → Except Exception Bool)
  | setOfflineNumber (number : ℤ)
  | setOffline (id : ℕ)
  | moveOfflines
  | assign (numbers : List (ℤ × ℤ)) (close : Bool) (closeOutcome : ℕ → Except Exception Unit)
  | importConfig (filename : String) (file : ConfigFile) (syncVars : ℕ → Except Exception Unit)
  | initializeAfe (syncHw : ℕ → Except Exception Unit)

def Op.apply : Op → Crate → Outcome Unit
  | .initializeCrate descs bus, c => PixieSdk.initializeCrate descs bus c
  | .shutdown close, c => PixieSdk.shutdown close c
  | .probe outcome, c =>
    let r := PixieSdk.probe outcome c; ⟨r.crate, r.calls, r.exit.drop⟩
  | .boot params outcome, c => PixieSdk.boot params outcome c
  | .setOfflineNumber number, c => PixieSdk.setOfflineNumber number c
  | .setOffline id, c => PixieSdk.setOffline id c
  | .moveOfflines, c => PixieSdk.moveOfflines c
  | .assign numbers close outcome, c => PixieSdk.assign numbers close outcome c
  | .importConfig filename file outcome, c =>
    let r := PixieSdk.importConfig filename file outcome c; ⟨r.crate, r.calls, r.exit.drop⟩
  | .initializeAfe outcome, c => PixieSdk.initializeAfe outcome c

/-- The crate a sequence of operations leaves, each applied to what the last one left,
whether it returned or threw. -/
def run (c : Crate) (ops : List Op) : Crate :=
  ops.foldl (fun c op => (op.apply c).crate) c

@[simp] theorem run_nil (c : Crate) : run c [] = c := rfl

end PixieSdk
