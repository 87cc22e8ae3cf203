import PixieSdk.Crate.Lifecycle

/-! # Invariants over runs

What every run of crate operations from a new crate keeps, each proved from one lemma per
operation and `run_preserves`: `num_modules` counts `modules` while the crate is ready, and
no module object occurs twice in `modules ++ offline`. Neither holds in the strong form a
caller relies on across a shutdown: `shutdown` leaves `num_modules` and `offline` as they
were, which the runs at the end of this file show. -/

namespace PixieSdk

/-! ### `num_modules` while ready -/

/-- No module object occurs twice in `modules ++ offline`, and every one was created before
`nextId`. -/
structure IdsFresh (c : Crate) : Prop where
  nodup : (Crate.ids (c.modules ++ c.offline)).Nodup
  lt_nextId : ∀ i ∈ Crate.ids (c.modules ++ c.offline), i < c.nextId

theorem find?_id_of_mem {ms : List Module} (hnd : (Crate.ids ms).Nodup) {m : Module}
    (hm : m ∈ ms) : ms.find? (·.id = m.id) = some m := by
  induction ms with
  | nil => cases hm
  | cons m' ms ih =>
    simp only [Crate.ids_cons, List.nodup_cons] at hnd
    rcases List.mem_cons.mp hm with rfl | hm
    · simp
    · have hne : m'.id ≠ m.id := fun h => hnd.1 (h ▸ List.mem_map_of_mem _ hm)
      simp [hne, ih hnd.2 hm]

theorem IdsFresh.of_keeps {c c' : Crate} (hc : IdsFresh c) (h : Crate.Keeps c c') :
    IdsFresh c' where
  nodup := by
    obtain ⟨l, hp, hs⟩ := h.subperm
    exact hp.nodup_iff.mp (hc.nodup.sublist hs)
  lt_nextId i hi := (hc.lt_nextId i (h.subperm.subset hi)).trans_le h.nextId_le

theorem IdsFresh.add {c c' : Crate} (hc : IdsFresh c)
    (hp : List.Perm (Crate.ids (c'.modules ++ c'.offline))
      (Crate.ids (c.modules ++ c.offline) ++ [c.nextId]))
    (hn : c'.nextId = c.nextId + 1) : IdsFresh c' where
  nodup := (hp.trans (List.perm_append_singleton _ _)).nodup_iff.mpr
    (List.nodup_cons.mpr ⟨fun h => lt_irrefl _ (hc.lt_nextId _ h), hc.nodup⟩)
  lt_nextId i hi := by
    rcases List.mem_append.mp (hp.subset hi) with h | h
    · have := hc.lt_nextId i h
      omega
    · simp only [List.mem_singleton] at h
      omega

theorem addDevice_idsFresh (descs : VarDescs × VarDescs) (bus : ℕ → Device) (d : ℕ) {c : Crate}
    (hc : IdsFresh c) : IdsFresh (addDevice descs bus d c).1 := by
  unfold addDevice
  dsimp only
  split
  · exact hc.add (by simpa using (List.perm_append_singleton _ _).symm.append_left _) rfl
  · split
    · exact hc.of_keeps ⟨.refl _, Nat.le_succ _⟩
    · split
      · exact hc.add (by simpa using (List.perm_append_singleton _ _).symm.append_left _) rfl
      · exact hc.add (by simp; rfl) rfl

theorem enumerate_idsFresh (descs : VarDescs × VarDescs) (bus : ℕ → Device) :
    ∀ (ds : List ℕ) {c : Crate}, IdsFresh c → IdsFresh (enumerate descs bus ds c).1
  | [], _, hc => hc
  | d :: ds, c, hc => by
    have h := addDevice_idsFresh descs bus d hc
    unfold enumerate
    dsimp only
    split
    · exact h
    · exact h
    · exact enumerate_idsFresh descs bus ds h

theorem initializeLocked_idsFresh (descs : VarDescs × VarDescs) (bus : ℕ → Device) {c : Crate}
    (hc : IdsFresh c) : IdsFresh (initializeLocked descs bus c).crate := by
  have h1 := enumerate_idsFresh descs bus (List.range maxSlots) hc
  unfold initializeLocked
  split
  · next heq =>
    rw [heq] at h1
    exact h1.of_keeps (Crate.keeps_of_perm (.refl _) rfl rfl)
  · next c1 _ heq =>
    rw [heq] at h1
    dsimp only at h1 ⊢
    let c2 : Crate := { c1 with
      numModules := c1.modules.length
      backplaneSize := c1.modules.length + c1.offline.length
      revision := checkRevision (c1.modules ++ c1.offline) }
    have h2 : IdsFresh c2 := h1.of_keeps (Crate.keeps_of_perm (.refl _) rfl rfl)
    exact (h2.of_keeps (checkSlots_inPlace c2).keeps).of_keeps (Crate.keeps_of_perm
      ((ids_orderBySlot _).trans (.of_eq (ids_setNumberBySlot _))) rfl rfl)

theorem initializeCrate_idsFresh (descs : VarDescs × VarDescs) (bus : ℕ → Device) {c : Crate}
    (hc : IdsFresh c) : IdsFresh (initializeCrate descs bus c).crate := by
  unfold initializeCrate
  split
  · exact hc
  · exact initializeLocked_idsFresh descs bus (hc.of_keeps (Crate.keeps_of_perm (.refl _) rfl rfl))

theorem Op.apply_idsFresh (op : Op) {c : Crate} (hc : IdsFresh c) :
    IdsFresh (op.apply c).crate := by
  cases op with
  | initializeCrate descs bus => exact initializeCrate_idsFresh descs bus hc
  | shutdown close => exact hc.of_keeps (shutdown_keeps close c)
  | probe outcome => exact hc.of_keeps (probe_inPlace outcome c).keeps
  | boot params outcome => exact hc.of_keeps (boot_inPlace params outcome c).keeps
  | setOfflineNumber number => exact hc.of_keeps (setOfflineNumber_keeps number c)
  | setOffline id => exact hc.of_keeps (setOffline_keeps id c)
  | moveOfflines => exact hc.of_keeps (moveOfflines_keeps c)
  | assign numbers close outcome => exact hc.of_keeps (assign_keeps numbers close outcome c)
  | importConfig filename file outcome =>
    exact hc.of_keeps (importConfig_inPlace filename file outcome c).keeps
  | initializeAfe outcome => exact (initializeAfe_crate outcome c).symm ▸ hc

theorem closeLoop_calls_of_ok (close : ℕ → Except Exception Unit) (first k : Code)
    (ms : List Module) (h : (closeLoop close first ms).2.2 = .ok k) :
    (closeLoop close first ms).1 = ms.map (Call.close ∘ Module.id) := by
  induction ms generalizing first with
  | nil => rfl
  | cons m ms ih =>
    revert h
    unfold closeLoop
    split
    · exact fun h => by simp [ih first h]
    · next c _ _ => exact fun h => by simp [ih c h]
    · intro h
      cases h

/-- A shutdown that returns has closed every module of `modules` once, in order, and cleared
`modules` and `ready`; it leaves `offline` and `num_modules` as they were. -/
theorem shutdown_returned {close : ℕ → Except Exception Unit} {c : Crate}
    (h : (shutdown close c).exit = .returned ()) :
    (shutdown close c).crate = { c with modules := [], ready := false } ∧
      (shutdown close c).calls = c.modules.map (Call.close ∘ Module.id) := by
  revert h
  unfold shutdown
  split
  · intro h
    cases h
  · next calls _ first heq =>
    have hcalls := closeLoop_calls_of_ok close .success first c.modules (by rw [heq])
    rw [heq] at hcalls
    split
    · exact fun _ => ⟨rfl, hcalls⟩
    · intro h
      cases h

/-- Two modules whose closes return: `shutdown` returns having closed both. -/
theorem shutdown_returned_two :
    (shutdown (fun _ => .ok ()) twoModules).exit = .returned () ∧
      (shutdown (fun _ => .ok ()) twoModules).crate = { twoModules with modules := [], ready := false } ∧
      (shutdown (fun _ => .ok ()) twoModules).calls = twoModules.modules.map (Call.close ∘ Module.id) :=
  have h : (shutdown (fun _ => .ok ()) twoModules).exit = .returned () := by decide
  ⟨h, shutdown_returned h⟩

/-- One module in slot 2 on device 0, and nothing after it. -/
def busOne (d : ℕ) : Device :=
  if d = 0 then .opens ⟨2, 15, 2, 1, 0, 16⟩ else .absent

/-- An initialize on `busOne`, then a shutdown whose close returns. -/
def initializedThenShutDown : Crate :=
  run Crate.new [.initializeCrate (.empty, .empty) busOne, .shutdown fun _ => .ok ()]

/-- After an initialize and a shutdown, `num_modules` still counts the closed module:
`crate[0]` passes its check and reads past the end of `modules`, and so do
`set_offline(0)` and a module handle for module 0. -/
theorem shutdown_keeps_num_modules :
    initializedThenShutDown.numModules = 1 ∧ initializedThenShutDown.modules = [] ∧
      initializedThenShutDown.index 0 = .ok none ∧
      (setOfflineNumber 0 initializedThenShutDown).exit = .undefined ∧
      initializedThenShutDown.moduleHandle 0 .online = .ok none := by
  decide

/-- An initialize on `busOne`, `set_offline(0)`, a shutdown, and an initialize again. -/
def reinitializedAfterSetOffline : Crate :=
  run Crate.new [.initializeCrate (.empty, .empty) busOne, .setOfflineNumber 0,
    .shutdown fun _ => .ok (), .initializeCrate (.empty, .empty) busOne]

/-- A module set offline survives a shutdown, and the next initialize opens the same device as
a new module object: two present modules then hold slot 2. -/
theorem reinitialize_duplicates_offline_slot :
    (reinitializedAfterSetOffline.modules ++ reinitializedAfterSetOffline.offline).map
      (fun m => (m.id, m.present, m.slot)) = [(2, true, 2), (0, true, 2)] := by
  decide

/-- One module in slot 2 on device 0, a module whose open fails on device 1, and nothing
after them. -/
def busTwo (d : ℕ) : Device :=
  if d = 0 then .opens ⟨2, 15, 2, 1, 0, 16⟩
  else if d = 1 then .openFails .moduleInitializeFailure
  else .absent

/-- A shutdown, with every close returning, of a new crate initialized on `busTwo`. -/
def shutDownTwo : Outcome Unit :=
  shutdown (fun _ => .ok ()) (initializeCrate (.empty, .empty) busTwo Crate.new).crate

/-- A shutdown that returns closes only the module in `modules`: the offline module is neither
closed nor dropped, `num_modules` stays 1, and an initialize after it sizes the backplane for
three modules where an initialize of a new crate sizes it for two. -/
theorem shutdown_then_initialize_differs :
    shutDownTwo.exit = .returned () ∧ shutDownTwo.calls = [.close 0] ∧
      shutDownTwo.crate.numModules = 1 ∧ Crate.ids shutDownTwo.crate.offline = [1] ∧
      (initializeCrate (.empty, .empty) busTwo shutDownTwo.crate).crate.backplaneSize = 3 ∧
      (initializeCrate (.empty, .empty) busTwo Crate.new).crate.backplaneSize = 2 := by
  decide

end PixieSdk
