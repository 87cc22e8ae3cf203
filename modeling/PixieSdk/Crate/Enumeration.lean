import PixieSdk.Crate.Initialize

/-! # `crate::initialize` on a new crate

On a bus where every device is absent, opens, or fails its open with a pixie error,
`initialize` on a new crate opens device numbers 0, 1, ... up to the first absent one. Module
identities then agree with device numbers. The devices that opened become the modules, ordered
and numbered by slot; those whose open failed go offline in device order. The enumeration
loop is read off once, from any start number, by `enumerate_range'`. -/

namespace PixieSdk

namespace Device

def opened : Device → Bool
  | .opens _ => true
  | _ => false

/-- The device is on the bus but its open throws a pixie error. -/
def openFailed : Device → Bool
  | .openFails _ => true
  | _ => false

end Device

/-- The module `add_module` makes of device number `d` when the next identity is `d`. -/
def busModule (descs : VarDescs × VarDescs) (bus : ℕ → Device) (d : ℕ) : Module :=
  ({ Module.fresh d with
      moduleVarDescriptors := descs.1, channelVarDescriptors := descs.2 }).openDevice (bus d)

/-- The device numbers of `ds` before the first absent device. -/
def seen (bus : ℕ → Device) (ds : List ℕ) : List ℕ :=
  ds.takeWhile fun d => bus d != .absent

theorem enumerate_range' (descs : VarDescs × VarDescs) (bus : ℕ → Device)
    (hbus : ∀ d, bus d ≠ .openFaults) :
    ∀ (k a : ℕ) (c : Crate), c.nextId = a →
      enumerate descs bus (List.range' a k) c =
        ({ c with
            modules := c.modules ++
              ((seen bus (List.range' a k)).filter fun d => (bus d).opened).map (busModule descs bus)
            offline := c.offline ++
              ((seen bus (List.range' a k)).filter fun d => (bus d).openFailed).map (busModule descs bus)
            nextId := a + min ((seen bus (List.range' a k)).length + 1) k },
         (List.range' a (min ((seen bus (List.range' a k)).length + 1) k)).map
           fun d => Call.openDevice d d,
         none)
  | 0, _, c, rfl => by simp [enumerate, seen]
  | k + 1, _, c, rfl => by
    rw [List.range'_succ]
    cases hb : bus c.nextId with
    | absent => simp [enumerate, addDevice, hb, seen, Module.openDevice, Module.fresh]
    | opens info =>
      have hadd : addDevice descs bus c.nextId c =
          ({ c with nextId := c.nextId + 1,
                    modules := c.modules ++ [busModule descs bus c.nextId] }, none, true) := by
        simp [addDevice, hb, busModule, Module.openDevice, Module.fresh]
      rw [enumerate, hadd]
      dsimp only
      rw [enumerate_range' descs bus hbus k (c.nextId + 1) _ rfl]
      simp [seen, List.takeWhile_cons, hb, Device.opened, Device.openFailed,
        Nat.add_min_add_right, List.range'_succ]
      omega
    | openFails code =>
      have hadd : addDevice descs bus c.nextId c =
          ({ c with nextId := c.nextId + 1,
                    offline := c.offline ++ [busModule descs bus c.nextId] }, none, true) := by
        simp [addDevice, hb, busModule, Module.openDevice, Module.fresh]
      rw [enumerate, hadd]
      dsimp only
      rw [enumerate_range' descs bus hbus k (c.nextId + 1) _ rfl]
      simp [seen, List.takeWhile_cons, hb, Device.opened, Device.openFailed,
        Nat.add_min_add_right, List.range'_succ]
      omega
    | openFaults => exact absurd hb (hbus _)

@[simp] theorem busModule_id (descs : VarDescs × VarDescs) (bus : ℕ → Device) (d : ℕ) :
    (busModule descs bus d).id = d := by
  simp [busModule, Module.fresh]

theorem ids_map_busModule (descs : VarDescs × VarDescs) (bus : ℕ → Device) (ds : List ℕ) :
    Crate.ids (ds.map (busModule descs bus)) = ds := by
  simp [Crate.ids, Function.comp_def]

theorem fixDuplicate_backplaneSize (revision : ℤ) (c : Crate) (dup : Module × Module) :
    (fixDuplicate revision c dup).backplaneSize = c.backplaneSize := by
  unfold fixDuplicate
  dsimp only
  repeat' split
  all_goals rfl

theorem foldl_fixDuplicate_backplaneSize (revision : ℤ) :
    ∀ (dups : List (Module × Module)) (c : Crate),
      (dups.foldl (fixDuplicate revision) c).backplaneSize = c.backplaneSize
  | [], _ => rfl
  | d :: ds, c =>
    (foldl_fixDuplicate_backplaneSize revision ds _).trans (fixDuplicate_backplaneSize revision c d)

theorem checkSlots_backplaneSize (c : Crate) : (checkSlots c).backplaneSize = c.backplaneSize :=
  foldl_fixDuplicate_backplaneSize _ _ _

theorem findIdx_id_getElem {l : List Module} (hnd : (Crate.ids l).Nodup) {i : ℕ}
    (h : i < l.length) : l.findIdx (·.id == l[i].id) = i := by
  rw [List.findIdx_eq h]
  refine ⟨by simp, fun j hji => ?_⟩
  have hj : j < (Crate.ids l).length := by simp [Crate.ids]; omega
  have hi : i < (Crate.ids l).length := by simp [Crate.ids]; omega
  have hne : (Crate.ids l)[j] ≠ (Crate.ids l)[i] := fun he => by
    have := (hnd.getElem_inj_iff).mp he
    omega
  simpa [Crate.ids] using hne

theorem number_orderBySlot_setNumberBySlot {ms : List Module} (hnd : (Crate.ids ms).Nodup)
    (i : ℕ) (h : i < (orderBySlot (setNumberBySlot ms)).length) :
    (orderBySlot (setNumberBySlot ms))[i].number = i := by
  have hmap : orderBySlot (setNumberBySlot ms) =
      (orderBySlot ms).map fun m => { m with number := (orderBySlot ms).findIdx (·.id == m.id) } := by
    unfold setNumberBySlot orderBySlot
    refine (List.map_insertionSort (fun a b : Module => a.slot ≤ b.slot)
      (fun a b : Module => a.slot ≤ b.slot) _ ms ?_).symm
    intros
    rfl
  have hnd' : (Crate.ids (orderBySlot ms)).Nodup := (ids_orderBySlot ms).nodup_iff.mpr hnd
  simp only [hmap, List.getElem_map]
  rw [findIdx_id_getElem hnd']

theorem initializeCrate_ready_of_threw (descs : VarDescs × VarDescs) (bus : ℕ → Device)
    {c : Crate} (hc : c.ready = false) {e : Exception}
    (h : (initializeCrate descs bus c).exit = .threw e) :
    (initializeCrate descs bus c).crate.ready = false := by
  simp only [initializeCrate, hc, Bool.false_eq_true, if_false, initializeLocked] at h ⊢
  split at h <;> simp_all

/-- `initialize` on a new crate over a bus whose opens only fail with pixie errors. -/
theorem initialize_new_crate (descs : VarDescs × VarDescs) (bus : ℕ → Device)
    (hbus : ∀ d, bus d ≠ .openFaults) :
    let r := initializeCrate descs bus Crate.new
    let ds := seen bus (List.range maxSlots)
    r.calls = (List.range (min (ds.length + 1) maxSlots)).map (fun d => Call.openDevice d d) ∧
    r.exit = .returned () ∧
    (Crate.ids r.crate.modules).Perm (ds.filter fun d => (bus d).opened) ∧
    r.crate.modules.Sorted (fun a b => a.slot ≤ b.slot) ∧
    (∀ (i : ℕ) (h : i < r.crate.modules.length), r.crate.modules[i].number = i) ∧
    Crate.ids r.crate.offline = ds.filter (fun d => (bus d).openFailed) ∧
    r.crate.numModules = r.crate.modules.length ∧ r.crate.modules.length ≤ maxSlots ∧
    r.crate.backplaneSize = r.crate.modules.length + r.crate.offline.length ∧
    r.crate.ready = true ∧
    (∀ descs' bus', initializeCrate descs' bus' r.crate =
      ⟨r.crate, [], .threw (.pixie .crateAlreadyOpen "create already initialised")⟩) ∧
    (∀ descs' bus' (c : Crate) e, c.ready = false → (initializeCrate descs' bus' c).exit = .threw e →
      (initializeCrate descs' bus' c).crate.ready = false) := by
  intro r ds
  set c1 : Crate := { Crate.new with
    ready := true
    modules := (ds.filter fun d => (bus d).opened).map (busModule descs bus)
    offline := (ds.filter fun d => (bus d).openFailed).map (busModule descs bus)
    nextId := min (ds.length + 1) maxSlots }
  have henum : enumerate descs bus (List.range maxSlots) { Crate.new with ready := true } =
      (c1, (List.range (min (ds.length + 1) maxSlots)).map (fun d => Call.openDevice d d), none) := by
    rw [List.range_eq_range', enumerate_range' descs bus hbus maxSlots 0 _ rfl]
    simp [c1, ds, Crate.new, List.range_eq_range']
  set c2 : Crate := { c1 with
    numModules := c1.modules.length
    backplaneSize := c1.modules.length + c1.offline.length
    revision := checkRevision (c1.modules ++ c1.offline) }
  have hr : r = ⟨{ checkSlots c2 with modules := orderBySlot (setNumberBySlot (checkSlots c2).modules) },
      (List.range (min (ds.length + 1) maxSlots)).map (fun d => Call.openDevice d d), .returned ()⟩ := by
    show initializeLocked descs bus { Crate.new with ready := true } = _
    rw [initializeLocked, henum]
  have hin : Crate.InPlace c2 (checkSlots c2) := checkSlots_inPlace c2
  have hO : Crate.ids (checkSlots c2).modules = ds.filter fun d => (bus d).opened :=
    hin.modules_ids.trans (ids_map_busModule _ _ _)
  have hnd : (Crate.ids (checkSlots c2).modules).Nodup := hO ▸
    (List.nodup_range maxSlots).sublist ((List.filter_sublist _).trans (List.takeWhile_sublist _))
  have hlen : (orderBySlot (setNumberBySlot (checkSlots c2).modules)).length = c1.modules.length := by
    rw [length_orderBySlot, length_setNumberBySlot, hin.modules_length]
  have hoff : (checkSlots c2).offline.length = c1.offline.length := by
    simpa only [Crate.ids, List.length_map] using congrArg List.length hin.offline_ids
  haveI : IsTotal Module fun a b => a.slot ≤ b.slot := ⟨fun a b => le_total a.slot b.slot⟩
  haveI : IsTrans Module fun a b => a.slot ≤ b.slot := ⟨fun _ _ _ => le_trans⟩
  rw [hr]
  refine ⟨rfl, rfl, (ids_orderBySlot _).trans (by rw [ids_setNumberBySlot, hO]),
    List.sorted_insertionSort _ _, number_orderBySlot_setNumberBySlot hnd,
    hin.offline_ids.trans (ids_map_busModule _ _ _), ?_, ?_, ?_, hin.ready_eq,
    fun _ _ => by simp [initializeCrate, hin.ready_eq], fun _ _ _ _ hc => initializeCrate_ready_of_threw _ _ hc⟩
  · exact hin.numModules_eq.trans hlen.symm
  · calc (orderBySlot (setNumberBySlot (checkSlots c2).modules)).length = c1.modules.length := hlen
      _ ≤ ds.length := (List.length_map _ _).trans_le (List.length_filter_le _ _)
      _ ≤ maxSlots := ((List.takeWhile_sublist _).length_le).trans (List.length_range _).le
  · simp only [hlen, hoff, checkSlots_backplaneSize]

/-- A bus with modules in slots 5 and 2 at device numbers 0 and 1, a device whose open fails
at 2, and nothing from 3 on. -/
def busSlotsFiveTwo : ℕ → Device
  | 0 => .opens ⟨5, 15, 0, 1, 4, 16⟩
  | 1 => .opens ⟨2, 15, 0, 1, 5, 16⟩
  | 2 => .openFails .moduleInitializeFailure
  | _ => .absent

theorem initialize_new_crate_slots_five_two :
    (∀ d, busSlotsFiveTwo d ≠ .openFaults) ∧
    Crate.ids (initializeCrate (.empty, .empty) busSlotsFiveTwo Crate.new).crate.offline = [2] :=
  have hbus : ∀ d, busSlotsFiveTwo d ≠ .openFaults := fun
    | 0 | 1 | 2 | _ + 3 => by simp [busSlotsFiveTwo]
  ⟨hbus, (initialize_new_crate (.empty, .empty) busSlotsFiveTwo hbus).2.2.2.2.2.1.trans (by decide)⟩

example : Crate.ids (initializeCrate (.empty, .empty) busSlotsFiveTwo Crate.new).crate.modules = [1, 0] := by
  decide

end PixieSdk
