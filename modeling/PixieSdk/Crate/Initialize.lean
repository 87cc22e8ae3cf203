import PixieSdk.Crate.State

/-! # `crate::initialize`

`initialize` flips `ready`, then opens device numbers 0, 1, ... up to `hw::max_slots`,
adding a module for each: the first absent device ends the enumeration, a module that
opens stays in `modules`, and one seen on the bus whose open failed moves to `offline`.
It then sizes the backplane, records the crate revision, looks for duplicate slots, and
numbers and orders the modules by slot. -/

namespace PixieSdk

/-- `hw::max_slots`. -/
def maxSlots : ℕ := 13

/-- `crate::add_module` and `module.open(device_number)` for one device: a module with the next
identity is created and opened; an open throwing anything but a pixie error leaves it in `modules`
with the exception in flight. Returns whether enumeration goes on. -/
def addDevice (descs : VarDescs × VarDescs) (bus : ℕ → Device) (d : ℕ) (c : Crate) :
    Crate × Option Exception × Bool :=
  let m : Module :=
    { Module.fresh c.nextId with moduleVarDescriptors := descs.1, channelVarDescriptors := descs.2 }
  let c' := { c with nextId := c.nextId + 1 }
  match bus d with
  | .openFaults => ({ c' with modules := c.modules ++ [m] }, some .other, false)
  | dev =>
    let m' := m.openDevice dev
    if !m'.devicePresent then (c', none, false)
    else if m'.present then ({ c' with modules := c.modules ++ [m'] }, none, true)
    else ({ c' with offline := c.offline ++ [m'] }, none, true)

/-- The enumeration loop of `initialize` over the device numbers. -/
def enumerate (descs : VarDescs × VarDescs) (bus : ℕ → Device) :
    List ℕ → Crate → Crate × List Call × Option Exception
  | [], c => (c, [], none)
  | d :: ds, c =>
    let r := addDevice descs bus d c
    let call := Call.openDevice c.nextId d
    match r.2.1, r.2.2 with
    | some e, _ => (r.1, [call], some e)
    | none, false => (r.1, [call], none)
    | none, true =>
      let r' := enumerate descs bus ds r.1
      (r'.1, call :: r'.2.1, r'.2.2)

/-- `crate::check_revision()`: the crate revision of the first present module, looking at
`modules` then `offline`, or -1. -/
def checkRevision (ms : List Module) : ℤ :=
  ms.foldl (fun rev m => if m.present && decide (rev < 0) then m.crateRevision else rev) (-1)

/-- `find_dups::check(mod, mods)`: record `(mod, compare)` for each present `compare` other
than `mod` in `mod`'s slot, unless a pair for that slot is already recorded. -/
def checkDups (mods : List Module) (dups : List (Module × Module)) (mod : Module) :
    List (Module × Module) :=
  if !mod.present then dups
  else mods.foldl (fun dups compare =>
    if compare.present && compare.id != mod.id && mod.slot == compare.slot &&
        !(dups.any fun dup => dup.1.slot == mod.slot)
    then dups ++ [(mod, compare)] else dups) dups

/-- Set the slot of the module with identity `id`. -/
def setSlot (id : ℕ) (slot : ℤ) (ms : List Module) : List Module :=
  ms.map fun m => if m.id = id then { m with slot := slot } else m

/-- The legacy fix of `crate::check_slots` for one duplicate pair: on crate revision 2, two
modules reporting slot 5 on one PCI bus are told apart by PCI slot 13, which is slot 4. -/
def fixDuplicate (revision : ℤ) (c : Crate) (dup : Module × Module) : Crate :=
  let all := c.modules ++ c.offline
  match all.find? (·.id = dup.1.id), all.find? (·.id = dup.2.id) with
  | some m1, some m2 =>
    if revision = 2 ∧ m1.slot = 5 ∧ m1.pciBus = m2.pciBus then
      if m1.pciSlot = 13 then
        { c with modules := setSlot m1.id 4 c.modules, offline := setSlot m1.id 4 c.offline }
      else if m2.pciSlot = 13 then
        { c with modules := setSlot m2.id 4 c.modules, offline := setSlot m2.id 4 c.offline }
      else c
    else c
  | _, _ => c

/-- `crate::check_slots()`: collect the duplicate pairs over `modules` and `offline`, then
apply the legacy fix to each. Duplicates that remain are only logged. -/
def checkSlots (c : Crate) : Crate :=
  let dups := c.modules.foldl (fun dups m => checkDups c.offline (checkDups c.modules dups m) m) []
  let dups := c.offline.foldl (fun dups m => checkDups c.offline (checkDups c.modules dups m) m) dups
  dups.foldl (fixDuplicate c.revision) c

theorem setSlot_ids (id : ℕ) (slot : ℤ) (ms : List Module) :
    Crate.ids (setSlot id slot ms) = Crate.ids ms :=
  Crate.ids_map (fun m => by by_cases h : m.id = id <;> simp [h]) ms

theorem fixDuplicate_inPlace (revision : ℤ) (c : Crate) (dup : Module × Module) :
    Crate.InPlace c (fixDuplicate revision c dup) := by
  unfold fixDuplicate
  dsimp only
  repeat' split
  all_goals first
    | exact .refl _
    | exact ⟨rfl, rfl, rfl, setSlot_ids _ _ _, setSlot_ids _ _ _⟩

theorem foldl_fixDuplicate_inPlace (revision : ℤ) :
    ∀ (dups : List (Module × Module)) (c : Crate),
      Crate.InPlace c (dups.foldl (fixDuplicate revision) c)
  | [], _ => .refl _
  | d :: ds, c =>
    (fixDuplicate_inPlace revision c d).trans (foldl_fixDuplicate_inPlace revision ds _)

theorem checkSlots_inPlace (c : Crate) : Crate.InPlace c (checkSlots c) :=
  foldl_fixDuplicate_inPlace _ _ _

/-- Modelled from the spec (`module.cpp` is not part of the sources): `order_by_slot` sorts
modules by slot. -/
def orderBySlot (ms : List Module) : List Module :=
  ms.insertionSort fun a b => a.slot ≤ b.slot

/-- Modelled from the spec: `set_number_by_slot` numbers the modules 0, 1, ... in slot order. -/
def setNumberBySlot (ms : List Module) : List Module :=
  ms.map fun m => { m with number := (orderBySlot ms).findIdx (·.id == m.id) }

theorem ids_orderBySlot (ms : List Module) :
    List.Perm (Crate.ids (orderBySlot ms)) (Crate.ids ms) :=
  (List.perm_insertionSort _ ms).map _

theorem ids_setNumberBySlot (ms : List Module) :
    Crate.ids (setNumberBySlot ms) = Crate.ids ms := by
  unfold setNumberBySlot
  apply Crate.ids_map
  intro _
  rfl

theorem length_orderBySlot (ms : List Module) : (orderBySlot ms).length = ms.length :=
  (List.perm_insertionSort _ ms).length_eq

theorem length_setNumberBySlot (ms : List Module) : (setNumberBySlot ms).length = ms.length :=
  List.length_map _ _

/-- `crate::initialize()` under the crate lock, once `ready_` was exchanged to true: enumerate the
bus, size the backplane, check the revision and slots, number and order the modules; an exception
drops `ready_`. -/
def initializeLocked (descs : VarDescs × VarDescs) (bus : ℕ → Device) (c : Crate) :
    Outcome Unit :=
  match enumerate descs bus (List.range maxSlots) c with
  | (c1, calls, some e) => ⟨{ c1 with ready := false }, calls, .threw e⟩
  | (c1, calls, none) =>
    let c2 := { c1 with
      numModules := c1.modules.length
      backplaneSize := c1.modules.length + c1.offline.length
      revision := checkRevision (c1.modules ++ c1.offline) }
    let c3 := checkSlots c2
    ⟨{ c3 with modules := orderBySlot (setNumberBySlot c3.modules) }, calls, .returned ()⟩

/-- `crate::initialize()`: `ready_.exchange(true)` outside the lock, then the locked region. -/
def initializeCrate (descs : VarDescs × VarDescs) (bus : ℕ → Device) (c : Crate) : Outcome Unit :=
  if c.ready then ⟨c, [], .threw (.pixie .crateAlreadyOpen "create already initialised")⟩
  else initializeLocked descs bus { c with ready := true }

end PixieSdk
