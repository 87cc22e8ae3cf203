import PixieSdk.Param

/-! # Modules

A module as the crate and configuration code see it: its identity, slot and number, its
flags, its channel count and its variable caches. The module's own operations (`open`,
`close`, `boot`, `probe`, `sync_hw`, `sync_vars`) live in `module.cpp`, which is not part of
the sources: the crate code is modelled over every outcome they can have. -/

namespace PixieSdk

/-- What a PCI device answers when a module opens it: the EEPROM data of a module that opens. -/
structure DeviceInfo where
  slot : ℤ
  revision : ℕ
  crateRevision : ℤ
  pciBus : ℕ
  pciSlot : ℕ
  numChannels : ℕ
  deriving DecidableEq, Repr

/-- A device number on the bus: no device (which ends the enumeration), a device that
opens, a device whose `open` throws a pixie error (`device_present()` but not `present()`),
or one whose `open` throws some other exception. -/
inductive Device where
  | absent
  | opens (info : DeviceInfo)
  | openFails (c : Code)
  | openFaults
  deriving DecidableEq, Repr

/-- A module object (`module::module`). `id` is the object's identity: every module the crate
creates is a new allocation. `channels` holds each channel's variable caches. -/
structure Module where
  id : ℕ
  slot : ℤ
  number : ℤ
  revision : ℕ
  crateRevision : ℤ
  pciBus : ℕ
  pciSlot : ℕ
  devicePresent : Bool
  present : Bool
  online : Bool
  forcedOffline : Bool
  numChannels : ℕ
  moduleVarDescriptors : VarDescs
  channelVarDescriptors : VarDescs
  moduleVars : List (List Cell)
  channels : List (List (List Cell))
  deriving DecidableEq

namespace Module

/-- Modelled from the spec: a module as `add_module` creates it, unassigned (`number` is -1),
not present and with no channels. -/
def fresh (id : ℕ) : Module where
  id := id
  slot := 0
  number := -1
  revision := 0
  crateRevision := -1
  pciBus := 0
  pciSlot := 0
  devicePresent := false
  present := false
  online := false
  forcedOffline := false
  numChannels := 0
  moduleVarDescriptors := .empty
  channelVarDescriptors := .empty
  moduleVars := []
  channels := []

/-- Modelled from the spec: `module::open(device_number)` on what the device answers. A
module that opens is present with its EEPROM data; one whose open fails is seen on the bus
but not present. -/
def openDevice (m : Module) : Device → Module
  | .absent => m
  | .opens d =>
    { m with slot := d.slot, revision := d.revision, crateRevision := d.crateRevision,
             pciBus := d.pciBus, pciSlot := d.pciSlot, numChannels := d.numChannels,
             devicePresent := true, present := true }
  | .openFails _ => { m with devicePresent := true }
  | .openFaults => m

/-- Modelled from the spec: `force_offline` takes the module offline without closing its bus
handle, so it stays present. -/
def forceOffline (m : Module) : Module :=
  { m with online := false, forcedOffline := true }

/-- Modelled from the spec (and `sim::module::close`): a closed module is no longer present. -/
def close (m : Module) : Module :=
  { m with present := false, online := false }

@[simp] theorem openDevice_id (m : Module) (d : Device) : (m.openDevice d).id = m.id := by
  cases d <;> rfl

@[simp] theorem forceOffline_id (m : Module) : m.forceOffline.id = m.id := rfl

@[simp] theorem forceOffline_present (m : Module) : m.forceOffline.present = m.present := rfl

@[simp] theorem forceOffline_slot (m : Module) : m.forceOffline.slot = m.slot := rfl

@[simp] theorem close_id (m : Module) : m.close.id = m.id := rfl

@[simp] theorem close_present (m : Module) : m.close.present = false := rfl

/-- `m'` is `m` with only its variable caches changed: what loading a configuration does. -/
def VarsOnly (m m' : Module) : Prop :=
  m' = { m with moduleVars := m'.moduleVars, channels := m'.channels }

theorem VarsOnly.refl (m : Module) : VarsOnly m m := rfl

theorem VarsOnly.trans {m₀ m₁ m₂ : Module} (h₁ : VarsOnly m₀ m₁) (h₂ : VarsOnly m₁ m₂) :
    VarsOnly m₀ m₂ := by
  unfold VarsOnly at *
  rw [h₁] at h₂
  exact h₂

theorem VarsOnly.congr {α : Type} {m m' : Module} (h : VarsOnly m m') (f : Module → α)
    (hf : ∀ vars chans, f { m with moduleVars := vars, channels := chans } = f m) :
    f m' = f m := by
  unfold VarsOnly at h
  rw [h, hf]

theorem VarsOnly.id_eq {m m' : Module} (h : VarsOnly m m') : m'.id = m.id :=
  h.congr Module.id fun _ _ => rfl

theorem VarsOnly.tables {m m' : Module} (h : VarsOnly m m') :
    m'.moduleVarDescriptors = m.moduleVarDescriptors ∧
      m'.channelVarDescriptors = m.channelVarDescriptors ∧ m'.numChannels = m.numChannels :=
  ⟨h.congr _ fun _ _ => rfl, h.congr _ fun _ _ => rfl, h.congr _ fun _ _ => rfl⟩

end Module

end PixieSdk
