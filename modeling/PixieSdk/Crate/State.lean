import PixieSdk.Module

/-! # The crate state

The crate's fields, its `ready()` gate, indexing by module number and by slot, the module
handle, and the record of what a crate operation did: the crate it left, the calls it made
on modules, and how it ended. -/

namespace PixieSdk

/-- A crate (`crate::crate`). `nextId` is the identity the next module object gets. The
backplane is kept as the size `backplane.init` gave it; the role tables `reinit`
recomputes are read by no modelled function. -/
structure Crate where
  numModules : ℕ
  revision : ℤ
  backplaneSize : ℕ
  modules : List Module
  offline : List Module
  ready : Bool
  nextId : ℕ

/-- A call the crate code makes on a module, in the order it makes them. -/
inductive Call where
  | openDevice (id device : ℕ)
  | close (id : ℕ)
  | probe (id : ℕ)
  | boot (id : ℕ) (comms fippi dsp : Bool)
  | syncHw (id : ℕ)
  | syncVars (id : ℕ)
  | forceOffline (id : ℕ)
  | backplaneOffline (id : ℕ)
  deriving DecidableEq, Repr

/-- What a crate operation did: the crate it left, its calls on modules, and its exit. -/
structure Outcome (α : Type) where
  crate : Crate
  calls : List Call
  exit : Exit α

namespace Crate

/-- `crate::crate()`: no modules, revision -1, not ready. -/
def new : Crate :=
  ⟨0, -1, 0, [], [], false, 0⟩

def ids (ms : List Module) : List ℕ :=
  ms.map Module.id

@[simp] theorem ids_nil : ids [] = [] := rfl

@[simp] theorem ids_cons (m : Module) (ms : List Module) : ids (m :: ms) = m.id :: ids ms := rfl

@[simp] theorem ids_append (ms ms' : List Module) : ids (ms ++ ms') = ids ms ++ ids ms' :=
  List.map_append _ _ _

theorem ids_map {f : Module → Module} (hf : ∀ m, (f m).id = m.id) (ms : List Module) :
    ids (ms.map f) = ids ms := by
  simp [ids, hf]

theorem ids_mapIdx {f : ℕ → Module → Module} (hf : ∀ i m, (f i m).id = m.id)
    (ms : List Module) : ids (ms.mapIdx f) = ids ms := by
  apply List.ext_getElem (by simp [ids])
  intro i h₁ h₂
  simp [ids, hf]

theorem ids_set {ms : List Module} {i : ℕ} {m m' : Module} (hm : ms[i]? = some m)
    (h : m'.id = m.id) : ids (ms.set i m') = ids ms := by
  simp only [ids, List.map_set, h]
  apply List.ext_getElem?
  intro j
  rw [List.getElem?_set]
  split
  · next hij =>
    subst hij
    obtain ⟨hi, hmi⟩ := List.getElem?_eq_some_iff.mp hm
    simp [hi, hmi]
  · rfl

/-- `c'` holds the module objects of `c` in the same places, with the same counters: what an
operation that only updates its modules in place leaves. -/
structure InPlace (c c' : Crate) : Prop where
  numModules_eq : c'.numModules = c.numModules
  ready_eq : c'.ready = c.ready
  nextId_eq : c'.nextId = c.nextId
  modules_ids : ids c'.modules = ids c.modules
  offline_ids : ids c'.offline = ids c.offline

theorem InPlace.refl (c : Crate) : InPlace c c := ⟨rfl, rfl, rfl, rfl, rfl⟩

theorem InPlace.trans {c₀ c₁ c₂ : Crate} (h₁ : InPlace c₀ c₁) (h₂ : InPlace c₁ c₂) :
    InPlace c₀ c₂ :=
  ⟨h₂.numModules_eq.trans h₁.numModules_eq, h₂.ready_eq.trans h₁.ready_eq,
    h₂.nextId_eq.trans h₁.nextId_eq, h₂.modules_ids.trans h₁.modules_ids,
    h₂.offline_ids.trans h₁.offline_ids⟩

theorem InPlace.modules_length {c c' : Crate} (h : InPlace c c') :
    c'.modules.length = c.modules.length := by
  simpa [ids] using congrArg List.length h.modules_ids

theorem inPlace_modules {c : Crate} {ms : List Module} (h : ids ms = ids c.modules) :
    InPlace c { c with modules := ms } :=
  ⟨rfl, rfl, rfl, h, rfl⟩

theorem perm_eraseP_of_find? {α : Type} {p : α → Bool} :
    ∀ {l : List α} {a : α}, l.find? p = some a → List.Perm l (a :: l.eraseP p)
  | x :: xs, a, h => by
    by_cases hx : p x
    · rw [List.find?_cons_of_pos _ hx] at h
      cases h
      rw [List.eraseP_cons_of_pos hx]
    · rw [List.find?_cons_of_neg _ hx] at h
      rw [List.eraseP_cons_of_neg hx]
      exact ((perm_eraseP_of_find? h).cons x).trans (.swap _ _ _)

/-- Every module object of `c'` is one of `c`, none more often than there, and no identity
was handed out again. -/
structure Keeps (c c' : Crate) : Prop where
  subperm : List.Subperm (ids (c'.modules ++ c'.offline)) (ids (c.modules ++ c.offline))
  nextId_le : c.nextId ≤ c'.nextId

theorem Keeps.refl (c : Crate) : Keeps c c := ⟨.refl _, le_rfl⟩

theorem Keeps.trans {c₀ c₁ c₂ : Crate} (h₁ : Keeps c₀ c₁) (h₂ : Keeps c₁ c₂) : Keeps c₀ c₂ :=
  ⟨h₂.subperm.trans h₁.subperm, h₁.nextId_le.trans h₂.nextId_le⟩

theorem InPlace.keeps {c c' : Crate} (h : InPlace c c') : Keeps c c' :=
  ⟨by rw [ids_append, ids_append, h.modules_ids, h.offline_ids], h.nextId_eq.ge⟩

theorem keeps_of_perm {c c' : Crate} (hp : List.Perm (ids c'.modules) (ids c.modules))
    (ho : c'.offline = c.offline) (hn : c'.nextId = c.nextId) : Keeps c c' :=
  ⟨by rw [ids_append, ids_append, ho]; exact (hp.append_right _).subperm, hn.ge⟩

theorem keeps_move {c c' : Crate} {p : Module → Bool} {m : Module}
    (hm : c.modules.find? p = some m) (hmod : c'.modules = c.modules.eraseP p)
    (hoff : ids c'.offline = ids c.offline ++ [m.id]) (hn : c'.nextId = c.nextId) :
    Keeps c c' := by
  refine ⟨List.Perm.subperm ?_, hn.ge⟩
  rw [ids_append, ids_append, hoff, hmod, ← List.append_assoc]
  exact (List.perm_append_singleton _ _).trans
    (((perm_eraseP_of_find? hm).map Module.id).append_right _).symm

/-- `crate::ready()`. -/
def checkReady (c : Crate) : Except Exception Unit :=
  if c.ready then .ok () else .error (.pixie .crateNotReady "crate is not ready")

/-- `ready()` and then the rest of a call: a crate that is not ready throws and is left as
it was. -/
def whenReady {α : Type} (c : Crate) (rest : Crate → Outcome α) : Outcome α :=
  match c.checkReady with
  | .error e => ⟨c, [], .threw e⟩
  | .ok () => rest c

@[simp] theorem whenReady_of_ready {α : Type} {c : Crate} (h : c.ready = true)
    (rest : Crate → Outcome α) : c.whenReady rest = rest c := by
  simp [whenReady, checkReady, h]

@[simp] theorem whenReady_of_not_ready {α : Type} {c : Crate} (h : c.ready = false)
    (rest : Crate → Outcome α) :
    c.whenReady rest = ⟨c, [], .threw (.pixie .crateNotReady "crate is not ready")⟩ := by
  simp [whenReady, checkReady, h]

theorem whenReady_preserves {α : Type} (P : Crate → Crate → Prop) (hrefl : ∀ c, P c c)
    {c : Crate} {rest : Crate → Outcome α} (h : P c (rest c).crate) :
    P c (c.whenReady rest).crate := by
  unfold whenReady
  split
  · exact hrefl c
  · exact h

/-- `static_cast<size_t>` of an index: a negative `int` wraps around. -/
def toSizeT (number : ℤ) : ℕ :=
  (number % 18446744073709551616).toNat

/-- `crate::operator[](number)`: `module_number_invalid` at or past `num_modules`, otherwise
the read of `modules[number]`; `none` is a read past the end of `modules`. -/
def index (c : Crate) (number : ℤ) : Except Exception (Option Module) :=
  if c.numModules ≤ toSizeT number then
    .error (.pixie .moduleNumberInvalid ("module number out of range: " ++ toString number))
  else .ok c.modules[toSizeT number]?

/-- `crate::operator[](number)` for a `size_t` number, which it takes as it is. -/
def indexSize (c : Crate) (number : ℕ) : Except Exception (Option Module) :=
  if c.numModules ≤ number then
    .error (.pixie .moduleNumberInvalid ("module number out of range: " ++ toString number))
  else .ok c.modules[number]?

theorem getElem?_of_indexSize {c : Crate} {number : ℕ} {m : Module}
    (h : c.indexSize number = .ok (some m)) : c.modules[number]? = some m := by
  unfold indexSize at h
  split at h <;> simp_all

/-- `crate::find(slot)`: the first module of `modules`, then of `offline`, in the slot. -/
def find (c : Crate) (slot : ℤ) : Except Exception Module :=
  match c.modules.find? (·.slot = slot) with
  | some m => .ok m
  | none =>
    match c.offline.find? (·.slot = slot) with
    | some m => .ok m
    | none => .error (.pixie .moduleNumberInvalid "module slot not found")

/-- The check a `module_handle` makes on its module. -/
inductive HandleCheck where
  | online
  | present
  | none

/-- The checks a `module_handle` makes once it refers to module `m`: `ready()`, then the
module's state as `check` asks. -/
def handleChecks (c : Crate) (m : Module) (check : HandleCheck) : Except Exception Module :=
  match c.checkReady, check with
  | .error e, _ => .error e
  | .ok (), .online =>
    if m.online then .ok m else .error (.pixie .moduleOffline "module-handle: module not online")
  | .ok (), .present =>
    if m.present then .ok m else .error (.pixie .moduleOffline "module-handle: module not present")
  | .ok (), .none => .ok m

/-- `module_handle(crate, number, check)`: it indexes the crate before it checks `ready()`,
then checks the module. After a read past the end (`none`) the handle refers to no module. -/
def moduleHandle (c : Crate) (number : ℤ) (check : HandleCheck) :
    Except Exception (Option Module) :=
  match c.index number with
  | .error e => .error e
  | .ok none => .ok none
  | .ok (some m) => (c.handleChecks m check).map some

end Crate

end PixieSdk
