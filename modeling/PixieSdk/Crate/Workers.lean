import PixieSdk.Crate.State

/-! # Fan-out and join: `boot`, `initialize_afe` and `shutdown`

`boot` and `initialize_afe` start one worker thread per module, each publishing a kind
through its `std::promise`, and then join them in spawn order. `shutdown` closes the
modules one after another. The module operations are the workers' outcomes, taken over
every assignment. -/

namespace PixieSdk

/-! ## The join loop -/

/-- What a worker publishes through its promise: `success` or the kind of the pixie error it
caught as a value, and any other exception through `set_exception`. -/
def publish : Except Exception Unit → Except Exception Code
  | .ok () => .ok .success
  | .error (.pixie c _) => .ok c
  | .error e => .error e

/-- The join loop of `boot` and `initialize_afe` in spawn order: `get()` keeps the first kind that
is not `success`, then `join()`; a stored exception is rethrown before its thread is joined. Returns
the threads joined and the kind or the exception. -/
def joinWorkers : Code → List (Except Exception Code) → ℕ × Except Exception Code
  | first, [] => (0, .ok first)
  | first, .ok e :: rest =>
    let r := joinWorkers (if first = .success then e else first) rest
    (r.1 + 1, r.2)
  | _, .error x :: _ => (0, .error x)

/-- How `boot` and `initialize_afe` end after the join loop. An exception rethrown by `get()`
unwinds past threads still joinable, whose destructor calls `std::terminate`; a kept kind
other than `success` is thrown as a pixie error with the call's message. -/
def joinExit (what : String) (published : List (Except Exception Code)) : Exit Unit :=
  match (joinWorkers .success published).2 with
  | .error _ => .terminated
  | .ok c => if c = .success then .returned () else .threw (.pixie c what)

/-- The first kind of a list that is not `success`. -/
def firstFailure : List Code → Code
  | [] => .success
  | c :: cs => if c = .success then firstFailure cs else c

/-- The kind a worker outcome publishes as a value; a foreign exception has none. -/
def kindOf : Except Exception Unit → Option Code
  | .ok () => some .success
  | .error (.pixie c _) => some c
  | .error _ => none

theorem publish_eq_kindOf {o : Except Exception Unit} {k : Code} (h : kindOf o = some k) :
    publish o = .ok k := by
  rcases o with (⟨⟩ | ⟨c, w⟩ | ⟨⟩ | ⟨⟩ | ⟨⟩) | ⟨⟩ <;> simp_all [kindOf, publish]

theorem map_publish_of_kinds {os : List (Except Exception Unit)} {ks : List Code}
    (hk : os.map kindOf = ks.map some) : os.map publish = ks.map .ok ∧ os.length = ks.length := by
  induction os generalizing ks with
  | nil => cases ks <;> simp_all
  | cons o os ih =>
    cases ks with
    | nil => simp at hk
    | cons k ks =>
      simp only [List.map_cons, List.cons.injEq, List.length_cons] at hk ⊢
      exact ⟨⟨publish_eq_kindOf hk.1, (ih hk.2).1⟩, by rw [(ih hk.2).2]⟩

theorem joinWorkers_values (first : Code) (ks : List Code) :
    joinWorkers first (ks.map .ok) =
      (ks.length, .ok (if first = .success then firstFailure ks else first)) := by
  induction ks generalizing first with
  | nil => by_cases hf : first = .success <;> simp [joinWorkers, firstFailure, hf]
  | cons k ks ih =>
    simp only [List.map_cons, joinWorkers, ih, List.length_cons]
    by_cases hf : first = .success <;> by_cases hk : k = .success <;> simp [hf, hk, firstFailure]

theorem joinExit_of_kinds (what : String) (os : List (Except Exception Unit)) (ks : List Code)
    (hk : os.map kindOf = ks.map some) :
    (joinWorkers .success (os.map publish)).1 = os.length ∧
      joinExit what (os.map publish) =
        if firstFailure ks = .success then .returned () else .threw (.pixie (firstFailure ks) what) := by
  obtain ⟨hp, hl⟩ := map_publish_of_kinds hk
  rw [hp, joinWorkers_values]
  refine ⟨by simp [hl], ?_⟩
  simp [joinExit, joinWorkers_values]

/-! ## `shutdown` -/

/-- The close loop of `crate::shutdown`. Each pixie error a close throws overwrites
`first_error`; any other exception leaves the loop at once. Returns the calls made, the
modules as the loop leaves them, and the kept kind or the escaping exception. -/
def closeLoop (close : ℕ → Except Exception Unit) :
    Code → List Module → List Call × List Module × Except Exception Code
  | first, [] => ([], [], .ok first)
  | first, m :: rest =>
    match close m.id with
    | .ok () =>
      let r := closeLoop close first rest
      (.close m.id :: r.1, m.close :: r.2.1, r.2.2)
    | .error (.pixie c _) =>
      let r := closeLoop close c rest
      (.close m.id :: r.1, m :: r.2.1, r.2.2)
    | .error e => ([.close m.id], m :: rest, .error e)

theorem closeLoop_ids (close : ℕ → Except Exception Unit) (first : Code) (ms : List Module) :
    Crate.ids (closeLoop close first ms).2.1 = Crate.ids ms := by
  induction ms generalizing first with
  | nil => rfl
  | cons m ms ih =>
    unfold closeLoop
    split <;> simp [ih]

/-- `crate::shutdown()`: close every module of `modules`, clear `modules`, drop `ready`, and
throw the kept kind if it is not `success`. An exception other than a pixie error escapes
from the loop with `modules` and `ready` as they were. -/
def shutdown (close : ℕ → Except Exception Unit) (c : Crate) : Outcome Unit :=
  match closeLoop close .success c.modules with
  | (calls, ms, .error e) => ⟨{ c with modules := ms }, calls, .threw e⟩
  | (calls, _, .ok first) =>
    let c' := { c with modules := [], ready := false }
    if first = .success then ⟨c', calls, .returned ()⟩
    else ⟨c', calls, .threw (.pixie first "crate shutdown error; see log")⟩

theorem shutdown_keeps (close : ℕ → Except Exception Unit) (c : Crate) :
    Crate.Keeps c (shutdown close c).crate := by
  unfold shutdown
  split
  · next heq =>
    have h := closeLoop_ids close .success c.modules
    rw [heq] at h
    exact (Crate.inPlace_modules h).keeps
  · have hk : Crate.Keeps c { c with modules := [], ready := false } := by
      refine ⟨?_, le_rfl⟩
      simp only [Crate.ids_append, Crate.ids_nil, List.nil_append]
      exact (List.sublist_append_right _ _).subperm
    split <;> exact hk

/-- Two modules whose closes throw different pixie errors: `shutdown` reports the second. -/
theorem shutdown_throws_last_close_error :
    (shutdown (fun id => if id = 0 then .error (.pixie .moduleOffline "close")
        else .error (.pixie .internalFailure "close"))
      { Crate.new with modules := [Module.fresh 0, Module.fresh 1], numModules := 2,
                       ready := true }).exit =
      .threw (.pixie .internalFailure "crate shutdown error; see log") := by
  decide

/-! ## `boot` and `initialize_afe` -/

/-- `crate::boot_params`. -/
structure BootParams where
  force : Bool
  bootComms : Bool
  bootFippi : Bool
  bootDsp : Bool
  modules : List ℕ
  deriving DecidableEq, Repr

/-- `boot_params()`: force every stage on all modules. -/
def BootParams.default : BootParams :=
  ⟨true, true, true, true, []⟩

/-- The module numbers `boot` resolves: all modules for an empty list, otherwise the list,
once every entry is checked against `modules.size()`. -/
def bootTargets (c : Crate) (p : BootParams) : Except Exception (List ℕ) :=
  if p.modules.isEmpty then .ok (List.range c.modules.length)
  else if p.modules.any (c.modules.length ≤ ·) then
    .error (.pixie .moduleNumberInvalid "boot module number invalid")
  else .ok p.modules

/-- Whether `boot` starts a worker for a module: its revision is not 0 and, unless forced,
it is not online. -/
def bootable (force : Bool) (m : Module) : Bool :=
  !(m.revision == 0 || (!force && m.online))

/-- The spawn loop of `crate::boot`: a module that is not bootable is skipped; otherwise its future
is taken, which throws `future_error` for a number already started, and its worker starts. Returns
the workers and whether the loop threw. -/
def spawnWorkers (c : Crate) (force : Bool) :
    List (ℕ × Module) → List ℕ → List (ℕ × Module) × Bool
  | started, [] => (started, false)
  | started, n :: rest =>
    match c.modules[n]? with
    | none => spawnWorkers c force started rest
    | some m =>
      if !bootable force m then spawnWorkers c force started rest
      else if started.any (·.1 == n) then (started, true)
      else spawnWorkers c force (started ++ [(n, m)]) rest

/-- Modelled from the spec: a module after its `boot` returned (online as its flags leave it)
or threw (not online). -/
def Module.afterBoot (m : Module) : Except Exception Bool → Module
  | .ok online => { m with online := online }
  | .error _ => { m with online := false }

@[simp] theorem Module.afterBoot_id (m : Module) (r : Except Exception Bool) :
    (m.afterBoot r).id = m.id := by
  cases r <;> rfl

/-- `crate::boot` under the crate lock, for the numbers resolved before it: a number past
`modules.size()` reads past the end; otherwise the workers start and are joined. `outcome` is each
module's `boot`, `.ok b` leaving it online when `b`. -/
def bootLocked (p : BootParams) (outcome : ℕ → Except Exception Bool) (targets : List ℕ)
    (c : Crate) : Outcome Unit :=
  if targets.any (c.modules.length ≤ ·) then ⟨c, [], .undefined⟩
  else
    let sp := spawnWorkers c p.force [] targets
    let booted (i : ℕ) : Bool := sp.1.any fun w => w.1 == i
    let c' := { c with
      modules := c.modules.mapIdx fun i m => if booted i then m.afterBoot (outcome m.id) else m }
    let calls := sp.1.map fun w => Call.boot w.2.id p.bootComms p.bootFippi p.bootDsp
    if sp.2 then ⟨c', calls, .terminated⟩
    else ⟨c', calls, joinExit "crate boot error; see log"
      (sp.1.map fun w => publish ((outcome w.2.id).map fun _ => ()))⟩

/-- `crate::boot(params)`: check the list, then `ready()`, then the locked region. -/
def boot (p : BootParams) (outcome : ℕ → Except Exception Bool) (c : Crate) : Outcome Unit :=
  match bootTargets c p with
  | .error e => ⟨c, [], .threw e⟩
  | .ok targets => c.whenReady (bootLocked p outcome targets)

theorem bootLocked_inPlace (p : BootParams) (outcome : ℕ → Except Exception Bool)
    (targets : List ℕ) (c : Crate) : Crate.InPlace c (bootLocked p outcome targets c).crate := by
  have hb (b : ℕ → Bool) : Crate.ids (c.modules.mapIdx fun i m =>
      if b i then m.afterBoot (outcome m.id) else m) = Crate.ids c.modules :=
    Crate.ids_mapIdx (fun i m => by split <;> simp) _
  unfold bootLocked
  split
  · exact .refl _
  · dsimp only
    split <;> exact Crate.inPlace_modules (hb _)

theorem boot_inPlace (p : BootParams) (outcome : ℕ → Except Exception Bool) (c : Crate) :
    Crate.InPlace c (boot p outcome c).crate := by
  unfold boot
  split
  · exact .refl _
  · exact Crate.whenReady_preserves Crate.InPlace .refl (bootLocked_inPlace p outcome _ c)

/-- The region of `crate::initialize_afe` under the crate lock: one `sync_hw` worker per online
module, in module order. `outcome` is each module's `sync_hw`, by identity. -/
def initializeAfeLocked (outcome : ℕ → Except Exception Unit) (c : Crate) : Outcome Unit :=
  let workers := c.modules.filter (·.online)
  ⟨c, workers.map (Call.syncHw ·.id),
    joinExit "crate AFE intialize error; see log" (workers.map (publish ∘ outcome ∘ Module.id))⟩

/-- `crate::initialize_afe()`. -/
def initializeAfe (outcome : ℕ → Except Exception Unit) (c : Crate) : Outcome Unit :=
  c.whenReady (initializeAfeLocked outcome)

theorem initializeAfe_crate (outcome : ℕ → Except Exception Unit) (c : Crate) :
    (initializeAfe outcome c).crate = c :=
  Crate.whenReady_preserves (fun c c' => c' = c) (fun _ => rfl) rfl

/-- The numbers of the targeted modules that `boot` should boot. -/
def bootIndices (c : Crate) (p : BootParams) : List ℕ :=
  (if p.modules.isEmpty then List.range c.modules.length else p.modules).filter fun n =>
    (c.modules[n]?.map (bootable p.force)).getD false

/-- The started workers of `boot`, as the numbers and modules they boot. -/
def bootWorkers (c : Crate) (ns : List ℕ) : List (ℕ × Module) :=
  ns.filterMap fun n => c.modules[n]?.map (n, ·)

theorem spawnWorkers_distinct (c : Crate) (force : Bool) (ts : List ℕ) :
    ∀ acc : List (ℕ × Module),
      (ts.filter fun n => (c.modules[n]?.map (bootable force)).getD false).Nodup →
      (∀ n ∈ ts.filter (fun n => (c.modules[n]?.map (bootable force)).getD false),
        ∀ w ∈ acc, w.1 ≠ n) →
      spawnWorkers c force acc ts =
        (acc ++ bootWorkers c (ts.filter fun n => (c.modules[n]?.map (bootable force)).getD false),
          false) := by
  induction ts with
  | nil => intro acc _ _; simp [spawnWorkers, bootWorkers]
  | cons n rest ih =>
    intro acc hnd hdis
    cases hm : c.modules[n]? with
    | none =>
      simp only [List.filter_cons, hm, Option.map_none', Option.getD_none] at hnd hdis ⊢
      simpa [spawnWorkers, hm] using ih acc hnd hdis
    | some m =>
      by_cases hb : bootable force m = true
      · simp only [List.filter_cons, hm, Option.map_some', Option.getD_some, hb, ite_true,
          List.nodup_cons, List.mem_cons, forall_eq_or_imp] at hnd hdis ⊢
        have hnot : acc.any (·.1 == n) = false := by
          simpa using fun w hw => hdis.1 w hw
        have hdis' : ∀ n' ∈ rest.filter (fun n => (c.modules[n]?.map (bootable force)).getD false),
            ∀ w ∈ acc ++ [(n, m)], w.1 ≠ n' := by
          intro n' hn' w hw
          rcases List.mem_append.mp hw with hw | hw
          · exact hdis.2 n' hn' w hw
          · rw [List.mem_singleton.mp hw]
            exact fun he : n = n' => hnd.1 (he ▸ hn')
        rw [spawnWorkers, hm]
        simp only [hb, Bool.not_true, hnot, Bool.false_eq_true, ite_false]
        rw [ih _ hnd.2 hdis']
        simp [bootWorkers, hm]
      · simp only [Bool.not_eq_true] at hb
        simp only [List.filter_cons, hm, Option.map_some', Option.getD_some, hb,
          Bool.false_eq_true, ite_false] at hnd hdis ⊢
        simpa [spawnWorkers, hm, hb] using ih acc hnd hdis

theorem bootTargets_of_valid {c : Crate} {p : BootParams}
    (hvalid : ∀ n ∈ p.modules, n < c.modules.length) :
    bootTargets c p = .ok (if p.modules.isEmpty then List.range c.modules.length else p.modules) := by
  unfold bootTargets
  split_ifs with h1 h2
  · rfl
  · obtain ⟨n, hn, hle⟩ := List.any_eq_true.mp h2
    exact absurd (hvalid n hn) (by simpa using hle)
  · rfl

theorem boot_of_valid {c : Crate} {p : BootParams} (outcome : ℕ → Except Exception Bool)
    (hready : c.ready = true) (hvalid : ∀ n ∈ p.modules, n < c.modules.length)
    (hnd : (bootIndices c p).Nodup) :
    boot p outcome c =
      ⟨{ c with modules := c.modules.mapIdx fun i m =>
          if (bootWorkers c (bootIndices c p)).any (fun w => w.1 == i) then
            m.afterBoot (outcome m.id) else m },
        (bootWorkers c (bootIndices c p)).map fun w =>
          Call.boot w.2.id p.bootComms p.bootFippi p.bootDsp,
        joinExit "crate boot error; see log"
          ((bootWorkers c (bootIndices c p)).map fun w =>
            publish ((outcome w.2.id).map fun _ => ()))⟩ := by
  have hin : (if p.modules.isEmpty then List.range c.modules.length else p.modules).any
      (c.modules.length ≤ ·) = false := by
    split_ifs
    · simp
    · simpa using hvalid
  have hsp := spawnWorkers_distinct c p.force
    (if p.modules.isEmpty then List.range c.modules.length else p.modules) [] hnd (by simp)
  simp only [bootIndices] at hsp ⊢
  simp only [boot, bootTargets_of_valid hvalid, Crate.whenReady_of_ready hready, bootLocked, hin,
    Bool.false_eq_true, ite_false, hsp, List.nil_append]

/-- A ready crate of two bootable modules. -/
def twoModules : Crate :=
  { Crate.new with modules := [{ Module.fresh 0 with revision := 1 },
      { Module.fresh 1 with revision := 1 }], numModules := 2, ready := true }

theorem any_bootWorkers {c : Crate} (ns : List ℕ) {i : ℕ} (hi : i < c.modules.length) :
    (bootWorkers c ns).any (fun w => w.1 == i) = decide (i ∈ ns) := by
  induction ns with
  | nil => rfl
  | cons n ns ih =>
    by_cases hn : n = i
    · subst hn
      simp [bootWorkers, List.getElem?_eq_getElem hi]
    · cases hm : c.modules[n]? <;> simp_all [bootWorkers, Ne.symm hn]

/-- On a ready crate with valid, distinct targets whose boots return or throw pixie errors, `boot`
joins every worker: each target ends online as its boot left it, offline if it threw, the rest
unchanged; `boot` throws the first failure's kind, or returns. -/
theorem boot_joins_first_failure (c : Crate) (p : BootParams)
    (outcome : ℕ → Except Exception Bool) (hready : c.ready = true)
    (hvalid : ∀ n ∈ p.modules, n < c.modules.length) (hnd : (bootIndices c p).Nodup)
    (ks : List Code)
    (hk : (bootWorkers c (bootIndices c p)).map
      (fun w => kindOf ((outcome w.2.id).map fun _ => ())) = ks.map some) :
    (∀ i, (boot p outcome c).crate.modules[i]? =
      c.modules[i]?.map fun m => if i ∈ bootIndices c p then m.afterBoot (outcome m.id) else m) ∧
    (boot p outcome c).exit =
      if firstFailure ks = .success then .returned ()
      else .threw (.pixie (firstFailure ks) "crate boot error; see log") := by
  rw [boot_of_valid outcome hready hvalid hnd]
  refine ⟨fun i => ?_, ?_⟩
  · rw [List.getElem?_mapIdx]
    cases hm : c.modules[i]? with
    | none => rfl
    | some m =>
      have hi : i < c.modules.length := (List.getElem?_eq_some_iff.mp hm).1
      simp [any_bootWorkers _ hi]
  · have h := (joinExit_of_kinds "crate boot error; see log"
      ((bootWorkers c (bootIndices c p)).map fun w => (outcome w.2.id).map fun _ => ()) ks
      (by rw [List.map_map]; exact hk)).2
    rw [List.map_map] at h
    exact h

/-- Module boots where the module created first throws `module_offline`. -/
def firstBootThrows (id : ℕ) : Except Exception Bool :=
  if id = 0 then .error (.pixie .moduleOffline "boot") else .ok true

/-- Module 0 of two throws and module 1 boots: module 0 ends offline, module 1 online, and
`boot` throws module 0's kind. -/
theorem boot_joins_first_failure_two :
    (boot BootParams.default firstBootThrows twoModules).crate.modules[0]?.map (·.online) =
        some false ∧
      (boot BootParams.default firstBootThrows twoModules).crate.modules[1]?.map (·.online) =
        some true ∧
      (boot BootParams.default firstBootThrows twoModules).exit =
        .threw (.pixie .moduleOffline "crate boot error; see log") := by
  have h := boot_joins_first_failure twoModules BootParams.default firstBootThrows rfl
    (by simp [BootParams.default]) (by decide) [.moduleOffline, .success] (by decide)
  exact ⟨by rw [h.1 0]; decide, by rw [h.1 1]; decide, h.2.trans (by decide)⟩

end PixieSdk
