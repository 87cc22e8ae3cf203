import PixieSdk.Crate.Invariants

/-! # Crate calls from several threads

Every crate operation runs its main region under the crate lock, and a region under the lock
is one step of an interleaving. What a call does before it takes the lock is a step of its
own: `initialize` exchanges `ready_`; `probe`, `assign`, `import_config` and `initialize_afe`
check `ready()`; `boot` resolves its module numbers against `modules.size()` and then checks
`ready()`; a `module_handle` indexes the crate, then checks `ready()` and its module. A
schedule names the thread that takes each step, so step order is real-time order.

Module locks, the user counter and the operations made through a module handle are left out:
no crate operation of the model reads them, and `module.cpp` is not part of the sources. -/

namespace PixieSdk

/-! ## Requests and their steps -/

/-- A call one thread makes: a crate operation, or the construction of a `module_handle`. -/
inductive Request where
  | op (op : Op)
  | handle (number : ℤ) (check : Crate.HandleCheck)

/-- Where a thread stands in its call: not started; `boot` with its module numbers resolved;
past the accesses it makes before the crate lock; a `module_handle` referring to the module
object `id`; or done, with its calls on modules and its exit (a handle returns its module). -/
inductive Stage where
  | start
  | resolved (targets : List ℕ)
  | locking (targets : List ℕ)
  | holding (id : ℕ)
  | done (calls : List Call) (exit : Exit (Option ℕ))
  deriving DecidableEq

def ended {α : Type} (o : Outcome α) : Crate × Stage :=
  (o.crate, .done o.calls (o.exit.map fun _ => none))

/-- `ready()` checked outside the lock, with the lock next. -/
def readyStep (targets : List ℕ) (c : Crate) : Crate × Stage :=
  match c.checkReady with
  | .error e => (c, .done [] (.threw e))
  | .ok () => (c, .locking targets)

/-- The next step of a thread running crate operation `op`. `shutdown`, `set_offline` and
`move_offlines` take the lock at their first statement. -/
def Op.step : Op → Stage → Crate → Crate × Stage
  | .initializeCrate _ _, .start, c =>
    if c.ready then (c, .done [] (.threw (.pixie .crateAlreadyOpen "create already initialised")))
    else ({ c with ready := true }, .locking [])
  | .initializeCrate descs bus, .locking _, c => ended (initializeLocked descs bus c)
  | .probe _, .start, c => readyStep [] c
  | .probe outcome, .locking _, c => ended (probeLocked outcome c)
  | .boot p _, .start, c =>
    match bootTargets c p with
    | .error e => (c, .done [] (.threw e))
    | .ok targets => (c, .resolved targets)
  | .boot _ _, .resolved targets, c => readyStep targets c
  | .boot p outcome, .locking targets, c => ended (bootLocked p outcome targets c)
  | .assign _ _ _, .start, c => readyStep [] c
  | .assign numbers close outcome, .locking _, c => ended (assignLocked numbers close outcome c)
  | .importConfig _ _ _, .start, c => readyStep [] c
  | .importConfig filename file outcome, .locking _, c =>
    ended (importConfigLocked filename file outcome c)
  | .initializeAfe _, .start, c => readyStep [] c
  | .initializeAfe outcome, .locking _, c => ended (initializeAfeLocked outcome c)
  | op, .start, c => ended (op.apply c)
  | _, st, c => (c, st)

/-- The next step of a thread constructing `module_handle(crate, number, check)`:
`crate[number]`, then `ready()` and the module check on the module it refers to. A module
object that left both `modules` and `offline` in between was destroyed. -/
def handleStep (number : ℤ) (check : Crate.HandleCheck) : Stage → Crate → Crate × Stage
  | .start, c =>
    match c.index number with
    | .error e => (c, .done [] (.threw e))
    | .ok none => (c, .done [] .undefined)
    | .ok (some m) => (c, .holding m.id)
  | .holding id, c =>
    match (c.modules ++ c.offline).find? (·.id = id) with
    | none => (c, .done [] .undefined)
    | some m => (c, .done [] (Exit.ofExcept ((c.handleChecks m check).map fun m => some m.id)))
  | st, c => (c, st)

/-- The next step of a thread running request `r`. -/
def Request.step : Request → Stage → Crate → Crate × Stage
  | .op o, st, c => o.step st c
  | .handle number check, st, c => handleStep number check st c

/-- A request run on its own: the sequential model. A handle returns its module. -/
def Request.apply : Request → Crate → Outcome (Option ℕ)
  | .op o, c => ⟨(o.apply c).crate, (o.apply c).calls, (o.apply c).exit.map fun _ => none⟩
  | .handle number check, c =>
    ⟨c, [], match c.moduleHandle number check with
      | .error e => .threw e
      | .ok none => .undefined
      | .ok (some m) => .returned (some m.id)⟩

/-- `n` steps of one thread with no other step in between. -/
def Request.steps (r : Request) : ℕ → Stage → Crate → Crate × Stage
  | 0, st, c => (c, st)
  | n + 1, st, c => r.steps n (r.step st c).2 (r.step st c).1


/-! ## A call on its own -/

@[simp] theorem Request.step_done (r : Request) (calls : List Call) (exit : Exit (Option ℕ))
    (c : Crate) : r.step (.done calls exit) c = (c, .done calls exit) := by
  cases r with
  | op o => cases o <;> rfl
  | handle => rfl

theorem Request.steps_succ (r : Request) (n : ℕ) (st : Stage) (c : Crate) :
    r.steps (n + 1) st c = r.steps n (r.step st c).2 (r.step st c).1 := rfl

@[simp] theorem Request.steps_done (r : Request) (calls : List Call) (exit : Exit (Option ℕ)) :
    ∀ (n : ℕ) (c : Crate), r.steps n (.done calls exit) c = (c, .done calls exit)
  | 0, _ => rfl
  | n + 1, c => by rw [Request.steps_succ, Request.step_done, Request.steps_done r calls exit n]

theorem Request.steps_alone (r : Request) (c : Crate) (hc : IdsFresh c) :
    r.steps 3 .start c = ((r.apply c).crate, .done (r.apply c).calls (r.apply c).exit) := by
  cases r with
  | op o =>
    cases o with
    | boot p outcome =>
      cases ht : bootTargets c p <;> cases h : c.ready <;>
        simp [Request.steps_succ, Request.step, Op.step, Request.apply, Op.apply, boot,
          readyStep, Crate.checkReady, ended, h, ht]
    | _ =>
      cases h : c.ready <;>
        simp [Request.steps_succ, Request.step, Op.step, Request.apply, Op.apply, initializeCrate,
          probe, assign, importConfig, initializeAfe, readyStep, Crate.checkReady, ended,
          h]
  | handle number check =>
    cases hi : c.index number with
    | error e =>
      simp [Request.steps_succ, Request.step, handleStep, Request.apply, Crate.moduleHandle, hi]
    | ok o =>
      cases o with
      | none =>
        simp [Request.steps_succ, Request.step, handleStep, Request.apply, Crate.moduleHandle, hi]
      | some m =>
        have hmem : m ∈ c.modules ++ c.offline := by
          unfold Crate.index at hi
          split at hi
          · cases hi
          · exact List.mem_append_left _ (List.getElem?_mem (Except.ok.inj hi))
        cases hch : c.handleChecks m check <;>
          simp [Request.steps_succ, Request.step, handleStep, Request.apply, Crate.moduleHandle,
            hi, find?_id_of_mem hc.nodup hmem, hch, Except.map]

/-! ## Interleavings -/

@[simp] theorem handleStep_crate (number : ℤ) (check : Crate.HandleCheck) (st : Stage)
    (c : Crate) : (handleStep number check st c).1 = c := by
  unfold handleStep
  repeat' split
  all_goals rfl

structure Threads where
  crate : Crate
  stages : List Stage

/-- Every thread of `rs` at the start of its call, on crate `c`. -/
def Threads.init (c : Crate) (rs : List Request) : Threads :=
  ⟨c, rs.map fun _ => .start⟩

/-- Thread `t`, which runs `rs[t]`, takes its next step. -/
def Threads.step (rs : List Request) (s : Threads) (t : ℕ) : Threads :=
  match rs[t]?, s.stages[t]? with
  | some r, some st => ⟨(r.step st s.crate).1, s.stages.set t (r.step st s.crate).2⟩
  | _, _ => s

/-- The threads after the steps `sched` names, in order. -/
def Threads.run (rs : List Request) (s : Threads) (sched : List ℕ) : Threads :=
  sched.foldl (Threads.step rs) s

/-- An exception as a caller that tells errors apart by kind sees it. -/
def Exception.kind : Exception → Exception
  | .pixie c _ => .pixie c ""
  | e => e

/-- An exit with the text of its pixie error dropped. -/
def Exit.kind {α : Type} : Exit α → Exit α
  | .threw e => .threw e.kind
  | x => x

/-- What the caller of a finished call sees: its calls on modules and its exit by kind. -/
def Stage.seen : Stage → Option (List Call × Exit (Option ℕ))
  | .done calls exit => some (calls, exit.kind)
  | _ => none

/-- The requests run one after another in `order` from `c` by the sequential model: what
each thread's call sees. -/
def serial (rs : List Request) : Crate → List ℕ → List (ℕ × (List Call × Exit (Option ℕ)))
  | _, [] => []
  | c, t :: order =>
    match rs[t]? with
    | none => serial rs c order
    | some r => (t, (r.apply c).calls, (r.apply c).exit.kind) :: serial rs (r.apply c).crate order

/-- Call `i` ended before call `j` began: both take steps, and every step of `i` comes before
every step of `j`. -/
def Precedes (sched : List ℕ) (i j : ℕ) : Prop :=
  i ∈ sched ∧ j ∈ sched ∧ ∀ k k' : ℕ, sched[k]? = some i → sched[k']? = some j → k < k'

/-- Every call of the sequential run in `order` sees what it saw in the run by `sched`. -/
def SeesSerial (c : Crate) (rs : List Request) (sched order : List ℕ) : Prop :=
  ∀ p ∈ serial rs c order, ((Threads.init c rs).run rs sched).stages[p.1]?.bind Stage.seen = some p.2

instance (c : Crate) (rs : List Request) (sched order : List ℕ) :
    Decidable (SeesSerial c rs sched order) := by
  unfold SeesSerial
  infer_instance

/-- The run of the calls `rs` by `sched` from `c` is linearizable: some order of the calls that
keeps their real-time order, run one after another from `c`, gives each call what it saw (its result
and module calls, not the crate). -/
def Linearizable (c : Crate) (rs : List Request) (sched : List ℕ) : Prop :=
  ∃ order : List ℕ, order.Perm (List.range rs.length) ∧
    (∀ i j, Precedes sched i j → order.indexOf i < order.indexOf j) ∧
    SeesSerial c rs sched order

/-! ## Serial schedules -/

theorem Request.apply_idsFresh (r : Request) {c : Crate} (hc : IdsFresh c) :
    IdsFresh (r.apply c).crate := by
  cases r with
  | op o => exact Op.apply_idsFresh o hc
  | handle => exact hc

theorem Threads.step_of_getElem? {rs : List Request} {t : ℕ} {r : Request} (hr : rs[t]? = some r)
    {s : Threads} {st : Stage} (h : s.stages[t]? = some st) :
    s.step rs t = ⟨(r.step st s.crate).1, s.stages.set t (r.step st s.crate).2⟩ := by
  simp [Threads.step, hr, h]

theorem Threads.stages_step_of_ne (rs : List Request) (s : Threads) {t t' : ℕ} (h : t' ≠ t) :
    (s.step rs t').stages[t]? = s.stages[t]? := by
  unfold Threads.step
  split
  · exact List.getElem?_set_ne h
  · rfl

theorem Threads.stages_run_of_not_mem (rs : List Request) {t : ℕ} :
    ∀ (sched : List ℕ) (s : Threads), t ∉ sched → (s.run rs sched).stages[t]? = s.stages[t]?
  | [], _, _ => rfl
  | t' :: sched, s, h => by
    simp only [List.mem_cons, not_or] at h
    exact (Threads.stages_run_of_not_mem rs sched _ h.2).trans
      (s.stages_step_of_ne rs (Ne.symm h.1))

theorem Threads.run_replicate {rs : List Request} {t : ℕ} {r : Request} (hr : rs[t]? = some r) :
    ∀ (n : ℕ) (s : Threads) (st : Stage), s.stages[t]? = some st →
      s.run rs (List.replicate (n + 1) t) =
        ⟨(r.steps (n + 1) st s.crate).1, s.stages.set t (r.steps (n + 1) st s.crate).2⟩
  | 0, s, st, h => Threads.step_of_getElem? hr h
  | n + 1, s, st, h => by
    have ht : t < s.stages.length := (List.getElem?_eq_some_iff.mp h).1
    rw [List.replicate_succ, Threads.run, List.foldl_cons, Threads.step_of_getElem? hr h]
    have ih := Threads.run_replicate hr n ⟨(r.step st s.crate).1, s.stages.set t (r.step st s.crate).2⟩
      _ (List.getElem?_set_self ht)
    rw [Threads.run] at ih
    rw [ih, List.set_set, Request.steps_succ r (n + 1)]

/-- The steps of one thread after another, each run to its end. -/
def serialSchedule (order : List ℕ) : List ℕ :=
  order.flatMap fun t => List.replicate 3 t

theorem getElem?_serialSchedule {order : List ℕ} {t : ℕ} (h : t ∈ order) :
    (serialSchedule order)[3 * order.indexOf t]? = some t := by
  induction order with
  | nil => cases h
  | cons a order ih =>
    by_cases hat : a = t
    · subst hat
      simp [serialSchedule, List.indexOf_cons_self]
    · have ht : t ∈ order := (List.mem_cons.mp h).resolve_left (Ne.symm hat)
      rw [serialSchedule, List.flatMap_cons, List.indexOf_cons_ne _ hat, Nat.mul_succ,
        List.getElem?_append_right (by simp)]
      simpa [serialSchedule] using ih ht

theorem precedes_serialSchedule {order : List ℕ} {i j : ℕ}
    (h : Precedes (serialSchedule order) i j) : order.indexOf i < order.indexOf j := by
  obtain ⟨hi, hj, hlt⟩ := h
  have hi' : i ∈ order := by simpa [serialSchedule] using hi
  have hj' : j ∈ order := by simpa [serialSchedule] using hj
  by_contra hle
  rcases Nat.lt_or_eq_of_le (not_lt.mp hle) with hji | hji
  · have := hlt _ _ (getElem?_serialSchedule hi') (getElem?_serialSchedule hj')
    omega
  · have hij : i = j := List.indexOf_inj hi' hj' |>.mp hji.symm
    subst hij
    exact lt_irrefl _ (hlt _ _ (getElem?_serialSchedule hi') (getElem?_serialSchedule hi'))

theorem seen_run_serialSchedule (rs : List Request) :
    ∀ (order : List ℕ) (s : Threads), order.Nodup → (∀ t ∈ order, t < rs.length) →
      (∀ t ∈ order, s.stages[t]? = some .start) → IdsFresh s.crate →
      ∀ p ∈ serial rs s.crate order, (s.run rs (serialSchedule order)).stages[p.1]?.bind Stage.seen = some p.2
  | [], _, _, _, _, _, p, hp => by cases hp
  | t :: order, s, hnd, hlen, hstart, hs, p, hp => by
    obtain ⟨r, hr⟩ : ∃ r, rs[t]? = some r :=
      ⟨_, List.getElem?_eq_getElem (hlen t (List.mem_cons_self _ _))⟩
    have hst := hstart t (List.mem_cons_self _ _)
    have hrun := Threads.run_replicate hr 2 s .start hst
    rw [Request.steps_alone r _ hs] at hrun
    have hnd' := List.nodup_cons.mp hnd
    rw [serial, hr] at hp
    rw [serialSchedule, List.flatMap_cons, Threads.run, List.foldl_append, ← Threads.run,
      ← Threads.run, hrun]
    rcases List.mem_cons.mp hp with rfl | hp
    · rw [Threads.stages_run_of_not_mem rs _ _ (by simpa [serialSchedule] using hnd'.1),
        List.getElem?_set_self (List.getElem?_eq_some_iff.mp hst).1]
      rfl
    · exact seen_run_serialSchedule rs order _ hnd'.2
        (fun t' ht' => hlen t' (List.mem_cons_of_mem _ ht'))
        (fun t' ht' => by
          rw [List.getElem?_set_ne (fun h : t = t' => hnd'.1 (h ▸ ht'))]
          exact hstart t' (List.mem_cons_of_mem _ ht'))
        (r.apply_idsFresh hs) p hp

/-- Calls run one at a time, each to its end, are linearizable: the sequential model is the
interleaving model's serial schedules. -/
theorem serialSchedule_linearizable (rs : List Request) {c : Crate} (hc : IdsFresh c)
    {order : List ℕ} (hperm : order.Perm (List.range rs.length)) :
    Linearizable c rs (serialSchedule order) :=
  ⟨order, hperm, fun _ _ => precedes_serialSchedule,
    seen_run_serialSchedule rs order (Threads.init c rs) (hperm.nodup_iff.mpr (List.nodup_range _))
      (fun t ht => List.mem_range.mp (hperm.subset ht))
      (fun t ht => by simp [Threads.init, List.mem_range.mp (hperm.subset ht)]) hc⟩

/-! ## Races -/

theorem perm_range_two {order : List ℕ} (h : order.Perm (List.range 2)) :
    order = [0, 1] ∨ order = [1, 0] := by
  obtain ⟨a, b, rfl⟩ : ∃ a b, order = [a, b] := by
    match order, h.length_eq with
    | [a, b], _ => exact ⟨a, b, rfl⟩
  have ha : a ∈ List.range 2 := h.subset (by simp)
  have hb : b ∈ List.range 2 := h.subset (by simp)
  have hab : a ≠ b := by simpa using h.nodup_iff.mpr (List.nodup_range 2)
  simp only [List.mem_range] at ha hb
  obtain ⟨rfl, rfl⟩ | ⟨rfl, rfl⟩ : (a = 0 ∧ b = 1) ∨ (a = 1 ∧ b = 0) := by omega
  · exact .inl rfl
  · exact .inr rfl

theorem not_linearizable_of_two {c : Crate} {rs : List Request} {sched : List ℕ}
    (hlen : rs.length = 2) (h01 : ¬ SeesSerial c rs sched [0, 1])
    (h10 : ¬ SeesSerial c rs sched [1, 0]) : ¬ Linearizable c rs sched := by
  rintro ⟨order, hperm, -, hseen⟩
  rcases perm_range_two (hlen ▸ hperm) with rfl | rfl
  · exact h01 hseen
  · exact h10 hseen

/-- `initialize` on `busOne` and `probe`, issued together. -/
def initializeProbe : List Request :=
  [.op (.initializeCrate (.empty, .empty) busOne), .op (.probe fun _ => .ok true)]

/-- `initialize` exchanges `ready_` before it takes the crate lock: a `probe` in between probes no
module and returns, which neither order of the two calls gives. -/
theorem initialize_probe_not_linearizable :
    ¬ Linearizable Crate.new initializeProbe [0, 1, 1, 0] :=
  not_linearizable_of_two rfl (by decide) (by decide)

/-- A ready crate of two modules that `boot` boots. -/
def twoBootable : Crate :=
  { Crate.new with
    modules := [{ Module.fresh 0 with revision := 15, present := true },
      { Module.fresh 1 with revision := 15, present := true }]
    numModules := 2, ready := true, nextId := 2 }

/-- `boot` of every module and `set_offline(1)`, issued together. -/
def bootSetOffline : List Request :=
  [.op (.boot BootParams.default fun _ => .ok true), .op (.setOfflineNumber 1)]

/-- `boot` checks its module numbers before it takes the lock: a `set_offline(1)` in between makes
it read `modules[1]` past the end, which neither order of the two calls does. -/
theorem boot_set_offline_not_linearizable :
    ¬ Linearizable twoBootable bootSetOffline [0, 1, 0, 0] :=
  not_linearizable_of_two rfl (by decide) (by decide)

end PixieSdk
