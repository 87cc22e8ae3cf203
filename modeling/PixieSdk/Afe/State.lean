import PixieSdk.Afe.Baseline

/-! # The state of a module with AFE daughter boards

A module with AFE daughter boards (`afe_dbs`) and its channels' fixtures: a DB04
daughter-board channel, or the motherboard default, which answers every daughter-board
operation with `unsupported_op`. The fixture code runs on the module state in `AfeM`, which
keeps the state an operation leaves on every exit, a throw or undefined behaviour included.

Besides the monad's own lemmas, this module proves the rules the operations are verified
with: inversion of a returned bind, three loop rules over `List.range'` and `Captures`, the
frame of an operation that only appends calls and captures a bounded number of times. -/

namespace PixieSdk

/-- `db::adc_swap_state`. -/
inductive AdcSwapState where
  | bootState
  | unswapped
  | swapped
  deriving DecidableEq, Repr

/-- A channel fixture (`fixture::make`): a DB04 daughter-board channel, with its DB number, its
offset on the DB and its ADC swap state, or the motherboard default. -/
inductive Fixture where
  | motherboard
  | db04 (number offset : ℤ) (adcState : AdcSwapState)
  deriving DecidableEq, Repr

/-- `unsupported_op(what)`. -/
def unsupportedOp (what : String) : Exception :=
  .pixie .internalFailure ("invalid fixture op: " ++ what)

namespace Fixture

/-- `get(item, int&)`: DB04 answers its DAC settling time (`dac_settle_time_ms`), and a DB
channel its DB number and offset; anything else is not supported. -/
def getInt (item : String) : Fixture → Except Exception ℤ
  | .db04 number offset _ =>
    if item = "DAC_SETTLE_PERIOD" then .ok 250
    else if item = "DB_NUMBER" then .ok number
    else if item = "DB_OFFSET" then .ok offset
    else .error (unsupportedOp ("no get support: int: " ++ item))
  | .motherboard => .error (unsupportedOp ("no get support: int: " ++ item))

/-- `get(item, bool&)`: DB04 has an offset DAC, and a DB channel answers whether its ADC is
swapped. -/
def getBool (item : String) : Fixture → Except Exception Bool
  | .db04 _ _ adcState =>
    if item = "HAS_OFFSET_DAC" then .ok true
    else if item = "ADC_SWAP" then .ok (adcState == .swapped)
    else .error (unsupportedOp ("no get support: bool: " ++ item))
  | .motherboard => .error (unsupportedOp ("no get support: bool: " ++ item))

/-- `set(item, bool)`: `ADC_SWAP` takes a DB channel out of its boot state, once. -/
def setBool (item : String) (value : Bool) : Fixture → Except Exception Fixture
  | .db04 number offset adcState =>
    if item = "ADC_SWAP" then
      .ok (.db04 number offset
        (if adcState = .bootState then (if value then .swapped else .unswapped) else adcState))
    else .error (unsupportedOp ("not set support: bool: " ++ item))
  | .motherboard => .error (unsupportedOp ("not set support: bool: " ++ item))

def isDb04 : Fixture → Bool
  | .db04 .. => true
  | .motherboard => false

@[simp] theorem getInt_dbNumber (number offset : ℤ) (s : AdcSwapState) :
    (db04 number offset s).getInt "DB_NUMBER" = .ok number := by
  simp [getInt]

@[simp] theorem getInt_dbOffset (number offset : ℤ) (s : AdcSwapState) :
    (db04 number offset s).getInt "DB_OFFSET" = .ok offset := by
  simp [getInt]

@[simp] theorem setBool_adcSwap (number offset : ℤ) (s : AdcSwapState) (value : Bool) :
    (db04 number offset s).setBool "ADC_SWAP" value =
      .ok (db04 number offset (if s = .bootState then (if value then .swapped else .unswapped) else s)) := by
  simp [setBool]

end Fixture

/-- A channel as the fixture code reads it: its fixture, the ADC width of its configuration,
and its baseline percent (`channel::baseline_percent()`). -/
structure AfeChannel where
  fixture : Fixture
  adcBits : ℕ
  baselinePercent : ℚ
  deriving DecidableEq

/-- What the fixture code does to the hardware, in order. -/
inductive AfeCall where
  /-- `db04::set_dac`: the CFG_DAC write that programs a channel's offset DAC. -/
  | setDac (chan : ℕ) (value : Word)
  /-- `afe_dbs::get_traces`: a capture of every channel's ADC trace. -/
  | getTraces
  /-- A write of a daughter board's ADCCTRL register. -/
  | writeAdcctrl (db : ℕ) (value : Word)
  deriving DecidableEq, Repr

/-- A hardware register the fixture code writes: a channel's offset DAC or a DB's ADCCTRL. -/
inductive Register where
  | dac (chan : ℕ)
  | adcctrl (db : ℕ)
  deriving DecidableEq, Repr

/-- The register a call writes, and the value. -/
def AfeCall.written : AfeCall → Option (Register × Word)
  | .setDac chan value => some (.dac chan, value)
  | .writeAdcctrl db value => some (.adcctrl db, value)
  | .getTraces => none

/-- The values written to register `r` among `calls`, in order. -/
def writesTo (r : Register) (calls : List AfeCall) : List Word :=
  calls.filterMap fun c => c.written.bind fun w => if w.1 = r then some w.2 else none

@[simp] theorem writesTo_nil (r : Register) : writesTo r [] = [] := rfl

@[simp] theorem writesTo_append (r : Register) (l₁ l₂ : List AfeCall) :
    writesTo r (l₁ ++ l₂) = writesTo r l₁ ++ writesTo r l₂ :=
  List.filterMap_append _ _ _

@[simp] theorem writesTo_setDac (r : Register) (chan : ℕ) (value : Word) :
    writesTo r [.setDac chan value] = if Register.dac chan = r then [value] else [] := by
  simp only [writesTo, List.filterMap_cons, List.filterMap_nil, AfeCall.written, Option.some_bind]
  split_ifs <;> rfl

@[simp] theorem writesTo_writeAdcctrl (r : Register) (db : ℕ) (value : Word) :
    writesTo r [.writeAdcctrl db value] = if Register.adcctrl db = r then [value] else [] := by
  simp only [writesTo, List.filterMap_cons, List.filterMap_nil, AfeCall.written, Option.some_bind]
  split_ifs <;> rfl

@[simp] theorem writesTo_getTraces (r : Register) : writesTo r [.getTraces] = [] := rfl

/-- A module with AFE daughter boards: its channels, their OffsetDAC variables, `adcctrl`, the
copy of the DBs' ADCCTRL registers (`std::array<hw::word, max_dbs>`), and the calls made so
far. -/
structure AfeModule where
  channels : List AfeChannel
  offsetDacs : List Word
  adcctrl : Fin 4 → Word
  calls : List AfeCall

/-- The hardware and what the sources lack: `voffsetDac` is `channel::voffset` (`channel.cpp` is not
part of the sources); an acquisition's trace and whether an ADCCTRL write goes through may depend on
every call made before. -/
structure AfeEnv where
  voffsetDac : ℚ → Word
  acquire : List AfeCall → ℕ → Except Exception (List AdcWord)
  writeAdcctrl : List AfeCall → Except Exception Unit

/-- An operation of the fixture code: the module it leaves, on every exit, and how it ends. -/
def AfeM (α : Type) : Type := AfeModule → AfeModule × Exit α

namespace AfeM

variable {α β γ : Type}

protected def pure (a : α) : AfeM α := fun m => (m, .returned a)

/-- Run `x`, then `f` on what it returned; any other exit ends the operation. -/
protected def bind (x : AfeM α) (f : α → AfeM β) : AfeM β := fun m =>
  match x m with
  | (m', .returned a) => f a m'
  | (m', .threw e) => (m', .threw e)
  | (m', .terminated) => (m', .terminated)
  | (m', .undefined) => (m', .undefined)

instance : Monad AfeM where
  pure := AfeM.pure
  bind := AfeM.bind

@[simp] theorem pure_apply (a : α) (m : AfeModule) : (pure a : AfeM α) m = (m, .returned a) :=
  rfl

theorem bind_apply (x : AfeM α) (f : α → AfeM β) (m : AfeModule) :
    (x >>= f) m = match x m with
      | (m', .returned a) => f a m'
      | (m', .threw e) => (m', .threw e)
      | (m', .terminated) => (m', .terminated)
      | (m', .undefined) => (m', .undefined) :=
  rfl

theorem bind_of_returned {x : AfeM α} {f : α → AfeM β} {m m' : AfeModule} {a : α}
    (h : x m = (m', .returned a)) : (x >>= f) m = f a m' := by
  rw [bind_apply, h]

theorem bind_of_threw {x : AfeM α} {f : α → AfeM β} {m m' : AfeModule} {e : Exception}
    (h : x m = (m', .threw e)) : (x >>= f) m = (m', .threw e) := by
  rw [bind_apply, h]

theorem bind_of_undefined {x : AfeM α} {f : α → AfeM β} {m m' : AfeModule}
    (h : x m = (m', .undefined)) : (x >>= f) m = (m', .undefined) := by
  rw [bind_apply, h]

instance : LawfulMonad AfeM := LawfulMonad.mk' AfeM
  (fun x => funext fun m => by
    show AfeM.bind x (fun a => AfeM.pure (id a)) m = x m
    unfold AfeM.bind
    rcases x m with ⟨m', e⟩
    cases e <;> rfl)
  (fun _ _ => rfl)
  (fun x f g => funext fun m => by
    show AfeM.bind (AfeM.bind x f) g m = AfeM.bind x (fun a => AfeM.bind (f a) g) m
    unfold AfeM.bind
    rcases x m with ⟨m', e⟩
    cases e <;> rfl)

def raise (e : Exception) : AfeM α := fun m => (m, .threw e)

def undefined : AfeM α := fun m => (m, .undefined)

/-- The value of a computation that may be undefined. -/
def ofOption : Option α → AfeM α
  | some a => pure a
  | none => undefined

/-- The value of a computation that may throw. -/
def ofExcept : Except Exception α → AfeM α
  | .ok a => pure a
  | .error e => raise e

/-- The value of a call that ends in any way. -/
def ofExit : Exit α → AfeM α
  | .returned a => pure a
  | .threw e => raise e
  | .terminated => fun m => (m, .terminated)
  | .undefined => undefined

def get : AfeM AfeModule := fun m => (m, .returned m)

def modify (f : AfeModule → AfeModule) : AfeM Unit := fun m => (f m, .returned ())

def record (call : AfeCall) : AfeM Unit :=
  modify fun m => { m with calls := m.calls ++ [call] }

@[simp] theorem raise_apply (e : Exception) (m : AfeModule) :
    (raise e : AfeM α) m = (m, .threw e) := rfl

@[simp] theorem undefined_apply (m : AfeModule) : (undefined : AfeM α) m = (m, .undefined) := rfl

@[simp] theorem get_apply (m : AfeModule) : get m = (m, .returned m) := rfl

@[simp] theorem modify_apply (f : AfeModule → AfeModule) (m : AfeModule) :
    modify f m = (f m, .returned ()) := rfl

@[simp] theorem record_apply (call : AfeCall) (m : AfeModule) :
    record call m = ({ m with calls := m.calls ++ [call] }, .returned ()) := rfl

@[simp] theorem pure_bind_apply (a : α) (f : α → AfeM β) (m : AfeModule) :
    (pure a >>= f) m = f a m := rfl

@[simp] theorem get_bind_apply (f : AfeModule → AfeM β) (m : AfeModule) :
    (get >>= f) m = f m m := rfl

@[simp] theorem modify_bind_apply (g : AfeModule → AfeModule) (f : Unit → AfeM β) (m : AfeModule) :
    (modify g >>= f) m = f () (g m) := rfl

@[simp] theorem raise_bind_apply (e : Exception) (f : α → AfeM β) (m : AfeModule) :
    (raise e >>= f) m = (m, .threw e) := rfl

@[simp] theorem undefined_bind_apply (f : α → AfeM β) (m : AfeModule) :
    (undefined >>= f) m = (m, .undefined) := rfl

@[simp] theorem ofOption_some (a : α) : ofOption (some a) = pure a := rfl

@[simp] theorem ofOption_none : ofOption (none : Option α) = undefined := rfl

@[simp] theorem ofExcept_ok (a : α) : ofExcept (.ok a : Except Exception α) = pure a := rfl

@[simp] theorem ofExcept_error (e : Exception) : ofExcept (.error e : Except Exception α) = raise e :=
  rfl

theorem bind_eq_returned {x : AfeM α} {f : α → AfeM β} {m m'' : AfeModule} {b : β} :
    (x >>= f) m = (m'', .returned b) ↔ ∃ m' a, x m = (m', .returned a) ∧ f a m' = (m'', .returned b) := by
  rw [bind_apply]
  rcases hx : x m with ⟨m', _ | _ | _ | _⟩
  · exact ⟨fun h => ⟨_, _, rfl, h⟩, fun ⟨_, _, he, h⟩ => by cases he; exact h⟩
  all_goals simp

theorem ofOption_eq_returned {o : Option α} {m m' : AfeModule} {a : α} :
    ofOption o m = (m', .returned a) ↔ o = some a ∧ m' = m := by
  cases o <;> simp [ofOption, eq_comm, and_comm]

theorem ofExcept_eq_returned {x : Except Exception α} {m m' : AfeModule} {a : α} :
    ofExcept x m = (m', .returned a) ↔ x = .ok a ∧ m' = m := by
  cases x <;> simp [ofExcept, eq_comm, and_comm]

theorem ofExit_eq_returned {x : Exit α} {m m' : AfeModule} {a : α} :
    ofExit x m = (m', .returned a) ↔ x = .returned a ∧ m' = m := by
  cases x <;> simp [ofExit, eq_comm, and_comm]

/-! ### Loops

A `for` loop of the fixture code is `List.forM` over `List.range' s n`. Its body is verified
against an invariant indexed by the loop counter: the loop returns when every turn does, keeps
on return what every returned turn keeps, and throws what its first throwing turn throws. -/

section Loops

variable {f : ℕ → AfeM Unit} {I : ℕ → AfeModule → Prop}

theorem forM_range'_returned :
    ∀ (s n : ℕ) {m : AfeModule},
      (∀ k m, s ≤ k → k < s + n → I k m → ∃ m', f k m = (m', .returned ()) ∧ I (k + 1) m') →
      I s m → ∃ m', (List.range' s n).forM f m = (m', .returned ()) ∧ I (s + n) m'
  | s, 0, m, _, h => ⟨m, rfl, h⟩
  | s, n + 1, m, step, h => by
    obtain ⟨m₁, hf, h₁⟩ := step s m le_rfl (by omega) h
    obtain ⟨m₂, hl, h₂⟩ := forM_range'_returned (s + 1) n
      (fun k m hk hk' => step k m (by omega) (by omega)) h₁
    refine ⟨m₂, by rw [List.range'_succ, List.forM_cons', bind_of_returned hf, hl], ?_⟩
    rwa [Nat.add_right_comm, Nat.add_assoc] at h₂

theorem returned_of_forM_range' :
    ∀ (s n : ℕ) {m m' : AfeModule},
      (∀ k m m', s ≤ k → k < s + n → I k m → f k m = (m', .returned ()) → I (k + 1) m') →
      I s m → (List.range' s n).forM f m = (m', .returned ()) → I (s + n) m'
  | s, 0, m, m', _, h, hl => by
    simp only [List.range'_zero, List.forM_nil', pure_apply, Prod.mk.injEq] at hl
    exact hl.1 ▸ h
  | s, n + 1, m, m', step, h, hl => by
    rw [List.range'_succ, List.forM_cons', bind_eq_returned] at hl
    obtain ⟨m₁, _, hf, hl⟩ := hl
    have h₂ := returned_of_forM_range' (s + 1) n (fun k m m' hk hk' => step k m m' (by omega) (by omega))
      (step s m m₁ le_rfl (by omega) h hf) hl
    rwa [Nat.add_right_comm, Nat.add_assoc] at h₂

theorem forM_range'_threw {e : Exception} :
    ∀ (s n : ℕ) {m : AfeModule} {c : ℕ}, s ≤ c → c < s + n →
      (∀ k m, s ≤ k → k < c → I k m → ∃ m', f k m = (m', .returned ()) ∧ I (k + 1) m') →
      (∀ m, I c m → ∃ m', f c m = (m', .threw e)) →
      I s m → ∃ m', (List.range' s n).forM f m = (m', .threw e)
  | s, 0, _, _, hs, hc, _, _, _ => absurd hc (by omega)
  | s, n + 1, m, c, hs, hc, step, stop, h => by
    rw [List.range'_succ, List.forM_cons']
    rcases Nat.eq_or_lt_of_le hs with rfl | hlt
    · obtain ⟨m', hf⟩ := stop m h
      exact ⟨m', bind_of_threw hf⟩
    · obtain ⟨m₁, hf, h₁⟩ := step s m le_rfl hlt h
      rw [bind_of_returned hf]
      exact forM_range'_threw (s + 1) n (by omega) (by omega)
        (fun k m hk hk' => step k m (by omega) hk') stop h₁

end Loops

theorem returned_of_mapM {γ β : Type} {P : AfeModule → γ → β → Prop} {f : γ → AfeM β}
    (hf : ∀ a m m' b, f a m = (m', .returned b) → m' = m ∧ P m a b) :
    ∀ {l : List γ} {m m' : AfeModule} {bs : List β},
      l.mapM f m = (m', .returned bs) → m' = m ∧ List.Forall₂ (P m) l bs
  | [], m, m', bs, h => by
    simp only [List.mapM_nil, pure_apply, Prod.mk.injEq, Exit.returned.injEq] at h
    obtain ⟨rfl, rfl⟩ := h
    exact ⟨rfl, .nil⟩
  | a :: l, m, m', bs, h => by
    rw [List.mapM_cons, bind_eq_returned] at h
    obtain ⟨m₁, b, h₁, h⟩ := h
    rw [bind_eq_returned] at h
    obtain ⟨m₂, bs', h₂, h⟩ := h
    simp only [pure_apply, Prod.mk.injEq, Exit.returned.injEq] at h
    obtain ⟨rfl, rfl⟩ := h
    obtain ⟨rfl, hP⟩ := hf a m m₁ b h₁
    obtain ⟨rfl, hP'⟩ := returned_of_mapM hf h₂
    exact ⟨rfl, .cons hP hP'⟩

theorem mapM_returned {γ β : Type} {P : γ → β → Prop} {f : γ → AfeM β} {m : AfeModule} :
    ∀ {l : List γ}, (∀ a ∈ l, ∃ b, f a m = (m, .returned b) ∧ P a b) →
      ∃ bs, l.mapM f m = (m, .returned bs) ∧ List.Forall₂ P l bs
  | [], _ => ⟨[], rfl, .nil⟩
  | a :: _, h => by
    obtain ⟨b, hb, hP⟩ := h a (.head _)
    obtain ⟨bs, hbs, hP'⟩ := mapM_returned fun x hx => h x (.tail _ hx)
    exact ⟨b :: bs, by rw [List.mapM_cons, bind_of_returned hb, bind_of_returned hbs]; rfl,
      .cons hP hP'⟩

theorem forM_modify {γ : Type} (g : γ → AfeModule → AfeModule) :
    ∀ (l : List γ) (m : AfeModule),
      l.forM (fun a => modify (g a)) m = (l.foldl (fun m a => g a m) m, .returned ())
  | [], _ => rfl
  | a :: l, m => by rw [List.forM_cons', bind_of_returned (modify_apply _ _), forM_modify g l]; rfl

/-- `x` only appends to the calls, and at most `k` captures, on every exit. -/
def Captures (k : ℕ) (x : AfeM α) : Prop :=
  ∀ m, ∃ new, (x m).1.calls = m.calls ++ new ∧ new.count .getTraces ≤ k

namespace Captures

variable {k l : ℕ} {x : AfeM α}

theorem mono (h : k ≤ l) (hx : Captures k x) : Captures l x := fun m =>
  let ⟨new, hcalls, hcount⟩ := hx m
  ⟨new, hcalls, hcount.trans h⟩

theorem of_calls (h : ∀ m, (x m).1.calls = m.calls) : Captures k x := fun m =>
  ⟨[], by simp [h], Nat.zero_le _⟩

theorem bind {f : α → AfeM β} (hx : Captures k x) (hf : ∀ a, Captures l (f a)) :
    Captures (k + l) (x >>= f) := fun m => by
  obtain ⟨new, hcalls, hcount⟩ := hx m
  rw [bind_apply]
  rcases hx' : x m with ⟨m', _ | _ | _ | _⟩
  case returned a =>
    obtain ⟨new', hcalls', hcount'⟩ := hf a m'
    rw [hx'] at hcalls
    refine ⟨new ++ new', by rw [hcalls', show m'.calls = _ from hcalls, List.append_assoc], ?_⟩
    rw [List.count_append]
    omega
  all_goals
    rw [hx'] at hcalls
    exact ⟨new, hcalls, hcount.trans (Nat.le_add_right _ _)⟩

theorem bind_right {f : α → AfeM β} (hx : Captures k x) (hf : ∀ a, Captures 0 (f a)) :
    Captures k (x >>= f) :=
  bind hx hf

theorem bind_left {f : α → AfeM β} (hx : Captures 0 x) (hf : ∀ a, Captures l (f a)) :
    Captures l (x >>= f) :=
  (bind hx hf).mono (Nat.zero_add l).le

theorem forM {l' : List γ} {f : γ → AfeM Unit} (hf : ∀ a ∈ l', Captures 0 (f a)) :
    Captures 0 (l'.forM f) := by
  induction l' with
  | nil => exact of_calls fun _ => rfl
  | cons a l' ih =>
    rw [List.forM_cons']
    exact bind_right (hf a (List.mem_cons_self _ _)) fun _ =>
      ih fun b hb => hf b (List.mem_cons_of_mem _ hb)

theorem pure' (a : α) : Captures 0 (pure a : AfeM α) := of_calls fun _ => rfl

theorem get' : Captures 0 get := of_calls fun _ => rfl

theorem mapM {l' : List γ} {f : γ → AfeM β} (hf : ∀ a ∈ l', Captures 0 (f a)) :
    Captures 0 (l'.mapM f) := by
  induction l' with
  | nil => exact of_calls fun _ => rfl
  | cons a l' ih =>
    rw [List.mapM_cons]
    exact bind_right (hf a (List.mem_cons_self _ _)) fun _ =>
      bind_right (ih fun b hb => hf b (List.mem_cons_of_mem _ hb)) fun _ => pure' _

theorem ofOption' (o : Option α) : Captures 0 (ofOption o) := of_calls fun _ => by cases o <;> rfl

theorem ofExcept' (e : Except Exception α) : Captures 0 (ofExcept e) :=
  of_calls fun _ => by cases e <;> rfl

theorem ofExit' (e : Exit α) : Captures 0 (ofExit e) := of_calls fun _ => by cases e <;> rfl

theorem raise' (e : Exception) : Captures 0 (raise e : AfeM α) := of_calls fun _ => rfl

theorem record' {call : AfeCall} (h : call ≠ .getTraces) : Captures 0 (record call) := fun m =>
  ⟨[call], rfl, by simp [List.count_singleton', h.symm]⟩

theorem record_getTraces : Captures 1 (record .getTraces) := fun m => ⟨[.getTraces], rfl, by simp⟩

end Captures

end AfeM

end PixieSdk
