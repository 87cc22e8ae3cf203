import PixieSdk.Afe.Fixture

/-! # `afe_dbs::boot`

The daughter boards clock some ADC pairs on the wrong edge. `boot` finds them by moving the
even channels' offsets and watching which baselines move, sets the swapped channels' bits in
their DB's ADCCTRL register, checks the result with a third capture, and puts every offset back
to 0 V. -/

namespace PixieSdk

open AfeM

/-- `afe_dbs::max_dbs`. -/
def maxDbs : ℤ := 4

/-- `afe_dbs::fgpa_fippi_loaded`: the ADCCTRL copies are cleared. -/
def fgpaFippiLoaded : AfeM Unit :=
  modify fun m => { m with adcctrl := fun _ => 0 }

/-- The ADCCTRL bit of a channel at offset `o` on its DB, `1 << (o / 2)` converted to a word:
undefined unless the shift is within `int`. -/
def adcctrlBit (o : ℤ) : Option Word :=
  (oneShl (o.tdiv 2)).map wordOfInt

/-- `fippi.write(fippi_addr(db, ADCCTRL), value)` of `afe_dbs::boot`, which goes through or
throws as the hardware answers. -/
def writeAdcctrl (env : AfeEnv) (db : ℕ) (value : Word) : AfeM Unit := do
  record (.writeAdcctrl db value)
  ofExcept (env.writeAdcctrl (← get).calls)

/-- The module with channel `chan`'s fixture replaced by `f`. -/
def AfeModule.setFixture (m : AfeModule) (chan : ℕ) (f : Fixture) : AfeModule :=
  { m with channels := m.channels.modify (fun ch => { ch with fixture := f }) chan }

/-- One channel of the swap pass of `afe_dbs::boot`: the channel's fixture takes its swap
state and, when swapped, its DB's ADCCTRL copy gains the channel's bit and is written if it
changed. A DB number of `max_dbs` or more throws; a negative one indexes before `adcctrl`. -/
def swapChannel (env : AfeEnv) (chan : ℕ) (swapped : Bool) : AfeM Unit := do
  let fixture ← ofExcept ((← channel chan).fixture.setBool "ADC_SWAP" swapped)
  modify (·.setFixture chan fixture)
  if swapped then
    let chanDb ← ofExcept (fixture.getInt "DB_NUMBER")
    let chanOffset ← ofExcept (fixture.getInt "DB_OFFSET")
    if h : maxDbs ≤ chanDb then
      raise (.pixie .moduleInitializeFailure ("invalid DB number for channel: " ++ toString chan))
    else if h' : 0 ≤ chanDb then
      let db : Fin 4 := ⟨chanDb.toNat, by unfold maxDbs at h; omega⟩
      let last := (← get).adcctrl db
      let value := last ||| (← ofOption (adcctrlBit chanOffset))
      modify fun m => { m with adcctrl := Function.update m.adcctrl db value }
      if value ≠ last then writeAdcctrl env db value
    else undefined

/-- The swap pass of `afe_dbs::boot`, with `swapped chan` the swap test of channel `chan`. -/
def swapPass (env : AfeEnv) (swapped : ℕ → Option Bool) : AfeM Unit := do
  (List.range (← get).channels.length).forM fun chan => do
    swapChannel env chan (← ofOption (swapped chan))

/-- The swap test of `afe_dbs::boot` for channel `chan`: an even channel is swapped when its
baseline did not move, compared exactly (`operator==(channel_baseline)`); an odd channel when
it moved, compared within the noise range (`operator!=(channel_baseline)`). -/
def swapDecision (same moved : List ChannelBaseline) (chan : ℕ) : Option Bool := do
  let s ← same[chan]?
  let mv ← moved[chan]?
  if chan % 2 = 0 then pure (s.eqBaseline mv) else s.neBaseline mv

/-- The verification of `afe_dbs::boot` over `n` channels: the swap test against the third
capture fails for some channel. -/
def verifyFailed (same verify : List ChannelBaseline) (n : ℕ) : Option Bool :=
  (List.range n).foldlM (fun failed chan => (swapDecision same verify chan).map (failed || ·)) false

/-- `afe_dbs::boot`: all channels to -1.5 V and a capture, the even ones to +1.5 V and a capture,
the swap pass, a verifying capture, and all channels back to 0 V before a failed verification throws
(`dac_adc_ratio` is off). -/
def AfeDbs.boot (env : AfeEnv) : AfeM Unit := do
  setChannelVoffset env (-3 / 2) 1
  let blSame ← analyzeChannelBaselines env
  setChannelVoffset env (3 / 2) 2
  let blMoved ← analyzeChannelBaselines env
  swapPass env (swapDecision blSame blMoved)
  let blVerify ← analyzeChannelBaselines env
  let failed ← ofOption (verifyFailed blSame blVerify (← get).channels.length)
  setChannelVoffset env 0 1
  if failed then raise (.pixie .moduleInitializeFailure "DB AE ADC swap failure")

/-- The part of `afe_dbs::boot` before its last `set_channel_voffset`: the captures at the
two rails, the swap pass and the verifying capture, returning whether the verification
failed. -/
def bootChecks (env : AfeEnv) : AfeM Bool := do
  setChannelVoffset env (-3 / 2) 1
  let blSame ← analyzeChannelBaselines env
  setChannelVoffset env (3 / 2) 2
  let blMoved ← analyzeChannelBaselines env
  swapPass env (swapDecision blSame blMoved)
  let blVerify ← analyzeChannelBaselines env
  ofOption (verifyFailed blSame blVerify (← get).channels.length)

theorem boot_eq_bootChecks (env : AfeEnv) :
    AfeDbs.boot env = bootChecks env >>= fun failed => setChannelVoffset env 0 1 >>= fun _ =>
      if failed then raise (.pixie .moduleInitializeFailure "DB AE ADC swap failure")
      else pure () := by
  simp only [AfeDbs.boot, bootChecks, bind_assoc]

/-! ### One channel of the swap pass -/

section SwapChannel

variable {env : AfeEnv} {m : AfeModule} {chan : ℕ} {ch : AfeChannel} {f : Fixture}

@[simp] theorem setFixture_adcctrl (m : AfeModule) (chan : ℕ) (f : Fixture) :
    (m.setFixture chan f).adcctrl = m.adcctrl := rfl

@[simp] theorem setFixture_calls (m : AfeModule) (chan : ℕ) (f : Fixture) :
    (m.setFixture chan f).calls = m.calls := rfl

@[simp] theorem length_setFixture (m : AfeModule) (chan : ℕ) (f : Fixture) :
    (m.setFixture chan f).channels.length = m.channels.length := by
  simp [AfeModule.setFixture]

theorem getElem?_setFixture (m : AfeModule) (chan : ℕ) (f : Fixture) (c : ℕ) :
    ((m.setFixture chan f).channels[c]?).map (·.fixture) =
      if chan = c then (m.channels[c]?).map fun _ => f else (m.channels[c]?).map (·.fixture) := by
  simp only [AfeModule.setFixture, List.getElem?_modify]
  split_ifs <;> simp [Option.map_map, Function.comp_def]

theorem swapChannel_false (hch : m.channels[chan]? = some ch)
    (hset : ch.fixture.setBool "ADC_SWAP" false = .ok f) :
    swapChannel env chan false m = (m.setFixture chan f, .returned ()) := by
  simp only [swapChannel, bind_of_returned (channel_eq hch), hset, ofExcept_ok, pure_bind_apply,
    modify_bind_apply]
  rfl

theorem swapChannel_invalid {d o : ℤ} (hch : m.channels[chan]? = some ch)
    (hset : ch.fixture.setBool "ADC_SWAP" true = .ok f) (hd : f.getInt "DB_NUMBER" = .ok d)
    (ho : f.getInt "DB_OFFSET" = .ok o) (h4 : 4 ≤ d) :
    swapChannel env chan true m =
      (m.setFixture chan f,
        .threw (.pixie .moduleInitializeFailure ("invalid DB number for channel: " ++ toString chan))) := by
  simp only [swapChannel, bind_of_returned (channel_eq hch), hset, hd, ho, ofExcept_ok, maxDbs,
    pure_bind_apply, modify_bind_apply, dif_pos h4, if_true]
  rfl

theorem swapChannel_valid {o : ℤ} {bit : Word} (hch : m.channels[chan]? = some ch)
    (hset : ch.fixture.setBool "ADC_SWAP" true = .ok f) (db : Fin 4)
    (hd : f.getInt "DB_NUMBER" = .ok (db : ℤ)) (ho : f.getInt "DB_OFFSET" = .ok o)
    (hbit : adcctrlBit o = some bit) (hwrite : ∀ calls, env.writeAdcctrl calls = .ok ()) :
    swapChannel env chan true m =
      ({ m.setFixture chan f with
          adcctrl := Function.update m.adcctrl db (m.adcctrl db ||| bit)
          calls := if m.adcctrl db ||| bit ≠ m.adcctrl db
            then m.calls ++ [.writeAdcctrl db (m.adcctrl db ||| bit)] else m.calls },
        .returned ()) := by
  have h4 : ¬ maxDbs ≤ (db : ℤ) := by unfold maxDbs; omega
  have hdb : (⟨((db : ℕ) : ℤ).toNat, by omega⟩ : Fin 4) = db := Fin.ext (by simp)
  simp only [swapChannel, bind_of_returned (channel_eq hch), hset, hd, ho, hbit, ofExcept_ok,
    ofOption_some, pure_bind_apply, modify_bind_apply, get_bind_apply, dif_neg h4,
    dif_pos (Int.ofNat_nonneg _), hdb, if_true, setFixture_adcctrl, setFixture_calls,
    Int.toNat_natCast]
  split_ifs
  · simp only [writeAdcctrl, hwrite, ofExcept_ok, record_apply, modify_bind_apply, pure_bind_apply,
      get_bind_apply, pure_apply]
    rfl
  · rfl

end SwapChannel

/-! ### The swap pass

What the spec says of the swap pass is over the places of the channels on their DBs, `d c`
and `o c`, and the channels flagged swapped. `swapMask` states the ADCCTRL value it should
leave, in the spec's words: the entry value OR'd with `1 << (o c / 2)` for every swapped
channel on the DB. -/

/-- The spec's ADCCTRL value of DB `db` after the swap pass over channels `0, ..., n - 1`: the
entry value OR'd with `1 << (o c / 2)` for every swapped channel `c` on the DB. -/
def swapMask (entry : Word) (flags : ℕ → Bool) (d o : ℕ → ℤ) (db : ℤ) (n : ℕ) : Word :=
  (List.range n).foldl
    (fun acc c => if flags c ∧ d c = db then acc ||| UInt32.ofNat (2 ^ ((o c).tdiv 2).toNat) else acc)
    entry

theorem swapMask_succ (entry : Word) (flags : ℕ → Bool) (d o : ℕ → ℤ) (db : ℤ) (n : ℕ) :
    swapMask entry flags d o db (n + 1) =
      if flags n ∧ d n = db then swapMask entry flags d o db n ||| UInt32.ofNat (2 ^ ((o n).tdiv 2).toNat)
      else swapMask entry flags d o db n := by
  simp only [swapMask, List.range_succ, List.foldl_append, List.foldl_cons, List.foldl_nil]

theorem word_or_assoc (a b c : Word) : a ||| b ||| c = a ||| (b ||| c) :=
  congrArg UInt32.mk (BitVec.or_assoc _ _ _)

theorem word_or_comm (a b : Word) : a ||| b = b ||| a :=
  congrArg UInt32.mk (BitVec.or_comm _ _)

theorem word_or_self (a : Word) : a ||| a = a :=
  congrArg UInt32.mk BitVec.or_self

theorem or_swapMask (entry : Word) (flags : ℕ → Bool) (d o : ℕ → ℤ) (db : ℤ) :
    ∀ n, entry ||| swapMask entry flags d o db n = swapMask entry flags d o db n
  | 0 => word_or_self entry
  | n + 1 => by
    rw [swapMask_succ]
    split_ifs
    · rw [← word_or_assoc, or_swapMask entry flags d o db n]
    · exact or_swapMask entry flags d o db n

theorem or_eq_self_of_or_eq {entry x b : Word} (hx : entry ||| x = x) (h : x ||| b = entry) :
    x ||| b = x := by
  calc x ||| b = (x ||| b) ||| x := by rw [word_or_comm (x ||| b) x, ← word_or_assoc, word_or_self]
    _ = entry ||| x := by rw [h]
    _ = x := hx

theorem adcctrlBit_eq {o : ℤ} (h₀ : 0 ≤ o.tdiv 2) (h₁ : o.tdiv 2 < 32) :
    adcctrlBit o = some (UInt32.ofNat (2 ^ (o.tdiv 2).toNat)) := by
  unfold adcctrlBit oneShl
  generalize o.tdiv 2 = s at h₀ h₁ ⊢
  by_cases hs : s < 31
  · have hpow : 2 ^ s.toNat < 4294967296 :=
      (Nat.pow_lt_pow_right (by norm_num) (by omega : s.toNat < 32)).trans_eq rfl
    have hcast : (2 : ℤ) ^ s.toNat = ((2 ^ s.toNat : ℕ) : ℤ) := by push_cast; rfl
    have hmod : ((2 ^ s.toNat : ℕ) : ℤ) % 4294967296 = ((2 ^ s.toNat : ℕ) : ℤ) :=
      Int.emod_eq_of_lt (Int.ofNat_nonneg _) (by exact_mod_cast hpow)
    simp only [h₀, hs, and_self, if_true, Option.map_some', wordOfInt, hcast, hmod,
      Int.toNat_natCast]
  · obtain rfl : s = 31 := by omega
    rfl

/-- The swap pass over channels `0, ..., k - 1` from module `m` has left `m'`: the channels
keep their DB places, and each DB's ADCCTRL copy holds the spec's mask, written to the register
iff it changed from its entry value, last with the value it holds. -/
def SwapPassed (flags : ℕ → Bool) (d o : ℕ → ℤ) (m : AfeModule) (k : ℕ) (m' : AfeModule) :
    Prop :=
  m'.channels.length = m.channels.length ∧
  (∀ c < m.channels.length, ∃ s, (m'.channels[c]?).map (·.fixture) = some (.db04 (d c) (o c) s)) ∧
  ∃ ws, m'.calls = m.calls ++ ws ∧ ∀ db : Fin 4,
    m'.adcctrl db = swapMask (m.adcctrl db) flags d o db k ∧
    (m'.adcctrl db = m.adcctrl db → writesTo (.adcctrl db) ws = []) ∧
    (m'.adcctrl db ≠ m.adcctrl db → (writesTo (.adcctrl db) ws).getLast? = some (m'.adcctrl db))

section SwapPass

variable {env : AfeEnv} {flags : ℕ → Bool} {d o : ℕ → ℤ} {m m' : AfeModule} {k : ℕ}

theorem swapPassed_zero
    (hplace : ∀ c < m.channels.length, ∃ s, (m.channels[c]?).map (·.fixture) = some (.db04 (d c) (o c) s)) :
    SwapPassed flags d o m 0 m :=
  ⟨rfl, hplace, [], by simp, fun _ => ⟨rfl, fun _ => rfl, fun h => absurd rfl h⟩⟩

theorem SwapPassed.channel (h : SwapPassed flags d o m k m') (hk : k < m.channels.length) :
    ∃ ch s, m'.channels[k]? = some ch ∧ ch.fixture = .db04 (d k) (o k) s ∧
      ∀ s', ∀ c < m.channels.length, ∃ s'',
        ((m'.setFixture k (.db04 (d k) (o k) s')).channels[c]?).map (·.fixture) =
          some (.db04 (d c) (o c) s'') := by
  obtain ⟨hlen, hplace, -⟩ := h
  obtain ⟨s, hs⟩ := hplace k hk
  obtain ⟨ch, hch, hfix⟩ := Option.map_eq_some'.mp hs
  refine ⟨ch, s, hch, hfix, fun s' c hc => ?_⟩
  rw [getElem?_setFixture]
  split_ifs with hkc
  · subst hkc
    exact ⟨s', by simp [hch]⟩
  · exact hplace c hc

theorem swapPassed_step (hwrite : ∀ calls, env.writeAdcctrl calls = .ok ())
    (hk : k < m.channels.length) (hd : 0 ≤ d k) (ho : 0 ≤ (o k).tdiv 2 ∧ (o k).tdiv 2 < 32)
    (hvalid : flags k → d k < 4) (h : SwapPassed flags d o m k m') :
    ∃ m'', swapChannel env k (flags k) m' = (m'', .returned ()) ∧
      SwapPassed flags d o m (k + 1) m'' := by
  obtain ⟨ch, s, hch, hfix, hplace'⟩ := h.channel hk
  obtain ⟨hlen, -, ws, hcalls, hmask⟩ := h
  cases hflag : flags k
  case false =>
    refine ⟨_, swapChannel_false hch (by rw [hfix, Fixture.setBool_adcSwap]),
      by simp [hlen], hplace' _, ws, hcalls, fun db => ?_⟩
    simpa [swapMask_succ, hflag] using hmask db
  case true =>
    have hd4 := hvalid hflag
    set db₀ : Fin 4 := ⟨(d k).toNat, by omega⟩
    have hdb₀ : ((db₀ : ℕ) : ℤ) = d k := Int.toNat_of_nonneg hd
    refine ⟨_, swapChannel_valid hch (by rw [hfix, Fixture.setBool_adcSwap]) db₀
      (by rw [Fixture.getInt_dbNumber, hdb₀]) (Fixture.getInt_dbOffset ..) (adcctrlBit_eq ho.1 ho.2)
      hwrite, by simp [hlen], hplace' _, ?_⟩
    set bit := UInt32.ofNat (2 ^ ((o k).tdiv 2).toNat)
    set value := m'.adcctrl db₀ ||| bit
    set ws' := if value ≠ m'.adcctrl db₀ then ws ++ [.writeAdcctrl db₀ value] else ws
    refine ⟨ws', by simp only [ws']; split_ifs <;> simp [hcalls], fun db => ?_⟩
    by_cases hdb : db = db₀
    · subst hdb
      obtain ⟨hcur, hsame, hlast⟩ := hmask db₀
      have hmask' : swapMask (m.adcctrl db₀) flags d o db₀ (k + 1) = value := by
        rw [swapMask_succ, if_pos ⟨hflag, hdb₀.symm⟩, ← hcur]
      simp only [Function.update_same, hmask', true_and]
      by_cases hnew : value = m'.adcctrl db₀
      · simp only [ws', hnew, ne_eq, not_true_eq_false, if_false]
        exact ⟨hsame, hlast⟩
      · simp only [ws', hnew, ne_eq, not_false_eq_true, if_true, writesTo_append,
          writesTo_writeAdcctrl, List.getLast?_concat, implies_true, and_true]
        exact fun heq => absurd (or_eq_self_of_or_eq (by rw [hcur, or_swapMask]) heq) hnew
    · have hne : ¬ (d k = db) := fun h => hdb (Fin.ext (by omega))
      have hne' : (db₀ : ℕ) ≠ db := fun h => hdb (Fin.ext h.symm)
      have hws : writesTo (.adcctrl db) ws' = writesTo (.adcctrl db) ws := by
        simp only [ws']; split_ifs <;> simp [hne']
      simpa [Function.update_noteq hdb, swapMask_succ, hne, hws] using hmask db

theorem swapPassed_invalid (hk : k < m.channels.length) (hflag : flags k) (h4 : 4 ≤ d k)
    (h : SwapPassed flags d o m k m') :
    ∃ m'', swapChannel env k (flags k) m' =
      (m'', .threw (.pixie .moduleInitializeFailure ("invalid DB number for channel: " ++ toString k))) := by
  obtain ⟨ch, s, hch, hfix, -⟩ := h.channel hk
  rw [hflag]
  exact ⟨_, swapChannel_invalid hch (by rw [hfix, Fixture.setBool_adcSwap])
    (Fixture.getInt_dbNumber ..) (Fixture.getInt_dbOffset ..) h4⟩

end SwapPass

/-- The swap pass, with every ADCCTRL write going through: a swapped channel on a DB of `max_dbs` or
more throws; otherwise each DB's copy ends as its entry OR'd with its swapped channels' bits, and
the register is written, last with that value, exactly when the copy changed. -/
theorem swapPass_adcctrl (env : AfeEnv) (flags : ℕ → Bool) (d o : ℕ → ℤ) (m : AfeModule)
    (hplace : ∀ c < m.channels.length,
      ∃ s, (m.channels[c]?).map (·.fixture) = some (.db04 (d c) (o c) s))
    (hd : ∀ c < m.channels.length, 0 ≤ d c)
    (ho : ∀ c < m.channels.length, 0 ≤ (o c).tdiv 2 ∧ (o c).tdiv 2 < 32)
    (hwrite : ∀ calls, env.writeAdcctrl calls = .ok ()) :
    let r := swapPass env (fun c => some (flags c)) m
    (∀ c < m.channels.length, flags c → 4 ≤ d c → (∀ k < c, flags k → d k < 4) →
      r.2 = .threw (.pixie .moduleInitializeFailure
        ("invalid DB number for channel: " ++ toString c))) ∧
    ((∀ c < m.channels.length, flags c → d c < 4) →
      r.2 = .returned () ∧ ∃ ws, r.1.calls = m.calls ++ ws ∧ ∀ db : Fin 4,
        r.1.adcctrl db = swapMask (m.adcctrl db) flags d o db m.channels.length ∧
        (r.1.adcctrl db = m.adcctrl db → writesTo (.adcctrl db) ws = []) ∧
        (r.1.adcctrl db ≠ m.adcctrl db → (writesTo (.adcctrl db) ws).getLast? = some (r.1.adcctrl db))) := by
  have hrun : swapPass env (fun c => some (flags c)) m =
      (List.range' 0 m.channels.length).forM (fun chan => swapChannel env chan (flags chan)) m := by
    rw [← List.range_eq_range']
    rfl
  refine ⟨fun c hc hflag h4 hfirst => ?_, fun hvalid => ?_⟩
  · obtain ⟨m', hm'⟩ := forM_range'_threw (I := SwapPassed flags d o m) 0 m.channels.length
      (Nat.zero_le c) (by omega)
      (fun k _ _ hk hI => swapPassed_step hwrite (by omega) (hd k (by omega)) (ho k (by omega))
        (hfirst k hk) hI)
      (fun _ hI => swapPassed_invalid hc hflag h4 hI) (swapPassed_zero hplace)
    simp only [hrun, hm']
  · obtain ⟨m', hm', -, -, ws, hcalls, hmask⟩ := forM_range'_returned
      (I := SwapPassed flags d o m) 0 m.channels.length
      (fun k _ _ hk hI => swapPassed_step hwrite (by omega) (hd k (by omega)) (ho k (by omega))
        (hvalid k (by omega)) hI) (swapPassed_zero hplace)
    simp only [hrun, hm', true_and]
    exact ⟨ws, hcalls, by rwa [Nat.zero_add] at hmask⟩

/-- Hardware whose ADCCTRL writes go through; its other answers are empty. -/
def writesThrough : AfeEnv :=
  ⟨fun _ => 0, fun _ _ => .ok [], fun _ => .ok ()⟩

/-- Two channels of DB 0, at offsets 0 and 2, with the ADCCTRL copies cleared. -/
def dbZeroPair : AfeModule :=
  ⟨[⟨.db04 0 0 .bootState, 16, 0⟩, ⟨.db04 0 2 .bootState, 16, 0⟩], [0, 0], fun _ => 0, []⟩

theorem swapPass_adcctrl_db_zero_pair :
    (∀ c < dbZeroPair.channels.length,
      ∃ s, (dbZeroPair.channels[c]?).map (·.fixture) = some (.db04 0 (2 * c) s)) ∧
    (∀ c < dbZeroPair.channels.length, (0 : ℤ) ≤ 0) ∧
    (∀ c < dbZeroPair.channels.length, 0 ≤ (2 * (c : ℤ)).tdiv 2 ∧ (2 * (c : ℤ)).tdiv 2 < 32) ∧
    (∀ calls, writesThrough.writeAdcctrl calls = .ok ()) ∧
    let r := swapPass writesThrough (fun c => some ((fun _ => true) c)) dbZeroPair
    (∀ c < dbZeroPair.channels.length, (fun _ => true) c → 4 ≤ (0 : ℤ) →
      (∀ k < c, (fun _ => true) k → (0 : ℤ) < 4) →
      r.2 = .threw (.pixie .moduleInitializeFailure
        ("invalid DB number for channel: " ++ toString c))) ∧
    ((∀ c < dbZeroPair.channels.length, (fun _ => true) c → (0 : ℤ) < 4) →
      r.2 = .returned () ∧ ∃ ws, r.1.calls = dbZeroPair.calls ++ ws ∧ ∀ db : Fin 4,
        r.1.adcctrl db = swapMask (dbZeroPair.adcctrl db) (fun _ => true) (fun _ => 0)
          (fun c => 2 * c) db dbZeroPair.channels.length ∧
        (r.1.adcctrl db = dbZeroPair.adcctrl db → writesTo (.adcctrl db) ws = []) ∧
        (r.1.adcctrl db ≠ dbZeroPair.adcctrl db →
          (writesTo (.adcctrl db) ws).getLast? = some (r.1.adcctrl db))) := by
  have hboot : ∀ c < dbZeroPair.channels.length,
      (dbZeroPair.channels[c]?).map (·.fixture) = some (.db04 0 (2 * c) .bootState) := by
    decide
  have hplace : ∀ c < dbZeroPair.channels.length,
      ∃ s, (dbZeroPair.channels[c]?).map (·.fixture) = some (.db04 0 (2 * c) s) :=
    fun c hc => ⟨_, hboot c hc⟩
  have ho : ∀ c < dbZeroPair.channels.length,
      0 ≤ (2 * (c : ℤ)).tdiv 2 ∧ (2 * (c : ℤ)).tdiv 2 < 32 := by
    decide
  exact ⟨hplace, fun _ _ => le_rfl, ho, fun _ => rfl,
    swapPass_adcctrl writesThrough (fun _ => true) (fun _ => 0) (fun c => 2 * c) dbZeroPair
      hplace (fun _ _ => le_rfl) ho fun _ => rfl⟩

/-- A swapped channel at DB offset 64 shifts `1` by 32, past the width of `int`: the swap pass
is undefined, where the spec has it set a bit. -/
theorem swapPass_offset_past_width :
    (swapPass writesThrough (fun _ => some true)
      ⟨[⟨.db04 0 64 .bootState, 16, 0⟩], [0], fun _ => 0, []⟩).2 = .undefined := by
  decide

/-! ### Runs of `boot` -/

/-- `boot` on DB04 channels whose OffsetDAC words fit the DACs, on hardware whose first ADC
acquisition throws: the offsets were moved to -1.5 V, and `boot` throws with them still there,
before the restore to 0 V. -/
theorem boot_capture_threw_keeps_low_rail (env : AfeEnv) (m : AfeModule) (e : Exception)
    (hdb : ∀ ch ∈ m.channels, ch.fixture.isDb04 ∧ ch.adcBits < 31) (hne : m.channels ≠ [])
    (hlen : m.offsetDacs.length = m.channels.length) (hv : ∀ w ∈ m.offsetDacs, w.toNat ≤ 65535)
    (hw : (env.voffsetDac (-3 / 2)).toNat ≤ 65535)
    (hacq : ∀ calls, env.acquire calls 0 = .error e) :
    ∃ m', AfeDbs.boot env m = (m', .threw e) ∧
      m'.offsetDacs = List.replicate m.channels.length (env.voffsetDac (-3 / 2)) := by
  have h₁ := setChannelVoffset_eq env (-3 / 2) 1 (fun ch hch => (hdb ch hch).1) hlen.ge hw hv
  dsimp only at h₁
  rw [voffsetWords_one _ hlen] at h₁
  obtain ⟨started, hs⟩ := startBaselines_returned 0 m.channels fun ch h => (hdb ch h).2
  obtain ⟨ch, chs, hcs⟩ := List.exists_cons_of_ne_nil hne
  have h₂ := analyzeChannelBaselines_capture_threw env
    (m := { m with offsetDacs := List.replicate m.channels.length (env.voffsetDac (-3 / 2)),
                   calls := m.calls ++ dacCalls ((List.replicate m.channels.length
                     (env.voffsetDac (-3 / 2))).take m.channels.length) }) hs
    (by rw [hcs]; exact captureTraces_first_threw (hdb ch (hcs ▸ List.mem_cons_self _ _)).1 (hacq _))
  simp only [AfeDbs.boot, bind_of_returned h₁, bind_of_threw h₂]
  exact ⟨_, rfl, rfl⟩

/-! ### A run on one channel

One DB04 channel at DB 0, offset 0, with an 8-bit ADC and its OffsetDAC variable at word 0,
on hardware whose voltage offsets are all word 0: each step of `boot` on it, stated for every
swap state and every call history. -/

/-- One DB04 channel, DB 0 offset 0, 8-bit ADC, in swap state `s`, its OffsetDAC variable at
word 0, after the calls `calls`. -/
def oneDb (s : AdcSwapState) (calls : List AfeCall) : AfeModule :=
  ⟨[⟨.db04 0 0 s, 8, 0⟩], [0], fun _ => 0, calls⟩

@[simp] theorem oneDb_channels (s : AdcSwapState) (calls : List AfeCall) :
    (oneDb s calls).channels = [⟨.db04 0 0 s, 8, 0⟩] := rfl

section OneDb

variable (env : AfeEnv) {β : Type} {s : AdcSwapState} (calls : List AfeCall)

theorem setChannelVoffset_oneDb (henv : ∀ v, env.voffsetDac v = 0) (v : ℚ) (step : ℕ)
    (f : Unit → AfeM β) :
    (setChannelVoffset env v step >>= f) (oneDb s calls) =
      f () (oneDb s (calls ++ [.setDac 0 0])) := by
  refine bind_of_returned ?_
  rw [setChannelVoffset_eq env v step (by simp [oneDb, Fixture.isDb04]) (by simp [oneDb])
    (by rw [henv]; decide) (by simp [oneDb])]
  simp [oneDb, voffsetWords, henv, dacCalls, show List.range 1 = [0] from rfl]

theorem analyzeChannelBaselines_oneDb {trace : List AdcWord} {b b' : ChannelBaseline}
    (hacq : env.acquire (calls ++ [.getTraces]) 0 = .ok trace)
    (hb : (ChannelBaseline.new ChannelBaseline.defaultNoise).start 0 8 = .returned b)
    (hb' : (b.update trace).bind ChannelBaseline.finish = some b')
    (f : List ChannelBaseline → AfeM β) :
    (analyzeChannelBaselines env >>= f) (oneDb s calls) = f [b'] (oneDb s (calls ++ [.getTraces])) :=
  bind_of_returned (analyzeChannelBaselines_eq_returned.mpr ⟨[b], [trace],
    (startBaselines_cons hb).trans rfl, captureTraces_singleton rfl hacq,
    by rw [analyzeTraces_singleton, hb']; rfl, rfl⟩)

theorem swapPass_oneDb_unswapped {swapped : ℕ → Option Bool} (h : swapped 0 = some false)
    (f : Unit → AfeM β) :
    (swapPass env swapped >>= f) (oneDb .bootState calls) = f () (oneDb .unswapped calls) := by
  refine bind_of_returned ?_
  simp only [swapPass, oneDb, get_bind_apply, List.length_singleton,
    show List.range 1 = [0] from rfl, List.forM_cons', List.forM_nil', bind_apply, h,
    ofOption_some, pure_apply, get_apply]
  rfl

end OneDb

theorem verifyFailed_one (b b' : ChannelBaseline) :
    verifyFailed [b] [b'] 1 = some (b.eqBaseline b') := by
  simp [verifyFailed, swapDecision, show List.range 1 = [0] from rfl]

/-- One channel whose baseline reads a flat trace at 100, then at 101 in every later capture. -/
def nearBaselines : AfeEnv :=
  ⟨fun _ => 0, fun calls _ => .ok (if calls.count .getTraces ≤ 1 then [100] else [101]),
    fun _ => .ok ()⟩

/-- The even channel 0 whose baseline moved by one code, within the noise range of an 8-bit
ADC (`b₀ == b₁` as `int`s), is not flagged swapped: the test on even channels compares the
baselines exactly. The verification compares exactly too, and `boot` returns. -/
theorem boot_even_channel_within_noise :
    ∃ started b₀ b₁, startBaselines 0 (oneDb .bootState []).channels = .returned started ∧
      analyzeTraces started [[100]] = some [b₀] ∧ analyzeTraces started [[101]] = some [b₁] ∧
      b₀.eqInt b₁.baseline = some true ∧ b₀.baseline ≠ b₁.baseline ∧
      AfeDbs.boot nearBaselines (oneDb .bootState []) =
        (oneDb .unswapped [.setDac 0 0, .getTraces, .setDac 0 0, .getTraces, .getTraces,
          .setDac 0 0], .returned ()) := by
  obtain ⟨b, b₀, hb, hb₀, hbl₀⟩ := ChannelBaseline.start_update_finish_one_bin 0 8 (by norm_num)
    [100] (by simp) (by simp) (by decide) 100 (by decide)
  obtain ⟨b', b₁, hb', hb₁, hbl₁⟩ := ChannelBaseline.start_update_finish_one_bin 0 8
    (by norm_num) [101] (by simp) (by simp) (by decide) 101 (by decide)
  obtain rfl : b = b' := Exit.returned.inj (hb.symm.trans hb')
  obtain ⟨-, hbits, hnoise⟩ := ChannelBaseline.start_config hb
  obtain ⟨-, hbits₀, hnoise₀⟩ := ChannelBaseline.update_finish_config hb₀
  have hrange : b₀.noiseRange = 1 := by
    rw [ChannelBaseline.noiseRange_defaultNoise (by
      rw [hnoise₀, hnoise, ChannelBaseline.new_noisePercent (by norm_num [ChannelBaseline.defaultNoise])
        (by norm_num [ChannelBaseline.defaultNoise])]), hbits₀, hbits]
    norm_num [Int.floor_eq_iff]
  have hne : b₀.eqBaseline b₁ = false := by simp [ChannelBaseline.eqBaseline, hbl₀, hbl₁]
  refine ⟨[b], b₀, b₁, (startBaselines_cons hb).trans rfl,
    by rw [analyzeTraces_singleton, hb₀]; rfl, by rw [analyzeTraces_singleton, hb₁]; rfl,
    by rw [ChannelBaseline.eqInt, hrange, hbl₀, hbl₁]; decide, by rw [hbl₀, hbl₁]; decide, ?_⟩
  simp only [AfeDbs.boot, setChannelVoffset_oneDb nearBaselines _ (fun _ => rfl),
    analyzeChannelBaselines_oneDb nearBaselines ([] ++ [.setDac 0 0]) (by rfl) hb hb₀,
    analyzeChannelBaselines_oneDb nearBaselines
      ([] ++ [.setDac 0 0] ++ [.getTraces] ++ [.setDac 0 0]) (by rfl) hb hb₁,
    swapPass_oneDb_unswapped nearBaselines _
      (show swapDecision [b₀] [b₁] 0 = some false by simp [swapDecision, hne]),
    analyzeChannelBaselines_oneDb nearBaselines
      ([] ++ [.setDac 0 0] ++ [.getTraces] ++ [.setDac 0 0] ++ [.getTraces]) (by rfl) hb hb₁,
    get_bind_apply, oneDb_channels, List.length_singleton, verifyFailed_one, hne, ofOption_some,
    pure_bind_apply, Bool.false_eq_true, if_false, pure_apply]
  rfl

/-- Hardware whose ADC acquisitions throw; its -1.5 V offset is DAC word 0 and its 0 V offset
word 32768. -/
def captureThrows : AfeEnv :=
  ⟨fun v => if v < 0 then 0 else 32768, fun _ _ => .error .other, fun _ => .ok ()⟩

theorem boot_capture_threw_one_channel :
    (∀ ch ∈ (oneDb .bootState []).channels, ch.fixture.isDb04 ∧ ch.adcBits < 31) ∧
    (oneDb .bootState []).channels ≠ [] ∧
    (oneDb .bootState []).offsetDacs.length = (oneDb .bootState []).channels.length ∧
    (∀ w ∈ (oneDb .bootState []).offsetDacs, w.toNat ≤ 65535) ∧
    (captureThrows.voffsetDac (-3 / 2)).toNat ≤ 65535 ∧
    (∀ calls, captureThrows.acquire calls 0 = .error .other) ∧
    captureThrows.voffsetDac (-3 / 2) ≠ captureThrows.voffsetDac 0 ∧
    ∃ m', AfeDbs.boot captureThrows (oneDb .bootState []) = (m', .threw .other) ∧
      m'.offsetDacs =
        List.replicate (oneDb .bootState []).channels.length (captureThrows.voffsetDac (-3 / 2)) := by
  have hlow : captureThrows.voffsetDac (-3 / 2) = 0 :=
    show (if (-3 / 2 : ℚ) < 0 then 0 else 32768 : Word) = 0 from if_pos (by norm_num)
  have hzero : captureThrows.voffsetDac 0 = 32768 :=
    show (if (0 : ℚ) < 0 then 0 else 32768 : Word) = 32768 from if_neg (lt_irrefl _)
  have hw : (captureThrows.voffsetDac (-3 / 2)).toNat ≤ 65535 := by rw [hlow]; decide
  exact ⟨by decide, by simp, rfl, by decide, hw, fun _ => rfl, by rw [hlow, hzero]; decide,
    boot_capture_threw_keeps_low_rail captureThrows (oneDb .bootState []) .other (by decide)
      (by simp) rfl (by decide) hw fun _ => rfl⟩

end PixieSdk
