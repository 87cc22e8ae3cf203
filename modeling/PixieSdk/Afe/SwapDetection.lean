import PixieSdk.Afe.Boot
import PixieSdk.Afe.FlatTraces

/-! # `afe_dbs::boot` finds the swapped ADC pairs

What `boot` is for: the daughter boards digitise channels `2p` and `2p + 1` with one ADC pair,
which a board may swap, so that each channel's ADC reads its partner's input; a set ADCCTRL bit
of the pair undoes the swap. `boot` moves the even channels from the low rail to the high one,
flags the channels whose readings show a swap, sets their pairs' bits, and checks the result.

On hardware whose ADCs read flat traces of the input routed to them, `boot` flags exactly the
swapped pairs, leaves every DB's ADCCTRL register holding its copy, and leaves every channel's
ADC reading its own input. What is assumed of the hardware, as hypotheses rather than proved:
the readings (`RoutedLevels`), the layout of the pairs on the boards (`Paired`), and the rails,
more than two noise ranges apart on every input, with the low rail read within the noise range
on both inputs of a pair (`Rails`). A board outside `Rails` makes the verification fail, and
`boot` puts every channel back to 0 V whether the verification passed or failed. -/

namespace PixieSdk

open AfeM

/-! ### The boards -/

/-- The channel that shares channel `c`'s ADC pair. -/
def partner (c : ℕ) : ℕ :=
  if c % 2 = 0 then c + 1 else c - 1

/-- The value of DB `db`'s ADCCTRL register after the calls: its last write, 0 before any. -/
def adcctrlReg (calls : List AfeCall) (db : ℕ) : Word :=
  (writesTo (.adcctrl db) calls).getLast?.getD 0

/-- The ADCCTRL bit of the pair at DB offset `o`. -/
def pairBit (o : ℤ) : ℕ :=
  (o.tdiv 2).toNat

/-- The input channel `c`'s ADC reads after the calls, its pair swapped on the board when
`swapped c`: its partner's when the pair's ADCCTRL bit disagrees with the swap, its own when
the bit undoes it or there is none to undo. -/
def routed (swapped : ℕ → Bool) (d o : ℕ → ℤ) (calls : List AfeCall) (c : ℕ) : ℕ :=
  if swapped c = (adcctrlReg calls (d c).toNat).toNat.testBit (pairBit (o c)) then c else partner c

/-- Hardware whose ADCs read flat traces: channel `c` reads the level `level r w` of the input
`r` routed to it, at the value `w` last written to `r`'s DAC. -/
def RoutedLevels (env : AfeEnv) (swapped : ℕ → Bool) (d o : ℕ → ℤ)
    (level : ℕ → Word → AdcWord) : Prop :=
  ∀ calls c w, (writesTo (.dac (routed swapped d o calls c)) calls).getLast? = some w →
    ∃ t, env.acquire calls c = .ok t ∧ t ≠ [] ∧ t.length ≤ 8192 ∧
      ∀ x ∈ t, x = level (routed swapped d o calls c) w

/-- The channels `chs` in their boot state on DBs `d c` below `max_dbs`, at offsets `o c`,
all with ADCs of `bits` bits: each channel and its partner share a DB and an ADCCTRL bit, which
no other channel of the DB has, and are swapped together. -/
structure Paired (chs : List AfeChannel) (d o : ℕ → ℤ) (swapped : ℕ → Bool) (bits : ℕ) :
    Prop where
  channel : ∀ (c : ℕ) (ch : AfeChannel), chs[c]? = some ch →
    ch.fixture = .db04 (d c) (o c) .bootState ∧ ch.adcBits = bits
  bits_le : bits ≤ 16
  db : ∀ c < chs.length, 0 ≤ d c ∧ d c < 4
  bit : ∀ c < chs.length, 0 ≤ (o c).tdiv 2 ∧ (o c).tdiv 2 < 32
  partner_lt : ∀ c < chs.length, partner c < chs.length
  partner_place : ∀ c < chs.length, d (partner c) = d c ∧ pairBit (o (partner c)) = pairBit (o c)
  bit_unique : ∀ c < chs.length, ∀ c' < chs.length, d c' = d c → pairBit (o c') = pairBit (o c) →
    c' = c ∨ c' = partner c
  swapped_partner : ∀ c < chs.length, swapped (partner c) = swapped c

/-- The levels of `n` inputs of `bits` bits at the low and high rails' words: within the ADC's
width, the rails more than two noise ranges apart on every input, and the low rail read within
the noise range on both inputs of a pair. -/
structure Rails (level : ℕ → Word → AdcWord) (lo hi : Word) (bits n : ℕ) : Prop where
  fit : ∀ c w, (level c w).toNat < 2 ^ bits
  apart : ∀ c < n, 2 * defaultRange bits < |((level c hi).toNat : ℤ) - (level c lo).toNat|
  low_close : ∀ c < n, |((level (partner c) lo).toNat : ℤ) - (level c lo).toNat| ≤ defaultRange bits

namespace Rails

variable {level : ℕ → Word → AdcWord} {lo hi : Word} {bits n c : ℕ}

theorem low_ne_high (h : Rails level lo hi bits n) (hc : c < n) :
    ((level c lo).toNat : ℤ) ≠ (level c hi).toNat := fun he => by
  have := h.apart c hc
  rw [he, sub_self, abs_zero] at this
  linarith [(defaultRange_bounds bits).1]

theorem not_settled (h : Rails level lo hi bits n) (hc : c < n) :
    ¬ Settled (defaultRange bits) (level c hi).toNat (level c lo).toNat := by
  have := h.apart c hc
  rw [lt_abs] at this
  unfold Settled
  have := (defaultRange_bounds bits).1
  omega

theorem partner_ne_high (h : Rails level lo hi bits n) (hc : c < n) :
    ((level (partner c) lo).toNat : ℤ) ≠ (level c hi).toNat := by
  have h₁ := h.apart c hc
  have h₂ := abs_le.mp (h.low_close c hc)
  rw [lt_abs] at h₁
  omega

theorem partner_settled (h : Rails level lo hi bits n) (hc : c < n) :
    Settled (defaultRange bits) (level c lo).toNat (level (partner c) lo).toNat := by
  have := abs_le.mp (h.low_close c hc)
  unfold Settled
  omega

theorem within_int (h : Rails level lo hi bits n) (hbits : bits ≤ 16) (r : ℕ) (w : Word) :
    intMin ≤ ((level r w).toNat : ℤ) - defaultRange bits ∧
      ((level r w).toNat : ℤ) + defaultRange bits ≤ intMax := by
  have h₁ := h.fit r w
  have h₂ := (defaultRange_bounds bits).2
  have h₃ : (2 : ℤ) ^ bits ≤ 2 ^ 16 := pow_le_pow_right₀ (by norm_num) hbits
  have h₄ : ((2 ^ bits : ℕ) : ℤ) = 2 ^ bits := by push_cast; rfl
  unfold intMin intMax
  omega

end Rails

theorem partner_of_even {c : ℕ} (h : c % 2 = 0) : partner c = c + 1 := if_pos h

theorem partner_mod_two (c : ℕ) : partner c % 2 = 1 - c % 2 := by
  unfold partner
  split_ifs <;> omega

@[simp] theorem adcctrlReg_nil (db : ℕ) : adcctrlReg [] db = 0 := rfl

theorem adcctrlReg_append {calls ws : List AfeCall} (h : ∀ db, writesTo (.adcctrl db) ws = [])
    (db : ℕ) : adcctrlReg (calls ++ ws) db = adcctrlReg calls db := by
  simp [adcctrlReg, h]

theorem adcctrlReg_update {calls : List AfeCall} {copy : Fin 4 → Word}
    (hreg : ∀ db : Fin 4, adcctrlReg calls db = copy db) (db₀ : Fin 4) (value : Word) (db : Fin 4) :
    adcctrlReg (if value ≠ copy db₀ then calls ++ [.writeAdcctrl db₀ value] else calls) db =
      Function.update copy db₀ value db := by
  by_cases hdb : db = db₀
  · subst hdb
    rw [Function.update_same]
    split_ifs with hnew
    · simp [adcctrlReg]
    · rw [hreg]
      exact (not_not.mp hnew).symm
  · have hne : (db₀ : ℕ) ≠ db := fun h => hdb (Fin.ext h.symm)
    rw [Function.update_noteq hdb, ← hreg db]
    split_ifs
    · simp [adcctrlReg, hne]
    · rfl

theorem writesTo_adcctrl_dacCalls (ws : List Word) (db : ℕ) :
    writesTo (.adcctrl db) (dacCalls ws) = [] := by
  simp only [writesTo, List.filterMap_eq_nil_iff]
  intro a ha
  obtain ⟨_, _, rfl⟩ := List.mem_mapIdx.mp ha
  simp [AfeCall.written]

theorem routed_of_clear {swapped : ℕ → Bool} {d o : ℕ → ℤ} {calls : List AfeCall} {c : ℕ}
    (h : adcctrlReg calls (d c).toNat = 0) :
    routed swapped d o calls c = if swapped c then partner c else c := by
  cases hs : swapped c <;> simp [routed, h, hs]

theorem testBit_swapMask (flags : ℕ → Bool) (d o : ℕ → ℤ) (db : ℤ) (k : ℕ) :
    ∀ n, (∀ c < n, 0 ≤ (o c).tdiv 2 ∧ (o c).tdiv 2 < 32) →
      ((swapMask 0 flags d o db n).toNat.testBit k = true ↔
        ∃ c < n, flags c = true ∧ d c = db ∧ pairBit (o c) = k)
  | 0, _ => by simp [swapMask]
  | n + 1, h => by
    rw [Nat.exists_lt_succ, ← testBit_swapMask flags d o db k n fun c hc => h c (by omega),
      swapMask_succ]
    split_ifs with hn
    · have hpow : (UInt32.ofNat (2 ^ ((o n).tdiv 2).toNat)).toNat = 2 ^ ((o n).tdiv 2).toNat :=
        Nat.mod_eq_of_lt (Nat.pow_lt_pow_right (by norm_num) (by have := h n (by omega); omega))
      rw [toNat_word_or, Nat.testBit_or, Bool.or_eq_true, hpow, Nat.testBit_two_pow,
        decide_eq_true_iff]
      simp [hn, pairBit]
    · simp only [iff_self_or]
      exact fun hc => absurd ⟨hc.1, hc.2.1⟩ hn

theorem routed_append_getTraces (swapped : ℕ → Bool) (d o : ℕ → ℤ) (calls : List AfeCall) :
    routed swapped d o (calls ++ [.getTraces]) = routed swapped d o calls := by
  funext c
  simp only [routed, adcctrlReg_append (fun _ => writesTo_getTraces _)]

def Db04Channels (chs : List AfeChannel) (bits : ℕ) : Prop :=
  ∀ (c : ℕ) (ch : AfeChannel), chs[c]? = some ch → ch.fixture.isDb04 ∧ ch.adcBits = bits

theorem Db04Channels.isDb04 {chs : List AfeChannel} {bits : ℕ} (h : Db04Channels chs bits) :
    ∀ ch ∈ chs, ch.fixture.isDb04 := fun ch hm =>
  let ⟨c, hc⟩ := List.mem_iff_getElem?.mp hm
  (h c ch hc).1

theorem Paired.db04Channels {chs : List AfeChannel} {d o : ℕ → ℤ} {swapped : ℕ → Bool}
    {bits : ℕ} (h : Paired chs d o swapped bits) : Db04Channels chs bits := fun c ch hc => by
  rw [(h.channel c ch hc).1]
  exact ⟨rfl, (h.channel c ch hc).2⟩

theorem routed_congr {swapped : ℕ → Bool} {d o : ℕ → ℤ} {calls calls' : List AfeCall}
    (h : adcctrlReg calls' = adcctrlReg calls) :
    routed swapped d o calls' = routed swapped d o calls := by
  funext c
  simp only [routed, h]

/-! ### What the steps around the swap pass keep -/

/-- What `boot`'s steps other than the swap pass keep of the module `M`: its channels and
ADCCTRL copies, calls that write no ADCCTRL register, and enough OffsetDAC words within the
DAC's range. -/
structure Framed (M m : AfeModule) : Prop where
  channels : m.channels = M.channels
  adcctrl : m.adcctrl = M.adcctrl
  calls : ∃ ws, m.calls = M.calls ++ ws ∧ ∀ db, writesTo (.adcctrl db) ws = []
  offsetDacs_length : M.channels.length ≤ m.offsetDacs.length
  offsetDacs_fit : ∀ w ∈ m.offsetDacs, w.toNat ≤ 65535

theorem Framed.refl {M : AfeModule} (hlen : M.channels.length ≤ M.offsetDacs.length)
    (hv : ∀ w ∈ M.offsetDacs, w.toNat ≤ 65535) : Framed M M :=
  ⟨rfl, rfl, ⟨[], by simp, fun _ => rfl⟩, hlen, hv⟩

theorem Framed.adcctrlReg {M m : AfeModule} (h : Framed M m) :
    adcctrlReg m.calls = adcctrlReg M.calls := by
  obtain ⟨ws, hc, hw⟩ := h.calls
  rw [hc]
  exact funext (adcctrlReg_append hw)

theorem Framed.getTraces {M m : AfeModule} (h : Framed M m) :
    Framed M { m with calls := m.calls ++ [.getTraces] } := by
  obtain ⟨ws, hc, hw⟩ := h.calls
  exact ⟨h.channels, h.adcctrl, ⟨ws ++ [.getTraces], by simp [hc], fun db => by simp [hw]⟩,
    h.offsetDacs_length, h.offsetDacs_fit⟩

theorem setChannelVoffset_framed (env : AfeEnv) (v : ℚ) (step : ℕ) {M m : AfeModule}
    (hdb : ∀ ch ∈ m.channels, ch.fixture.isDb04) (hw : (env.voffsetDac v).toNat ≤ 65535)
    (h : Framed M m) :
    ∃ m', setChannelVoffset env v step m = (m', .returned ()) ∧ Framed M m' := by
  have hlen : m.channels.length ≤ m.offsetDacs.length := h.channels ▸ h.offsetDacs_length
  obtain ⟨ws, hc, hws⟩ := h.calls
  refine ⟨_, setChannelVoffset_eq env v step hdb hlen hw h.offsetDacs_fit, h.channels, h.adcctrl,
    ⟨ws ++ _, by rw [hc, List.append_assoc], fun db => by simp [hws, writesTo_adcctrl_dacCalls]⟩, ?_,
    voffsetWords_le step _ hw h.offsetDacs_fit⟩
  rw [length_voffsetWords, ← h.channels]
  exact hlen

theorem routed_of_mask {chs : List AfeChannel} {d o : ℕ → ℤ} {swapped : ℕ → Bool} {bits : ℕ}
    {calls : List AfeCall} (hpair : Paired chs d o swapped bits)
    (hreg : ∀ db : Fin 4, adcctrlReg calls db = swapMask 0 swapped d o db chs.length) {c : ℕ}
    (hc : c < chs.length) : routed swapped d o calls c = c := by
  have hd := hpair.db c hc
  have hmask : adcctrlReg calls (d c).toNat = swapMask 0 swapped d o (d c) chs.length := by
    simpa [Int.toNat_of_nonneg hd.1] using hreg ⟨(d c).toNat, by omega⟩
  have hbit : (swapMask 0 swapped d o (d c) chs.length).toNat.testBit (pairBit (o c)) =
      swapped c := by
    rw [Bool.eq_iff_iff, testBit_swapMask _ _ _ _ _ _ hpair.bit]
    constructor
    · rintro ⟨c', hc', hs, hd', hb⟩
      rcases hpair.bit_unique c hc c' hc' hd' hb with rfl | rfl
      · exact hs
      · rwa [hpair.swapped_partner c hc] at hs
    · exact fun hs => ⟨c, hc, hs, rfl, rfl⟩
  simp [routed, hmask, hbit]

/-! ### Captures and swap tests -/

/-- The baselines of a capture of `n` channels in which channel `c` reads input `r c`, last set
to `w c`: that input's level there, with the default noise range. -/
def Capture (level : ℕ → Word → AdcWord) (bits n : ℕ) (r : ℕ → ℕ) (w : ℕ → Word)
    (bls : List ChannelBaseline) : Prop :=
  ∀ c < n, ∃ b, bls[c]? = some b ∧ b.baseline = ((level (r c) (w c)).toNat : ℤ) ∧
    b.noiseRange = defaultRange bits

theorem analyzeChannelBaselines_routed {env : AfeEnv} {swapped : ℕ → Bool} {d o : ℕ → ℤ}
    {level : ℕ → Word → AdcWord} {m : AfeModule} {bits : ℕ} (hroute : RoutedLevels env swapped d o level)
    (hch : Db04Channels m.channels bits) (hbits : bits ≤ 16) (hfit : ∀ c w, (level c w).toNat < 2 ^ bits)
    {r : ℕ → ℕ} {w : ℕ → Word} (hr : ∀ c < m.channels.length, routed swapped d o m.calls c = r c ∧
      (writesTo (.dac (r c)) m.calls).getLast? = some (w c)) :
    ∃ bls, analyzeChannelBaselines env m = ({ m with calls := m.calls ++ [.getTraces] }, .returned bls) ∧
      Capture level bits m.channels.length r w bls := by
  obtain ⟨bls, hcap, hbls⟩ := analyzeChannelBaselines_levels (fun c => level (r c) (w c)) fun c ch hc => by
    obtain ⟨hdb, rfl⟩ := hch c ch hc
    obtain ⟨hrc, hwc⟩ := hr c (List.getElem?_eq_some_iff.mp hc).1
    obtain ⟨t, ht⟩ := hroute (m.calls ++ [.getTraces]) c (w c) (by simpa [routed_append_getTraces, hrc] using hwc)
    rw [routed_append_getTraces, hrc] at ht
    exact ⟨hdb, by omega, hfit _ _, t, ht⟩
  refine ⟨bls, hcap, fun c hc => ?_⟩
  obtain ⟨b, hb, hbl, -, hR⟩ := hbls c _ (List.getElem?_eq_getElem hc)
  exact ⟨b, hb, hbl, hR.trans (by rw [(hch c _ (List.getElem?_eq_getElem hc)).2])⟩

theorem swapDecision_even {same moved : List ChannelBaseline} {c : ℕ} {b b' : ChannelBaseline}
    (hc : c % 2 = 0) (hb : same[c]? = some b) (hb' : moved[c]? = some b') :
    swapDecision same moved c = some (decide (b.baseline = b'.baseline)) := by
  simp [swapDecision, hb, hb', hc, ChannelBaseline.eqBaseline, beq_eq_decide]

theorem swapDecision_odd {same moved : List ChannelBaseline} {c : ℕ} {b b' : ChannelBaseline}
    (hc : c % 2 = 1) (hb : same[c]? = some b) (hb' : moved[c]? = some b') (hR : 0 ≤ b.noiseRange)
    (hlo : intMin ≤ b'.baseline - b.noiseRange) (hhi : b'.baseline + b.noiseRange ≤ intMax) :
    swapDecision same moved c = some (!decide (Settled b.noiseRange b'.baseline b.baseline)) := by
  simp [swapDecision, hb, hb', hc, ChannelBaseline.neBaseline, ChannelBaseline.neInt,
    eqInt_eq_settled hR hlo hhi]

theorem verifyFailed_of_forall {same verify : List ChannelBaseline} {n : ℕ}
    (h : ∀ c < n, swapDecision same verify c = some false) : verifyFailed same verify n = some false := by
  have : ∀ l : List ℕ, (∀ c ∈ l, swapDecision same verify c = some false) →
      l.foldlM (fun failed chan => (swapDecision same verify chan).map (failed || ·)) false =
        some false := fun l => by
    induction l with
    | nil => exact fun _ => rfl
    | cons c l ih =>
      intro hl
      rw [List.foldlM_cons, hl c (.head _)]
      exact ih fun c' hc' => hl c' (.tail _ hc')
  exact this _ fun c hc => h c (List.mem_range.mp hc)

/-- The input channel `c`'s ADC reads while every ADCCTRL register is clear. -/
def boardInput (swapped : ℕ → Bool) (c : ℕ) : ℕ :=
  if swapped c then partner c else c

/-- The word `set_channel_voffset(1.5, 2)` leaves on input `r`, from all inputs at `lo`: `hi` on
the even ones. -/
def movedRail (lo hi : Word) (r : ℕ) : Word :=
  if r % 2 = 0 then hi else lo

section Decisions

variable {level : ℕ → Word → AdcWord} {lo hi : Word} {bits n : ℕ} {swapped : ℕ → Bool}
  {same other : List ChannelBaseline}

theorem swapDecision_rails (hr : Rails level lo hi bits n) (hbits : bits ≤ 16)
    (hp : ∀ c < n, partner c < n) (hsame : Capture level bits n (boardInput swapped) (fun _ => lo) same)
    (hmoved : Capture level bits n (boardInput swapped) (fun c => movedRail lo hi (boardInput swapped c)) other)
    (c : ℕ) (hc : c < n) : swapDecision same other c = some (swapped c) := by
  obtain ⟨b, hb, hbl, hR⟩ := hsame c hc
  obtain ⟨b', hb', hbl', -⟩ := hmoved c hc
  rcases Nat.mod_two_eq_zero_or_one c with he | ho
  · rw [swapDecision_even he hb hb', hbl, hbl']
    cases hs : swapped c
    · simpa [boardInput, movedRail, hs, he] using hr.low_ne_high hc
    · simp [boardInput, movedRail, hs, partner_of_even he, Nat.succ_mod_two_eq_one_iff.mpr he]
  · rw [swapDecision_odd ho hb hb' (hR ▸ (defaultRange_bounds bits).1)
      (hR ▸ hbl' ▸ (hr.within_int hbits _ _).1) (hR ▸ hbl' ▸ (hr.within_int hbits _ _).2), hbl, hbl', hR]
    cases hs : swapped c
    · simp [boardInput, movedRail, hs, ho, Settled, (defaultRange_bounds bits).1]
    · have he : partner c % 2 = 0 := by rw [partner_mod_two, ho]
      simpa [boardInput, movedRail, hs, he] using hr.not_settled (hp c hc)

theorem swapDecision_verified (hr : Rails level lo hi bits n) (hbits : bits ≤ 16)
    (hsame : Capture level bits n (boardInput swapped) (fun _ => lo) same)
    (hverify : Capture level bits n id (movedRail lo hi) other)
    (c : ℕ) (hc : c < n) : swapDecision same other c = some false := by
  obtain ⟨b, hb, hbl, hR⟩ := hsame c hc
  obtain ⟨b', hb', hbl', -⟩ := hverify c hc
  rcases Nat.mod_two_eq_zero_or_one c with he | ho
  · rw [swapDecision_even he hb hb', hbl, hbl']
    cases hs : swapped c
    · simpa [boardInput, movedRail, hs, he] using hr.low_ne_high hc
    · simpa [boardInput, movedRail, hs, he] using hr.partner_ne_high hc
  · rw [swapDecision_odd ho hb hb' (hR ▸ (defaultRange_bounds bits).1)
      (hR ▸ hbl' ▸ (hr.within_int hbits _ _).1) (hR ▸ hbl' ▸ (hr.within_int hbits _ _).2), hbl, hbl', hR]
    cases hs : swapped c
    · simp [boardInput, movedRail, hs, ho, Settled, (defaultRange_bounds bits).1]
    · simpa [boardInput, movedRail, hs, ho] using hr.partner_settled hc

end Decisions

/-! ### The swap pass -/

/-- The swap state `boot` gives a channel flagged `b`. -/
def swapState (b : Bool) : AdcSwapState :=
  if b then .swapped else .unswapped

/-- The swap pass over channels `0, ..., k - 1` from `M`, whose ADCCTRL registers and copies are
clear, has left `m`: those channels in their swap states, each DB's copy holding their mask and its
register the copy, no DAC written. -/
structure SwapDone (swapped : ℕ → Bool) (d o : ℕ → ℤ) (M : AfeModule) (k : ℕ) (m : AfeModule) :
    Prop where
  channels : ∀ (c : ℕ) (ch : AfeChannel), M.channels[c]? = some ch → m.channels[c]? =
    some (if c < k then { ch with fixture := .db04 (d c) (o c) (swapState (swapped c)) } else ch)
  length : m.channels.length = M.channels.length
  offsetDacs : m.offsetDacs = M.offsetDacs
  calls : ∃ ws, m.calls = M.calls ++ ws ∧ ∀ c, writesTo (.dac c) ws = []
  adcctrl : ∀ db : Fin 4, m.adcctrl db = swapMask 0 swapped d o db k ∧ adcctrlReg m.calls db = m.adcctrl db

section SwapDone

variable {env : AfeEnv} {swapped : ℕ → Bool} {d o : ℕ → ℤ} {M m : AfeModule} {k bits : ℕ}

theorem swapDone_zero (hzero : ∀ db : Fin 4, M.adcctrl db = 0 ∧ adcctrlReg M.calls db = 0) :
    SwapDone swapped d o M 0 M :=
  ⟨fun _ _ hc => by simpa using hc, rfl, rfl, ⟨[], by simp, fun _ => rfl⟩, fun db => by
    simp [swapMask, (hzero db).1, (hzero db).2]⟩

theorem SwapDone.setFixture_channels (h : SwapDone swapped d o M k m) {c : ℕ} {ch : AfeChannel}
    (hc : M.channels[c]? = some ch) :
    (m.setFixture k (.db04 (d k) (o k) (swapState (swapped k)))).channels[c]? =
      some (if c < k + 1 then { ch with fixture := .db04 (d c) (o c) (swapState (swapped c)) } else ch) := by
  rw [AfeModule.setFixture, List.getElem?_modify, h.channels c ch hc]
  split_ifs <;> first | omega | (subst_vars; rfl)

theorem swapDone_step (hwrite : ∀ calls, env.writeAdcctrl calls = .ok ())
    (hpair : Paired M.channels d o swapped bits) (hk : k < M.channels.length)
    (h : SwapDone swapped d o M k m) :
    ∃ m', swapChannel env k (swapped k) m = (m', .returned ()) ∧ SwapDone swapped d o M (k + 1) m' := by
  obtain ⟨ch, hchM⟩ : ∃ ch, M.channels[k]? = some ch := ⟨_, List.getElem?_eq_getElem hk⟩
  have hch : m.channels[k]? = some ch := by simpa using h.channels k ch hchM
  have hset : ch.fixture.setBool "ADC_SWAP" (swapped k) =
      .ok (.db04 (d k) (o k) (swapState (swapped k))) := by
    rw [(hpair.channel k ch hchM).1, Fixture.setBool_adcSwap]
    rfl
  obtain ⟨ws, hcalls, hdac⟩ := h.calls
  have hchans := fun c ch' (hc : M.channels[c]? = some ch') => h.setFixture_channels hc
  cases hs : swapped k with
  | false =>
    rw [hs] at hset hchans
    refine ⟨_, swapChannel_false hch hset, ⟨hchans, by simp [h.length], h.offsetDacs,
      ⟨ws, hcalls, hdac⟩, fun db => ?_⟩⟩
    simpa [swapMask_succ, hs] using h.adcctrl db
  | true =>
    rw [hs] at hset hchans
    have hd := hpair.db k hk
    set db₀ : Fin 4 := ⟨(d k).toNat, by omega⟩
    have hdb₀ : ((db₀ : ℕ) : ℤ) = d k := Int.toNat_of_nonneg hd.1
    refine ⟨_, swapChannel_valid hch hset db₀ (by rw [Fixture.getInt_dbNumber, hdb₀])
      (Fixture.getInt_dbOffset ..) (adcctrlBit_eq (hpair.bit k hk).1 (hpair.bit k hk).2) hwrite, ?_⟩
    set value := m.adcctrl db₀ ||| UInt32.ofNat (2 ^ ((o k).tdiv 2).toNat)
    refine ⟨hchans, by simp [h.length], h.offsetDacs,
      ⟨if value ≠ m.adcctrl db₀ then ws ++ [.writeAdcctrl db₀ value] else ws,
        by split_ifs <;> simp [hcalls], fun c => by split_ifs <;> simp [hdac]⟩,
      fun db => ⟨?_, adcctrlReg_update (fun db => (h.adcctrl db).2) db₀ _ db⟩⟩
    dsimp only
    rw [swapMask_succ]
    by_cases hdb : db = db₀
    · subst hdb
      rw [Function.update_same, if_pos ⟨hs, hdb₀.symm⟩, ← (h.adcctrl _).1]
    · rw [Function.update_noteq hdb, if_neg fun h' => hdb (Fin.ext (by omega)), (h.adcctrl db).1]

theorem swapPass_done (hwrite : ∀ calls, env.writeAdcctrl calls = .ok ())
    (hpair : Paired M.channels d o swapped bits)
    (hzero : ∀ db : Fin 4, M.adcctrl db = 0 ∧ adcctrlReg M.calls db = 0) {g : ℕ → Option Bool}
    (hg : ∀ c < M.channels.length, g c = some (swapped c)) :
    ∃ m', swapPass env g M = (m', .returned ()) ∧ SwapDone swapped d o M M.channels.length m' := by
  obtain ⟨m', hm', hI⟩ := forM_range'_returned (I := SwapDone swapped d o M)
    (f := fun chan => ofOption (g chan) >>= swapChannel env chan) 0 M.channels.length
    (fun k m' _ hk hI => by
      simp only [hg k (by omega), ofOption_some, pure_bind_apply]
      exact swapDone_step hwrite hpair (by omega) hI) (swapDone_zero hzero)
  refine ⟨m', ?_, by simpa using hI⟩
  rw [← hm', ← List.range_eq_range']
  rfl

theorem SwapDone.db04Channels (h : SwapDone swapped d o M k m) (hM : Db04Channels M.channels bits) :
    Db04Channels m.channels bits := fun c ch hc => by
  obtain ⟨ch₀, h₀⟩ : ∃ ch₀, M.channels[c]? = some ch₀ :=
    ⟨_, List.getElem?_eq_getElem (h.length ▸ (List.getElem?_eq_some_iff.mp hc).1)⟩
  rw [h.channels c ch₀ h₀, Option.some_inj] at hc
  subst hc
  split_ifs
  exacts [⟨rfl, (hM c ch₀ h₀).2⟩, hM c ch₀ h₀]

theorem SwapDone.routed (hpair : Paired M.channels d o swapped bits)
    (h : SwapDone swapped d o M M.channels.length m) {c : ℕ} (hc : c < M.channels.length) :
    routed swapped d o m.calls c = c :=
  routed_of_mask hpair (fun db => by rw [(h.adcctrl db).2, (h.adcctrl db).1]) hc

end SwapDone

/-! ### `boot` -/

theorem setChannelVoffset_rails {env : AfeEnv} {m m₁ m₃ : AfeModule}
    (h₁ : setChannelVoffset env (-3 / 2) 1 m = (m₁, .returned ()))
    (h₃ : setChannelVoffset env (3 / 2) 2 { m₁ with calls := m₁.calls ++ [.getTraces] } = (m₃, .returned ()))
    (c : ℕ) (hc : c < m.channels.length) :
    (writesTo (.dac c) m₁.calls).getLast? = some (env.voffsetDac (-3 / 2)) ∧
      (writesTo (.dac c) m₃.calls).getLast? =
        some (movedRail (env.voffsetDac (-3 / 2)) (env.voffsetDac (3 / 2)) c) := by
  obtain ⟨hch₁, hw₁⟩ := setChannelVoffset_one_returned h₁
  obtain ⟨hoff, hlast⟩ := hw₁ c hc
  obtain ⟨w, -, hw, hif⟩ := (setChannelVoffset_returned_words h₃).2 c (by rwa [hch₁])
  refine ⟨hlast, ?_⟩
  rw [hw, ← hif, movedRail]
  split_ifs
  · rfl
  · exact hoff

section Boot

variable {env : AfeEnv} {m : AfeModule} {level : ℕ → Word → AdcWord} {swapped : ℕ → Bool}
  {d o : ℕ → ℤ} {bits : ℕ}

theorem rails_captured (hroute : RoutedLevels env swapped d o level)
    (hpair : Paired m.channels d o swapped bits) (hfit : ∀ c w, (level c w).toNat < 2 ^ bits)
    (hclear : ∀ db : Fin 4, m.adcctrl db = 0 ∧ adcctrlReg m.calls db = 0)
    (hlen : m.channels.length ≤ m.offsetDacs.length) (hv : ∀ w ∈ m.offsetDacs, w.toNat ≤ 65535)
    (hlo : (env.voffsetDac (-3 / 2)).toNat ≤ 65535) (hhi : (env.voffsetDac (3 / 2)).toNat ≤ 65535) :
    ∃ m₁ same m₃ moved, setChannelVoffset env (-3 / 2) 1 m = (m₁, .returned ()) ∧
      analyzeChannelBaselines env m₁ = ({ m₁ with calls := m₁.calls ++ [.getTraces] }, .returned same) ∧
      setChannelVoffset env (3 / 2) 2 { m₁ with calls := m₁.calls ++ [.getTraces] } = (m₃, .returned ()) ∧
      analyzeChannelBaselines env m₃ = ({ m₃ with calls := m₃.calls ++ [.getTraces] }, .returned moved) ∧
      Framed m m₃ ∧
      (∀ c < m.channels.length, (writesTo (.dac c) m₃.calls).getLast? =
        some (movedRail (env.voffsetDac (-3 / 2)) (env.voffsetDac (3 / 2)) c)) ∧
      Capture level bits m.channels.length (boardInput swapped) (fun _ => env.voffsetDac (-3 / 2)) same ∧
      Capture level bits m.channels.length (boardInput swapped)
        (fun c => movedRail (env.voffsetDac (-3 / 2)) (env.voffsetDac (3 / 2)) (boardInput swapped c)) moved := by
  have hch := hpair.db04Channels
  have hboard : ∀ {m'}, Framed m m' → ∀ c < m.channels.length,
      routed swapped d o m'.calls c = boardInput swapped c := fun hF c hc => by
    have hd := hpair.db c hc
    rw [routed_congr hF.adcctrlReg, routed_of_clear (hclear ⟨_, (Int.toNat_lt hd.1).mpr hd.2⟩).2]
    rfl
  have hbl : ∀ c < m.channels.length, boardInput swapped c < m.channels.length := fun c hc => by
    unfold boardInput
    split_ifs
    exacts [hpair.partner_lt c hc, hc]
  -- every input at the low rail, then the even ones at the high rail
  obtain ⟨m₁, h₁, hF₁⟩ := setChannelVoffset_framed env (-3 / 2) 1 hch.isDb04 hlo (Framed.refl hlen hv)
  obtain ⟨m₃, h₃, hF₃⟩ := setChannelVoffset_framed env (3 / 2) 2 (hF₁.channels ▸ hch.isDb04) hhi hF₁.getTraces
  have hw := setChannelVoffset_rails h₁ h₃
  obtain ⟨same, hs, hsame⟩ := analyzeChannelBaselines_routed hroute (hF₁.channels ▸ hch) hpair.bits_le
    hfit (r := boardInput swapped) (w := fun _ => env.voffsetDac (-3 / 2))
    fun c hc => ⟨hboard hF₁ c (hF₁.channels ▸ hc), (hw _ (hbl c (hF₁.channels ▸ hc))).1⟩
  obtain ⟨moved, hm, hmoved⟩ := analyzeChannelBaselines_routed hroute (hF₃.channels ▸ hch) hpair.bits_le
    hfit (r := boardInput swapped)
    (w := fun c => movedRail (env.voffsetDac (-3 / 2)) (env.voffsetDac (3 / 2)) (boardInput swapped c))
    fun c hc => ⟨hboard hF₃ c (hF₃.channels ▸ hc), (hw _ (hbl c (hF₃.channels ▸ hc))).2⟩
  exact ⟨m₁, same, m₃, moved, h₁, hs, h₃, hm, hF₃, fun c hc => (hw c hc).2, hF₁.channels ▸ hsame,
    hF₃.channels ▸ hmoved⟩

theorem swapPass_verified (hroute : RoutedLevels env swapped d o level)
    (hpair : Paired m.channels d o swapped bits)
    (hrails : Rails level (env.voffsetDac (-3 / 2)) (env.voffsetDac (3 / 2)) bits m.channels.length)
    (hclear : ∀ db : Fin 4, m.adcctrl db = 0 ∧ adcctrlReg m.calls db = 0)
    (hwrite : ∀ calls, env.writeAdcctrl calls = .ok ()) {M : AfeModule} (hF : Framed m M)
    (hw : ∀ c < m.channels.length, (writesTo (.dac c) M.calls).getLast? =
      some (movedRail (env.voffsetDac (-3 / 2)) (env.voffsetDac (3 / 2)) c))
    {same moved : List ChannelBaseline}
    (hsame : Capture level bits m.channels.length (boardInput swapped) (fun _ => env.voffsetDac (-3 / 2)) same)
    (hmoved : Capture level bits m.channels.length (boardInput swapped)
      (fun c => movedRail (env.voffsetDac (-3 / 2)) (env.voffsetDac (3 / 2)) (boardInput swapped c)) moved) :
    ∃ m₅ verify, swapPass env (swapDecision same moved) M = (m₅, .returned ()) ∧
      analyzeChannelBaselines env m₅ = ({ m₅ with calls := m₅.calls ++ [.getTraces] }, .returned verify) ∧
      SwapDone swapped d o M M.channels.length m₅ ∧
      verifyFailed same verify m₅.channels.length = some false := by
  obtain ⟨m₅, h₅, hdone⟩ := swapPass_done hwrite (hF.channels ▸ hpair)
    (fun db => ⟨by rw [hF.adcctrl, (hclear db).1], by rw [hF.adcctrlReg, (hclear db).2]⟩)
    fun c hc => swapDecision_rails hrails hpair.bits_le hpair.partner_lt hsame hmoved c (hF.channels ▸ hc)
  obtain ⟨ws, hws, hwsdac⟩ := hdone.calls
  have hlen₅ : m₅.channels.length = m.channels.length := hdone.length.trans (by rw [hF.channels])
  obtain ⟨verify, hver, hverify⟩ := analyzeChannelBaselines_routed hroute
    (hdone.db04Channels (hF.channels ▸ hpair.db04Channels)) hpair.bits_le hrails.fit (r := id)
    (w := movedRail (env.voffsetDac (-3 / 2)) (env.voffsetDac (3 / 2)))
    fun c hc => ⟨hdone.routed (hF.channels ▸ hpair) (hdone.length ▸ hc), by
      rw [hws, writesTo_append, hwsdac, List.append_nil]
      exact hw c (hlen₅ ▸ hc)⟩
  exact ⟨m₅, verify, h₅, hver, hdone, verifyFailed_of_forall fun c hc =>
    swapDecision_verified hrails hpair.bits_le hsame (hlen₅ ▸ hverify) c (hlen₅ ▸ hc)⟩

/-- What a returned `boot` leaves of the module `M` whose channels are paired as `swapped` says:
each channel in its pair's swap state, each DB's ADCCTRL copy holding the mask of its swapped
channels and its register the copy, and enough OffsetDAC words within the DAC's range. -/
structure Booted (swapped : ℕ → Bool) (d o : ℕ → ℤ) (M m : AfeModule) : Prop where
  channels : ∀ (c : ℕ) (ch : AfeChannel), M.channels[c]? = some ch →
    m.channels[c]? = some { ch with fixture := .db04 (d c) (o c) (swapState (swapped c)) }
  length : m.channels.length = M.channels.length
  adcctrl : ∀ db : Fin 4, m.adcctrl db = swapMask 0 swapped d o db M.channels.length ∧
    adcctrlReg m.calls db = m.adcctrl db
  offsetDacs_length : M.channels.length ≤ m.offsetDacs.length
  offsetDacs_fit : ∀ w ∈ m.offsetDacs, w.toNat ≤ 65535

theorem swapState_ne_bootState (b : Bool) : swapState b ≠ .bootState := by
  cases b <;> simp [swapState]

theorem Booted.db04Channels {M : AfeModule} (hB : Booted swapped d o M m)
    (hM : Db04Channels M.channels bits) : Db04Channels m.channels bits := fun c ch hc => by
  obtain ⟨ch₀, h₀⟩ : ∃ ch₀, M.channels[c]? = some ch₀ :=
    ⟨_, List.getElem?_eq_getElem (hB.length ▸ (List.getElem?_eq_some_iff.mp hc).1)⟩
  rw [hB.channels c ch₀ h₀, Option.some_inj] at hc
  subst hc
  exact ⟨rfl, (hM c ch₀ h₀).2⟩

theorem Booted.kept {M : AfeModule} (hB : Booted swapped d o M m) {c : ℕ} (hc : c < m.channels.length) :
    ∃ ch, m.channels[c]? = some ch ∧ ch.fixture.setBool "ADC_SWAP" false = .ok ch.fixture := by
  obtain ⟨ch₀, h₀⟩ : ∃ ch₀, M.channels[c]? = some ch₀ :=
    ⟨_, List.getElem?_eq_getElem (hB.length ▸ hc)⟩
  exact ⟨_, hB.channels c ch₀ h₀, by simp [swapState_ne_bootState]⟩

theorem setFixture_self {m : AfeModule} {chan : ℕ} {ch : AfeChannel}
    (h : m.channels[chan]? = some ch) : m.setFixture chan ch.fixture = m := by
  suffices hl : m.channels.modify (fun ch' => { ch' with fixture := ch.fixture }) chan = m.channels by
    simp only [AfeModule.setFixture, hl]
  refine List.ext_getElem? fun i => ?_
  rcases eq_or_ne chan i with rfl | hi
  · simp [List.getElem?_modify, h]
  · simp [List.getElem?_modify, hi]

theorem swapPass_unswapped {g : ℕ → Option Bool} (hg : ∀ c < m.channels.length, g c = some false)
    (hkept : ∀ c < m.channels.length, ∃ ch, m.channels[c]? = some ch ∧
      ch.fixture.setBool "ADC_SWAP" false = .ok ch.fixture) :
    swapPass env g m = (m, .returned ()) := by
  obtain ⟨m', hm', rfl⟩ := forM_range'_returned (I := fun _ m' => m' = m)
    (f := fun chan => ofOption (g chan) >>= swapChannel env chan) 0 m.channels.length
    (fun k m' _ hk hI => by
      subst hI
      obtain ⟨ch, hch, hset⟩ := hkept k (by omega)
      simp only [hg k (by omega), ofOption_some, pure_bind_apply]
      exact ⟨_, swapChannel_false hch hset, setFixture_self hch⟩) rfl
  rw [← hm', ← List.range_eq_range']
  rfl

theorem swapDecision_own {n : ℕ} {same other : List ChannelBaseline}
    (hr : Rails level (env.voffsetDac (-3 / 2)) (env.voffsetDac (3 / 2)) bits n) (hbits : bits ≤ 16)
    (hsame : Capture level bits n id (fun _ => env.voffsetDac (-3 / 2)) same)
    (hother : Capture level bits n id (movedRail (env.voffsetDac (-3 / 2)) (env.voffsetDac (3 / 2))) other)
    (c : ℕ) (hc : c < n) : swapDecision same other c = some false :=
  @swapDecision_verified level _ _ bits n (fun _ => false) same other hr hbits hsame hother c hc

theorem boot_booted (hroute : RoutedLevels env swapped d o level)
    (hpair : Paired m.channels d o swapped bits)
    (hrails : Rails level (env.voffsetDac (-3 / 2)) (env.voffsetDac (3 / 2)) bits m.channels.length)
    (hclear : ∀ db : Fin 4, m.adcctrl db = 0 ∧ adcctrlReg m.calls db = 0)
    (hwrite : ∀ calls, env.writeAdcctrl calls = .ok ())
    (hlen : m.channels.length ≤ m.offsetDacs.length) (hv : ∀ w ∈ m.offsetDacs, w.toNat ≤ 65535)
    (hlo : (env.voffsetDac (-3 / 2)).toNat ≤ 65535) (hhi : (env.voffsetDac (3 / 2)).toNat ≤ 65535)
    (hzero : (env.voffsetDac 0).toNat ≤ 65535) :
    ∃ m', AfeDbs.boot env m = (m', .returned ()) ∧ Booted swapped d o m m' ∧
      ∀ c < m.channels.length, (writesTo (.dac c) m'.calls).getLast? = some (env.voffsetDac 0) := by
  obtain ⟨m₁, same, m₃, moved, h₁, hs, h₃, hm, hF₃, hw₃, hsame, hmoved⟩ :=
    rails_captured hroute hpair hrails.fit hclear hlen hv hlo hhi
  have hF₄ := hF₃.getTraces
  obtain ⟨m₅, verify, h₅, hver, hdone, hfail⟩ := swapPass_verified hroute hpair hrails hclear hwrite hF₄
    (fun c hc => by
      rw [writesTo_append, writesTo_getTraces, List.append_nil]
      exact hw₃ c hc) hsame hmoved
  -- every offset back to 0 V
  have hlen₅ : m₅.channels.length = m.channels.length := hdone.length.trans (by rw [hF₄.channels])
  obtain ⟨m₇, h₇, hF₇⟩ := setChannelVoffset_framed env 0 1 (M := { m₅ with calls := m₅.calls ++ [.getTraces] })
    (m := { m₅ with calls := m₅.calls ++ [.getTraces] })
    (hdone.db04Channels (hF₄.channels ▸ hpair.db04Channels)).isDb04 hzero (Framed.refl
      (by simpa [hdone.offsetDacs, hlen₅] using hF₄.offsetDacs_length)
      (by simpa [hdone.offsetDacs] using hF₄.offsetDacs_fit))
  have hmask : ∀ db : Fin 4, m₅.adcctrl db = swapMask 0 swapped d o db m.channels.length := fun db => by
    rw [(hdone.adcctrl db).1, hF₄.channels]
  refine ⟨m₇, ?_, ⟨fun c ch hc => ?_, by rw [hF₇.channels]; exact hlen₅, fun db => ⟨?_, ?_⟩,
    hlen₅ ▸ hF₇.offsetDacs_length, hF₇.offsetDacs_fit⟩,
    fun c hc => ((setChannelVoffset_one_returned h₇).2 c (hlen₅ ▸ hc)).2⟩
  · simp only [AfeDbs.boot, bind_of_returned h₁, bind_of_returned hs, bind_of_returned h₃,
      bind_of_returned hm, bind_of_returned h₅, bind_of_returned hver, get_bind_apply, hfail,
      ofOption_some, pure_bind_apply, bind_of_returned h₇]
    rfl
  · rw [hF₇.channels]
    simpa [hF₃.channels, (List.getElem?_eq_some_iff.mp hc).1] using
      hdone.channels c ch (by rwa [hF₄.channels])
  · rw [hF₇.adcctrl]
    exact hmask db
  · rw [hF₇.adcctrlReg, hF₇.adcctrl, adcctrlReg_append fun _ => writesTo_getTraces _]
    exact (hdone.adcctrl db).2

/-- `afe_dbs::boot` finds the swapped ADC pairs: on routed hardware with paired channels, rails
apart and clear ADCCTRL registers, it returns with every channel in its pair's swap state and
reading its own input, every register holding its copy, and every offset at 0 V. -/
theorem boot_finds_swapped_pairs (hroute : RoutedLevels env swapped d o level)
    (hpair : Paired m.channels d o swapped bits)
    (hrails : Rails level (env.voffsetDac (-3 / 2)) (env.voffsetDac (3 / 2)) bits m.channels.length)
    (hclear : ∀ db : Fin 4, m.adcctrl db = 0 ∧ adcctrlReg m.calls db = 0)
    (hwrite : ∀ calls, env.writeAdcctrl calls = .ok ())
    (hlen : m.channels.length ≤ m.offsetDacs.length) (hv : ∀ w ∈ m.offsetDacs, w.toNat ≤ 65535)
    (hlo : (env.voffsetDac (-3 / 2)).toNat ≤ 65535) (hhi : (env.voffsetDac (3 / 2)).toNat ≤ 65535)
    (hzero : (env.voffsetDac 0).toNat ≤ 65535) :
    ∃ m', AfeDbs.boot env m = (m', .returned ()) ∧
      (∀ c < m.channels.length,
        (m'.channels[c]?).map (·.fixture) = some (.db04 (d c) (o c) (swapState (swapped c))) ∧
        routed swapped d o m'.calls c = c ∧
        (writesTo (.dac c) m'.calls).getLast? = some (env.voffsetDac 0)) ∧
      ∀ db : Fin 4, adcctrlReg m'.calls db = m'.adcctrl db := by
  obtain ⟨m', hboot, hB, hzero'⟩ := boot_booted hroute hpair hrails hclear hwrite hlen hv hlo hhi hzero
  refine ⟨m', hboot, fun c hc => ⟨?_, routed_of_mask hpair
    (fun db => by rw [(hB.adcctrl db).2, (hB.adcctrl db).1]) hc, hzero' c hc⟩, fun db => (hB.adcctrl db).2⟩
  simp [hB.channels c _ (List.getElem?_eq_getElem hc)]

theorem boot_of_booted {M : AfeModule} (hroute : RoutedLevels env swapped d o level)
    (hpair : Paired M.channels d o swapped bits)
    (hrails : Rails level (env.voffsetDac (-3 / 2)) (env.voffsetDac (3 / 2)) bits M.channels.length)
    (hB : Booted swapped d o M m)
    (hlo : (env.voffsetDac (-3 / 2)).toNat ≤ 65535) (hhi : (env.voffsetDac (3 / 2)).toNat ≤ 65535)
    (hzero : (env.voffsetDac 0).toNat ≤ 65535) :
    ∃ m', AfeDbs.boot env m = (m', .returned ()) ∧ Framed m m' := by
  have hch := hB.db04Channels hpair.db04Channels
  have hown : ∀ {m'}, Framed m m' → ∀ c < m'.channels.length, routed swapped d o m'.calls c = c :=
    fun hF c hc => by
      rw [routed_congr hF.adcctrlReg]
      exact routed_of_mask hpair (fun db => by rw [(hB.adcctrl db).2, (hB.adcctrl db).1])
        (by rwa [hF.channels, hB.length] at hc)
  -- the captures at the rails, each channel reading its own input
  obtain ⟨m₁, h₁, hF₁⟩ := setChannelVoffset_framed env (-3 / 2) 1 hch.isDb04 hlo
    (Framed.refl (hB.length ▸ hB.offsetDacs_length) hB.offsetDacs_fit)
  obtain ⟨m₃, h₃, hF₃⟩ := setChannelVoffset_framed env (3 / 2) 2 (hF₁.channels ▸ hch.isDb04) hhi hF₁.getTraces
  have hw := setChannelVoffset_rails h₁ h₃
  obtain ⟨same, hs, hsame⟩ := analyzeChannelBaselines_routed hroute (hF₁.channels ▸ hch) hpair.bits_le
    hrails.fit (r := id) (w := fun _ => env.voffsetDac (-3 / 2))
    fun c hc => ⟨hown hF₁ c hc, (hw c (hF₁.channels ▸ hc)).1⟩
  obtain ⟨moved, hm, hmoved⟩ := analyzeChannelBaselines_routed hroute (hF₃.channels ▸ hch) hpair.bits_le
    hrails.fit (r := id) (w := movedRail (env.voffsetDac (-3 / 2)) (env.voffsetDac (3 / 2)))
    fun c hc => ⟨hown hF₃ c hc, (hw c (hF₃.channels ▸ hc)).2⟩
  -- no channel is flagged, and the verifying capture reads as the second
  have hF₄ := hF₃.getTraces
  have hn : ∀ {m'}, Framed m m' → m'.channels.length = M.channels.length := fun hF => by
    rw [hF.channels, hB.length]
  have hpass : swapPass env (swapDecision same moved) { m₃ with calls := m₃.calls ++ [.getTraces] } =
      ({ m₃ with calls := m₃.calls ++ [.getTraces] }, .returned ()) := swapPass_unswapped
    (fun c hc => swapDecision_own hrails hpair.bits_le (hn hF₁ ▸ hsame) (hn hF₃ ▸ hmoved) c (hn hF₄ ▸ hc))
    fun c hc => hB.kept (by rwa [hF₄.channels] at hc) |>.imp fun ch h => ⟨by rw [hF₄.channels]; exact h.1, h.2⟩
  obtain ⟨verify, hver, hverify⟩ := analyzeChannelBaselines_routed hroute (hF₄.channels ▸ hch) hpair.bits_le
    hrails.fit (r := id) (w := movedRail (env.voffsetDac (-3 / 2)) (env.voffsetDac (3 / 2)))
    fun c hc => ⟨hown hF₄ c hc, by
      rw [writesTo_append, writesTo_getTraces, List.append_nil]
      exact (hw c (hF₄.channels ▸ hc)).2⟩
  have hfail : verifyFailed same verify m₃.channels.length = some false :=
    verifyFailed_of_forall fun c hc =>
      swapDecision_own hrails hpair.bits_le (hn hF₁ ▸ hsame) (hn hF₄ ▸ hverify) c (hn hF₃ ▸ hc)
  -- every offset back to 0 V
  obtain ⟨m₇, h₇, hF₇⟩ := setChannelVoffset_framed env 0 1 (hF₄.getTraces.channels ▸ hch.isDb04) hzero
    hF₄.getTraces
  refine ⟨m₇, ?_, hF₇⟩
  simp only [AfeDbs.boot, bind_of_returned h₁, bind_of_returned hs, bind_of_returned h₃,
    bind_of_returned hm, bind_of_returned hpass, bind_of_returned hver, get_bind_apply, hfail,
    ofOption_some, pure_bind_apply, bind_of_returned h₇]
  rfl

/-- Booting twice: from clear ADCCTRL registers on routed hardware with paired channels and
rails apart, `boot` returns, and `boot` again returns keeping every channel's swap state and
every ADCCTRL copy, and writing no ADCCTRL register. -/
theorem boot_again_keeps_swaps (hroute : RoutedLevels env swapped d o level)
    (hpair : Paired m.channels d o swapped bits)
    (hrails : Rails level (env.voffsetDac (-3 / 2)) (env.voffsetDac (3 / 2)) bits m.channels.length)
    (hclear : ∀ db : Fin 4, m.adcctrl db = 0 ∧ adcctrlReg m.calls db = 0)
    (hwrite : ∀ calls, env.writeAdcctrl calls = .ok ())
    (hlen : m.channels.length ≤ m.offsetDacs.length) (hv : ∀ w ∈ m.offsetDacs, w.toNat ≤ 65535)
    (hlo : (env.voffsetDac (-3 / 2)).toNat ≤ 65535) (hhi : (env.voffsetDac (3 / 2)).toNat ≤ 65535)
    (hzero : (env.voffsetDac 0).toNat ≤ 65535) :
    ∃ m' m'', AfeDbs.boot env m = (m', .returned ()) ∧ AfeDbs.boot env m' = (m'', .returned ()) ∧
      m''.channels = m'.channels ∧ m''.adcctrl = m'.adcctrl ∧
      ∃ ws, m''.calls = m'.calls ++ ws ∧ ∀ db, writesTo (.adcctrl db) ws = [] := by
  obtain ⟨m', h', hB, -⟩ := boot_booted hroute hpair hrails hclear hwrite hlen hv hlo hhi hzero
  obtain ⟨m'', h'', hF⟩ := boot_of_booted hroute hpair hrails hB hlo hhi hzero
  exact ⟨m', m'', h', h'', hF.channels, hF.adcctrl, hF.calls⟩

end Boot

/-- Two channels of DB 0 sharing the ADC pair at offsets 0 and 1, with 14-bit ADCs, the ADCCTRL
copies clear and nothing yet called. -/
def swappedPair : AfeModule :=
  ⟨[⟨.db04 0 0 .bootState, 14, 10⟩, ⟨.db04 0 1 .bootState, 14, 10⟩], [0, 0], fun _ => 0, []⟩

/-- A 14-bit ADC reading a quarter of the DAC word, saturating at the top of its range. -/
def quarterLevel (_ : ℕ) (w : Word) : AdcWord :=
  UInt16.ofNat (min (w.toNat / 4) 16383)

/-- A board that swaps every pair: each channel reads one sample of the input routed to it at
the last write to that input's DAC; the low rail's word is 4000 and the high rail's 60000. -/
def swappingBoard : AfeEnv :=
  ⟨fun v => if v < 0 then 4000 else if 0 < v then 60000 else 32768,
    fun calls c => .ok [quarterLevel (routed (fun _ => true) (fun _ => 0) (fun c => c) calls c)
      ((writesTo (.dac (routed (fun _ => true) (fun _ => 0) (fun c => c) calls c)) calls).getLast?.getD 0)],
    fun _ => .ok ()⟩

theorem swappingBoard_routes :
    RoutedLevels swappingBoard (fun _ => true) (fun _ => 0) (fun c => c) quarterLevel :=
  fun _ _ _ hw => ⟨_, rfl, by simp, by simp, by simp [hw]⟩

theorem swappedPair_paired : Paired swappedPair.channels (fun _ => 0) (fun c => c) (fun _ => true) 14 := by
  refine ⟨fun c ch hch => ?_, by decide, by decide, by decide, by decide, by decide, by decide,
    by decide⟩
  rcases c with _ | _ | c <;> simp [swappedPair] at hch <;> subst hch <;> exact ⟨rfl, rfl⟩

theorem swappingBoard_rail_words : swappingBoard.voffsetDac (-3 / 2) = 4000 ∧
    swappingBoard.voffsetDac (3 / 2) = 60000 ∧ swappingBoard.voffsetDac 0 = 32768 := by
  norm_num [swappingBoard]

theorem swappingBoard_rails : Rails quarterLevel (swappingBoard.voffsetDac (-3 / 2))
    (swappingBoard.voffsetDac (3 / 2)) 14 swappedPair.channels.length := by
  have hrange : defaultRange 14 = 81 := by norm_num [defaultRange, Int.floor_eq_iff]
  rw [swappingBoard_rail_words.1, swappingBoard_rail_words.2.1]
  refine ⟨fun _ w => ?_, by rw [hrange]; decide, by rw [hrange]; decide⟩
  show min (w.toNat / 4) 16383 % 2 ^ 16 < 2 ^ 14
  omega

theorem swappingBoard_words : (swappingBoard.voffsetDac (-3 / 2)).toNat ≤ 65535 ∧
    (swappingBoard.voffsetDac (3 / 2)).toNat ≤ 65535 ∧ (swappingBoard.voffsetDac 0).toNat ≤ 65535 := by
  rw [swappingBoard_rail_words.1, swappingBoard_rail_words.2.1, swappingBoard_rail_words.2.2]
  decide

theorem boot_finds_swapped_pairs_on_swappingBoard :
    RoutedLevels swappingBoard (fun _ => true) (fun _ => 0) (fun c => c) quarterLevel ∧
      Paired swappedPair.channels (fun _ => 0) (fun c => c) (fun _ => true) 14 ∧
      Rails quarterLevel (swappingBoard.voffsetDac (-3 / 2)) (swappingBoard.voffsetDac (3 / 2)) 14
        swappedPair.channels.length ∧
      (∀ db : Fin 4, swappedPair.adcctrl db = 0 ∧ adcctrlReg swappedPair.calls db = 0) ∧
      (∀ calls, swappingBoard.writeAdcctrl calls = .ok ()) ∧
      swappedPair.channels.length ≤ swappedPair.offsetDacs.length ∧
      (∀ w ∈ swappedPair.offsetDacs, w.toNat ≤ 65535) ∧
      (swappingBoard.voffsetDac (-3 / 2)).toNat ≤ 65535 ∧
      (swappingBoard.voffsetDac (3 / 2)).toNat ≤ 65535 ∧ (swappingBoard.voffsetDac 0).toNat ≤ 65535 ∧
      ∃ m', AfeDbs.boot swappingBoard swappedPair = (m', .returned ()) ∧
        (∀ c < swappedPair.channels.length,
          (m'.channels[c]?).map (·.fixture) = some (.db04 0 c (swapState true)) ∧
          routed (fun _ => true) (fun _ => 0) (fun c => c) m'.calls c = c ∧
          (writesTo (.dac c) m'.calls).getLast? = some (swappingBoard.voffsetDac 0)) ∧
        ∀ db : Fin 4, adcctrlReg m'.calls db = m'.adcctrl db :=
  ⟨swappingBoard_routes, swappedPair_paired, swappingBoard_rails, fun _ => ⟨rfl, rfl⟩, fun _ => rfl,
    by decide, by decide, swappingBoard_words.1, swappingBoard_words.2.1, swappingBoard_words.2.2,
    boot_finds_swapped_pairs swappingBoard_routes swappedPair_paired swappingBoard_rails
      (fun _ => ⟨rfl, rfl⟩) (fun _ => rfl) (by decide) (by decide) swappingBoard_words.1
      swappingBoard_words.2.1 swappingBoard_words.2.2⟩

theorem boot_again_keeps_swaps_on_swappingBoard :
    RoutedLevels swappingBoard (fun _ => true) (fun _ => 0) (fun c => c) quarterLevel ∧
      Paired swappedPair.channels (fun _ => 0) (fun c => c) (fun _ => true) 14 ∧
      Rails quarterLevel (swappingBoard.voffsetDac (-3 / 2)) (swappingBoard.voffsetDac (3 / 2)) 14
        swappedPair.channels.length ∧
      (∀ db : Fin 4, swappedPair.adcctrl db = 0 ∧ adcctrlReg swappedPair.calls db = 0) ∧
      (∀ calls, swappingBoard.writeAdcctrl calls = .ok ()) ∧
      swappedPair.channels.length ≤ swappedPair.offsetDacs.length ∧
      (∀ w ∈ swappedPair.offsetDacs, w.toNat ≤ 65535) ∧
      (swappingBoard.voffsetDac (-3 / 2)).toNat ≤ 65535 ∧
      (swappingBoard.voffsetDac (3 / 2)).toNat ≤ 65535 ∧ (swappingBoard.voffsetDac 0).toNat ≤ 65535 ∧
      ∃ m' m'', AfeDbs.boot swappingBoard swappedPair = (m', .returned ()) ∧
        AfeDbs.boot swappingBoard m' = (m'', .returned ()) ∧
        m''.channels = m'.channels ∧ m''.adcctrl = m'.adcctrl ∧
        ∃ ws, m''.calls = m'.calls ++ ws ∧ ∀ db, writesTo (.adcctrl db) ws = [] :=
  ⟨swappingBoard_routes, swappedPair_paired, swappingBoard_rails, fun _ => ⟨rfl, rfl⟩, fun _ => rfl,
    by decide, by decide, swappingBoard_words.1, swappingBoard_words.2.1, swappingBoard_words.2.2,
    boot_again_keeps_swaps swappingBoard_routes swappedPair_paired swappingBoard_rails
      (fun _ => ⟨rfl, rfl⟩) (fun _ => rfl) (by decide) (by decide) swappingBoard_words.1
      swappingBoard_words.2.1 swappingBoard_words.2.2⟩

/-! ### A failed verification

A board whose input 1 reads 14000 codes above input 0, so that its low rail reads where input
0's high rail does. `boot` flags the swapped pair and sets its bit, but the verifying capture
reads channel 0 at its own high rail where the first capture read its partner's low rail, and
the verification fails. -/

/-- A 14-bit ADC reading a quarter of the DAC word, input `r` raised by `14000 r`, saturating. -/
def raisedLevel (r : ℕ) (w : Word) : AdcWord :=
  UInt16.ofNat (min (w.toNat / 4 + 14000 * r) 16383)

/-- `swappingBoard` with the levels of `raisedLevel`. -/
def raisedBoard : AfeEnv :=
  ⟨swappingBoard.voffsetDac,
    fun calls c => .ok [raisedLevel (routed (fun _ => true) (fun _ => 0) (fun c => c) calls c)
      ((writesTo (.dac (routed (fun _ => true) (fun _ => 0) (fun c => c) calls c)) calls).getLast?.getD 0)],
    fun _ => .ok ()⟩

theorem raisedBoard_routes :
    RoutedLevels raisedBoard (fun _ => true) (fun _ => 0) (fun c => c) raisedLevel :=
  fun _ _ _ hw => ⟨_, rfl, by simp, by simp, by simp [hw]⟩

theorem raisedLevel_fit (r : ℕ) (w : Word) : (raisedLevel r w).toNat < 2 ^ 14 := by
  show min (w.toNat / 4 + 14000 * r) 16383 % 2 ^ 16 < 2 ^ 14
  omega

theorem swapDecision_raised {same other : List ChannelBaseline} {b₀ b₁ o₀ o₁ : ChannelBaseline}
    (hb₀ : same[0]? = some b₀) (hb₁ : same[1]? = some b₁) (ho₀ : other[0]? = some o₀)
    (ho₁ : other[1]? = some o₁) (hl₀ : b₀.baseline = 15000) (hl₀' : o₀.baseline = 15000)
    (hl₁ : b₁.baseline = 1000) (hl₁' : o₁.baseline = 15000) (hR : b₁.noiseRange = 81) :
    ∀ c < 2, swapDecision same other c = some true := by
  have hint : intMin ≤ 15000 - 81 ∧ (15000 : ℤ) + 81 ≤ intMax := by decide
  intro c hc
  obtain rfl | rfl : c = 0 ∨ c = 1 := by omega
  · rw [swapDecision_even rfl hb₀ ho₀, hl₀, hl₀']
    decide
  · rw [swapDecision_odd rfl hb₁ ho₁ (by rw [hR]; decide) (by rw [hl₁', hR]; exact hint.1)
      (by rw [hl₁', hR]; exact hint.2), hl₁, hl₁', hR]
    decide

theorem bootChecks_raisedBoard :
    ∃ m₁, bootChecks raisedBoard swappedPair = (m₁, .returned true) ∧
      (setChannelVoffset raisedBoard 0 1 m₁).2 = .returned () ∧ m₁.channels.length = 2 := by
  have hw := swappingBoard_words
  have hlo : raisedBoard.voffsetDac (-3 / 2) = 4000 := swappingBoard_rail_words.1
  have hhi : raisedBoard.voffsetDac (3 / 2) = 60000 := swappingBoard_rail_words.2.1
  have hrange : defaultRange 14 = 81 := by norm_num [defaultRange, Int.floor_eq_iff]
  have hl : (raisedLevel 1 4000).toNat = 15000 ∧ (raisedLevel 0 60000).toNat = 15000 ∧
      (raisedLevel 0 4000).toNat = 1000 := by decide
  have hin : boardInput (fun _ => true) 0 = 1 ∧ boardInput (fun _ => true) 1 = 0 := ⟨rfl, rfl⟩
  have hmv : movedRail 4000 60000 0 = 60000 ∧ movedRail 4000 60000 1 = 4000 := ⟨rfl, rfl⟩
  obtain ⟨m₁, same, m₃, moved, h₁, hs, h₃, hm, hF₃, hw₃, hsame, hmoved⟩ :=
    rails_captured raisedBoard_routes swappedPair_paired raisedLevel_fit (fun _ => ⟨rfl, rfl⟩)
      (by decide) (by decide) hw.1 hw.2.1
  have hF₄ := hF₃.getTraces
  -- the rails' captures: each channel reads its partner's input
  obtain ⟨b₀, hb₀, hbl₀, -⟩ := hsame 0 (by decide)
  obtain ⟨b₁, hb₁, hbl₁, hR₁⟩ := hsame 1 (by decide)
  obtain ⟨o₀, ho₀, hol₀, -⟩ := hmoved 0 (by decide)
  obtain ⟨o₁, ho₁, hol₁, -⟩ := hmoved 1 (by decide)
  simp only [hin.1, hin.2, hmv.1, hmv.2, hlo, hhi, hl.1, hl.2.1, hl.2.2] at hbl₀ hbl₁ hol₀ hol₁
  obtain ⟨m₅, h₅, hdone⟩ := swapPass_done (fun calls => show raisedBoard.writeAdcctrl calls = .ok () from rfl)
    (hF₄.channels ▸ swappedPair_paired)
    (fun db => ⟨by rw [hF₄.adcctrl]; rfl, by rw [hF₄.adcctrlReg]; rfl⟩)
    fun c hc => swapDecision_raised hb₀ hb₁ ho₀ ho₁ hbl₀ hol₀ hbl₁ hol₁ (hR₁.trans hrange) c
      (by rw [hF₄.channels] at hc; exact hc)
  obtain ⟨ws, hws, hwsdac⟩ := hdone.calls
  have hlen₅ : m₅.channels.length = 2 := hdone.length.trans (by rw [hF₄.channels]; rfl)
  -- the verifying capture: each channel reads its own input
  obtain ⟨verify, hver, hverify⟩ := analyzeChannelBaselines_routed raisedBoard_routes
    (hdone.db04Channels (hF₄.channels ▸ swappedPair_paired.db04Channels)) (by decide)
    raisedLevel_fit (r := id) (w := movedRail (raisedBoard.voffsetDac (-3 / 2)) (raisedBoard.voffsetDac (3 / 2)))
    fun c hc => ⟨hdone.routed (hF₄.channels ▸ swappedPair_paired) (hdone.length ▸ hc), by
      rw [hws, writesTo_append, hwsdac, List.append_nil, writesTo_append, writesTo_getTraces,
        List.append_nil]
      exact hw₃ c (hdone.length.trans (by rw [hF₄.channels]) ▸ hc)⟩
  obtain ⟨v₀, hv₀, hvl₀, -⟩ := hverify 0 (by rw [hlen₅]; decide)
  obtain ⟨v₁, hv₁, hvl₁, -⟩ := hverify 1 (by rw [hlen₅]; decide)
  simp only [id, hmv.1, hmv.2, hlo, hhi, hl.2.1, hl.1] at hvl₀ hvl₁
  have hd := swapDecision_raised hb₀ hb₁ hv₀ hv₁ hbl₀ hvl₀ hbl₁ hvl₁ (hR₁.trans hrange)
  have hfail : verifyFailed same verify m₅.channels.length = some true := by
    rw [hlen₅, verifyFailed, show List.range 2 = [0, 1] from rfl, List.foldlM_cons, hd 0 (by decide)]
    simp [hd 1 (by decide)]
  -- back to 0 V
  obtain ⟨m₇, h₇, -⟩ := setChannelVoffset_framed raisedBoard 0 1
    (M := { m₅ with calls := m₅.calls ++ [.getTraces] }) (m := { m₅ with calls := m₅.calls ++ [.getTraces] })
    (hdone.db04Channels (hF₄.channels ▸ swappedPair_paired.db04Channels)).isDb04 hw.2.2
    (Framed.refl (by simpa [hdone.offsetDacs, hlen₅] using hF₄.offsetDacs_length)
      (by simpa [hdone.offsetDacs] using hF₄.offsetDacs_fit))
  refine ⟨{ m₅ with calls := m₅.calls ++ [.getTraces] }, ?_, by rw [h₇], hlen₅⟩
  simp only [bootChecks, bind_of_returned h₁, bind_of_returned hs, bind_of_returned h₃,
    bind_of_returned hm, bind_of_returned h₅, bind_of_returned hver, get_bind_apply, hfail,
    ofOption_some]
  rfl

/-! ### Back to 0 V -/

/-- Once its checks have run, `boot` puts every channel back to 0 V: when the restore goes through,
each OffsetDAC variable and last DAC write is the 0 V word, and `boot` throws "DB AE ADC swap
failure" exactly when the verification failed. -/
theorem boot_restores_zero_volts (env : AfeEnv) {m m₁ : AfeModule} {failed : Bool}
    (hchecks : bootChecks env m = (m₁, .returned failed))
    (hrestore : (setChannelVoffset env 0 1 m₁).2 = .returned ()) :
    (AfeDbs.boot env m).2 =
        (if failed then .threw (.pixie .moduleInitializeFailure "DB AE ADC swap failure")
        else .returned ()) ∧
      ∀ chan < m₁.channels.length,
        (AfeDbs.boot env m).1.offsetDacs[chan]? = some (env.voffsetDac 0) ∧
          (writesTo (.dac chan) (AfeDbs.boot env m).1.calls).getLast? = some (env.voffsetDac 0) := by
  obtain ⟨m', hm'⟩ : ∃ m', setChannelVoffset env 0 1 m₁ = (m', .returned ()) :=
    ⟨_, Prod.ext rfl hrestore⟩
  have hboot : AfeDbs.boot env m = (m', if failed then
      .threw (.pixie .moduleInitializeFailure "DB AE ADC swap failure") else .returned ()) := by
    rw [boot_eq_bootChecks, bind_of_returned hchecks, bind_of_returned hm']
    cases failed <;> rfl
  rw [hboot]
  exact ⟨rfl, (setChannelVoffset_one_returned hm').2⟩

theorem boot_restores_zero_volts_on_raisedBoard :
    ∃ m₁, bootChecks raisedBoard swappedPair = (m₁, .returned true) ∧
      (setChannelVoffset raisedBoard 0 1 m₁).2 = .returned () ∧ m₁.channels.length = 2 ∧
      (AfeDbs.boot raisedBoard swappedPair).2 =
        .threw (.pixie .moduleInitializeFailure "DB AE ADC swap failure") ∧
      ∀ chan < 2, (AfeDbs.boot raisedBoard swappedPair).1.offsetDacs[chan]? =
          some (raisedBoard.voffsetDac 0) ∧
        (writesTo (.dac chan) (AfeDbs.boot raisedBoard swappedPair).1.calls).getLast? =
          some (raisedBoard.voffsetDac 0) := by
  obtain ⟨m₁, hchecks, hrestore, hlen⟩ := bootChecks_raisedBoard
  have h := boot_restores_zero_volts raisedBoard hchecks hrestore
  exact ⟨m₁, hchecks, hrestore, hlen, h.1, fun chan hc => h.2 chan (hlen ▸ hc)⟩

end PixieSdk
