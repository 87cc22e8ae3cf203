import PixieSdk.Afe.State

/-! # The ADC capture of a DB channel at DSP level

`db::acquire_adc` runs the DSP's get-traces control task for one channel. A `userin_save`
scope saves the DSP's UserIn words, stores the channel's DB number and offset there for the
task, and its destructor writes the saved words back, on a throw as on a return. The channel's
trace is then read from the DSP's I/O buffer, `max_adc_trace_length / 2` words, each unpacked
into two 16-bit samples, low half first. `afe_dbs::get_traces` does this for every channel in
turn. The fixture model takes the traces a capture reads as `AfeEnv.acquire`; this module is
the level below it.

The main results: `get_traces` leaves the UserIn words as it found them on every exit, whatever
the control task does, and every returned trace has the configured length; and the unpacking
reads each word as the DSP packs two samples, losing nothing. -/

namespace PixieSdk

namespace Dsp

/-- The DSP's data memory, a word at each address. -/
abbrev Memory := ℕ → Word

/-- What a capture depends on outside the sources: the UserIn address, the I/O buffer address
(`hw::memory::IO_BUFFER_ADDR`) and the get-traces control task (`hw::run::control_run_on_dsp`),
which may change the DSP memory and may throw. -/
structure Env where
  userIn : ℕ
  ioBuffer : ℕ
  controlTask : Memory → Memory × Except Exception Unit

/-- `userin_save` around the control task of `db::acquire_adc` (`hw::memory::dsp` is not part of the
sources): UserIn[0..1] hold `db_index` and `db_channel` for the task and are restored whether it
returned or threw. -/
def withUserIn (env : Env) (dbIndex dbChannel : Word) (mem : Memory) : Memory × Except Exception Unit :=
  let saved₀ := mem env.userIn
  let saved₁ := mem (env.userIn + 1)
  let ran := env.controlTask (Function.update (Function.update mem env.userIn dbIndex) (env.userIn + 1) dbChannel)
  (Function.update (Function.update ran.1 env.userIn saved₀) (env.userIn + 1) saved₁, ran.2)

/-- The low sample of a DSP word, `adc_word(w & 0xffff)`. -/
def lowSample (w : Word) : AdcWord :=
  (w &&& 0xffff).toUInt16

/-- The high sample of a DSP word, `adc_word((w >> 16) & 0xffff)`. -/
def highSample (w : Word) : AdcWord :=
  ((w >>> (16 : Word)) &&& 0xffff).toUInt16

/-- The unpacking loop of `db::acquire_adc`: each word gives its low, then its high sample. -/
def unpack (words : List Word) : List AdcWord :=
  words.flatMap fun w => [lowSample w, highSample w]

/-- `std::vector::resize(size)`: kept up to `size`, zero-filled past the old end. -/
def resize (trace : List AdcWord) (size : ℕ) : List AdcWord :=
  trace.take size ++ List.replicate (size - trace.length) 0

/-- `db::acquire_adc`: the control task under `userin_save`, then `size / 2` words of the I/O buffer
read into 8192 words (more is undefined) and unpacked over the resized trace. -/
def acquireAdc (env : Env) (number offset : ℤ) (size : ℕ) (trace : List AdcWord) (mem : Memory) :
    Memory × Exit (List AdcWord) :=
  match withUserIn env (wordOfInt number) (wordOfInt offset) mem with
  | (mem', .error e) => (mem', .threw e)
  | (mem', .ok ()) =>
    if 8192 < size / 2 then (mem', .undefined)
    else (mem', .returned (unpack ((List.range (size / 2)).map fun w => mem' (env.ioBuffer + w)) ++
      (resize trace size).drop (2 * (size / 2))))

/-- A channel as the capture sees it: its fixture, its configuration's `max_adc_trace_length`,
and its `adc_trace`. -/
structure Channel where
  fixture : Fixture
  traceLength : ℕ
  adcTrace : List AdcWord

/-- `afe_dbs::get_traces` at DSP level: each channel's fixture acquires in turn, the motherboard
default throwing. The channels and the DSP memory as the loop leaves them, on every exit. -/
def getTraces (env : Env) : List Channel → Memory → List Channel × Memory × Exit Unit
  | [], mem => ([], mem, .returned ())
  | ch :: chs, mem =>
    match ch.fixture with
    | .motherboard => (ch :: chs, mem, .threw (unsupportedOp "ADC acquire is using the DSP"))
    | .db04 number offset _ =>
      match acquireAdc env number offset ch.traceLength ch.adcTrace mem with
      | (mem', .returned trace) =>
        let rest := getTraces env chs mem'
        ({ ch with adcTrace := trace } :: rest.1, rest.2.1, rest.2.2)
      | (mem', .threw e) => (ch :: chs, mem', .threw e)
      | (mem', .terminated) => (ch :: chs, mem', .terminated)
      | (mem', .undefined) => (ch :: chs, mem', .undefined)

/-! ### The UserIn words -/

theorem withUserIn_userIn (env : Env) (dbIndex dbChannel : Word) (mem : Memory) :
    (withUserIn env dbIndex dbChannel mem).1 env.userIn = mem env.userIn ∧
      (withUserIn env dbIndex dbChannel mem).1 (env.userIn + 1) = mem (env.userIn + 1) := by
  simp [withUserIn, Function.update_apply]

theorem acquireAdc_userIn (env : Env) (number offset : ℤ) (size : ℕ) (trace : List AdcWord)
    (mem : Memory) :
    (acquireAdc env number offset size trace mem).1 env.userIn = mem env.userIn ∧
      (acquireAdc env number offset size trace mem).1 (env.userIn + 1) = mem (env.userIn + 1) := by
  have h := withUserIn_userIn env (wordOfInt number) (wordOfInt offset) mem
  unfold acquireAdc
  rcases hw : withUserIn env (wordOfInt number) (wordOfInt offset) mem with ⟨mem', _ | ⟨⟩⟩
  all_goals rw [hw] at h
  · exact h
  · dsimp only
    split_ifs <;> exact h

/-- `afe_dbs::get_traces` leaves the DSP's UserIn words as it found them on every exit: a
control task that throws or changes them, or a motherboard channel that stops the loop, leaves
them restored. -/
theorem getTraces_userIn (env : Env) :
    ∀ (chs : List Channel) (mem : Memory),
      (getTraces env chs mem).2.1 env.userIn = mem env.userIn ∧
        (getTraces env chs mem).2.1 (env.userIn + 1) = mem (env.userIn + 1)
  | [], mem => ⟨rfl, rfl⟩
  | ch :: chs, mem => by
    unfold getTraces
    rcases ch with ⟨_ | ⟨number, offset, _⟩, size, trace⟩
    · exact ⟨rfl, rfl⟩
    dsimp only
    have h := acquireAdc_userIn env number offset size trace mem
    rcases hacq : acquireAdc env number offset size trace mem with ⟨mem', _ | _ | _ | _⟩
    case returned t =>
      rw [hacq] at h
      have ih := getTraces_userIn env chs mem'
      exact ⟨ih.1.trans h.1, ih.2.trans h.2⟩
    all_goals rw [hacq] at h; exact h

/-! ### Returned traces -/

theorem length_unpack (words : List Word) : (unpack words).length = 2 * words.length := by
  induction words with
  | nil => rfl
  | cons w words ih => simp [unpack, List.flatMap_cons] at ih ⊢; omega

theorem length_resize (trace : List AdcWord) (size : ℕ) : (resize trace size).length = size := by
  simp only [resize, List.length_append, List.length_take, List.length_replicate]
  omega

theorem acquireAdc_length {env : Env} {number offset : ℤ} {size : ℕ} {trace t : List AdcWord}
    {mem mem' : Memory} (h : acquireAdc env number offset size trace mem = (mem', .returned t)) :
    t.length = size := by
  unfold acquireAdc at h
  rcases hw : withUserIn env (wordOfInt number) (wordOfInt offset) mem with ⟨_, _ | ⟨⟩⟩
  all_goals rw [hw] at h
  · cases h
  · dsimp only at h
    split_ifs at h
    · simp at h
    simp only [Prod.mk.injEq, Exit.returned.injEq] at h
    rw [← h.2, List.length_append, length_unpack, List.length_map, List.length_range,
      List.length_drop, length_resize]
    omega

theorem getTraces_returned (env : Env) :
    ∀ {chs chs' : List Channel} {mem mem' : Memory}, getTraces env chs mem = (chs', mem', .returned ()) →
      chs'.map (fun ch => (ch.fixture, ch.traceLength)) = chs.map (fun ch => (ch.fixture, ch.traceLength)) ∧
        ∀ ch ∈ chs', ch.adcTrace.length = ch.traceLength
  | [], _, _, _, h => by
    simp only [getTraces, Prod.mk.injEq] at h
    obtain ⟨rfl, -⟩ := h
    simp
  | ch :: chs, chs', mem, mem', h => by
    unfold getTraces at h
    rcases ch with ⟨_ | ⟨number, offset, _⟩, size, trace⟩
    · simp at h
    dsimp only at h
    rcases hacq : acquireAdc env number offset size trace mem with ⟨mem₁, _ | _ | _ | _⟩
    case returned t =>
      rw [hacq] at h
      simp only [Prod.mk.injEq] at h
      obtain ⟨rfl, h₁, h₂⟩ := h
      obtain ⟨ih₁, ih₂⟩ := getTraces_returned env (Prod.ext rfl (Prod.ext h₁ h₂))
      refine ⟨by simp only [List.map_cons, ih₁], ?_⟩
      rintro c (_ | ⟨_, hc⟩)
      exacts [acquireAdc_length hacq, ih₂ c hc]
    all_goals rw [hacq] at h; simp at h

/-! ### Packing and unpacking samples -/

/-- Two samples in one DSP word, low half first, as the DSP's I/O buffer holds them. -/
def pack (lo hi : AdcWord) : Word :=
  lo.toUInt32 ||| hi.toUInt32 <<< (16 : Word)

/-- The words of a trace, two samples a word (an odd last sample is left out). -/
def packTrace : List AdcWord → List Word
  | lo :: hi :: rest => pack lo hi :: packTrace rest
  | _ => []

theorem toNat_toUInt16 (w : Word) : w.toUInt16.toNat = w.toNat % 2 ^ 16 :=
  BitVec.toNat_ofNat _ _

theorem toNat_pack (lo hi : AdcWord) : (pack lo hi).toNat = hi.toNat * 2 ^ 16 + lo.toNat := by
  have hlo := lo.toNat_lt_size
  have hhi := hi.toNat_lt_size
  simp only [UInt16.size] at hlo hhi
  rw [pack, toNat_word_or, Nat.lor_comm, toNat_shiftLeft_16, show hi.toUInt32.toNat = hi.toNat from rfl,
    show lo.toUInt32.toNat = lo.toNat from rfl, Nat.mod_eq_of_lt (by omega), mul_two_pow_or 16 hlo]

theorem lowSample_pack (lo hi : AdcWord) : lowSample (pack lo hi) = lo := by
  refine UInt16.toNat.inj ?_
  have hlo := lo.toNat_lt_size
  simp only [UInt16.size] at hlo
  rw [lowSample, toNat_toUInt16, show (0xffff : Word) = UInt32.ofNat (2 ^ 16 - 1) from rfl,
    toNat_and_mask _ 16 (by norm_num), toNat_pack]
  omega

theorem highSample_pack (lo hi : AdcWord) : highSample (pack lo hi) = hi := by
  refine UInt16.toNat.inj ?_
  have hlo := lo.toNat_lt_size
  have hhi := hi.toNat_lt_size
  simp only [UInt16.size] at hlo hhi
  rw [highSample, toNat_toUInt16, show (0xffff : Word) = UInt32.ofNat (2 ^ 16 - 1) from rfl,
    toNat_and_mask _ 16 (by norm_num), toNat_shiftRight_16, toNat_pack]
  omega

theorem pack_samples (w : Word) : pack (lowSample w) (highSample w) = w := by
  refine UInt32.toNat.inj ?_
  have hw := w.toNat_lt_size
  simp only [UInt32.size] at hw
  rw [toNat_pack, lowSample, highSample, toNat_toUInt16, toNat_toUInt16,
    show (0xffff : Word) = UInt32.ofNat (2 ^ 16 - 1) from rfl, toNat_and_mask _ 16 (by norm_num),
    toNat_and_mask _ 16 (by norm_num), toNat_shiftRight_16]
  omega

/-- The unpacking of `db::acquire_adc` reads each word as the DSP packs two samples and loses
nothing: unpacking then packing gives back the words, and packing a trace of even length then
unpacking gives back the trace. -/
theorem packTrace_unpack_roundtrip :
    (∀ words : List Word, packTrace (unpack words) = words) ∧
      ∀ trace : List AdcWord, Even trace.length → unpack (packTrace trace) = trace := by
  constructor
  · intro words
    induction words with
    | nil => rfl
    | cons w words ih =>
      simp only [unpack, List.flatMap_cons, List.cons_append, List.singleton_append] at ih ⊢
      rw [packTrace, pack_samples, List.nil_append, ih]
  · intro trace
    induction trace using packTrace.induct with
    | case1 lo hi rest ih =>
      intro he
      simp only [List.length_cons, Nat.even_add_one, not_not] at he
      simp only [packTrace, unpack, List.flatMap_cons, lowSample_pack, highSample_pack] at ih ⊢
      rw [ih he]
      rfl
    | case2 trace hne =>
      intro he
      match trace, hne with
      | [], _ => rfl
      | [_], _ => simp at he
      | _ :: _ :: _, h => exact absurd rfl (h _ _ _)

end Dsp

end PixieSdk
