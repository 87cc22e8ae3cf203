import PixieSdk.Config.RoundTrip
import PixieSdk.Sim.ModuleDefs

/-! # Variable defaults of a simulated module

`sim::module::load_var_defaults` reads the variable defaults file a module definition names.
A line `label=value` sets word 0 of the variable `label` names and marks it dirty; for a
channel variable it does so on every channel. A `#` starts a comment and a value ends at a
`(`. `util::trim` and `util::split` live in `util.cpp`, which is not in the sources, so both
are parameters here, and no theorem assumes anything of them.

A defaults file means an assignment: a variable takes the number of the last line naming it
(`defaultOf`). The loader returns exactly when every line naming a variable gives a number
(`loadVarDefaults_returns_iff`); it then carries the assignment out, for module variables and
for the channels of channel variables, and it never writes anything but those words. -/

namespace PixieSdk

namespace Module

/-- Word `offset` of module variable `var` in the cache. -/
def moduleWord (m : Module) (var offset : ℕ) : Option Cell :=
  m.moduleVars[var]?.bind (·[offset]?)

/-- Word `offset` of channel variable `var` of channel `ch` in the cache. -/
def channelWord (m : Module) (ch var offset : ℕ) : Option Cell :=
  m.channels[ch]?.bind fun vars => vars[var]?.bind (·[offset]?)

theorem word_writeCell (vars : List (List Cell)) (var offset : ℕ) (w : Word) (var' offset' : ℕ) :
    (writeCell vars var offset w)[var']?.bind (·[offset']?) =
      if var = var' ∧ offset = offset' then (vars[var']?.bind (·[offset']?)).map fun _ => ⟨w, true⟩
      else vars[var']?.bind (·[offset']?) := by
  rcases eq_or_ne var var' with rfl | hv
  · rcases eq_or_ne offset offset' with rfl | ho <;>
      cases h : vars[var]? <;> simp [writeCell, List.getElem?_modify, h, *]
  · simp [writeCell, List.getElem?_modify, hv]

@[simp] theorem moduleWord_setModuleVar (m : Module) (var offset : ℕ) (w : Word) (var' offset' : ℕ) :
    (m.setModuleVar var offset w).moduleWord var' offset' =
      if var = var' ∧ offset = offset' then (m.moduleWord var' offset').map fun _ => ⟨w, true⟩
      else m.moduleWord var' offset' :=
  word_writeCell _ _ _ _ _ _

@[simp] theorem moduleWord_setChannelVar (m : Module) (ch var offset : ℕ) (w : Word) (var' offset' : ℕ) :
    (m.setChannelVar ch var offset w).moduleWord var' offset' = m.moduleWord var' offset' :=
  rfl

@[simp] theorem channelWord_setModuleVar (m : Module) (var offset : ℕ) (w : Word) (ch' var' offset' : ℕ) :
    (m.setModuleVar var offset w).channelWord ch' var' offset' = m.channelWord ch' var' offset' :=
  rfl

@[simp] theorem channelWord_setChannelVar (m : Module) (ch var offset : ℕ) (w : Word)
    (ch' var' offset' : ℕ) :
    (m.setChannelVar ch var offset w).channelWord ch' var' offset' =
      if ch = ch' ∧ var = var' ∧ offset = offset' then
        (m.channelWord ch' var' offset').map fun _ => ⟨w, true⟩
      else m.channelWord ch' var' offset' := by
  rcases eq_or_ne ch ch' with rfl | hc
  · cases h : m.channels[ch]? <;>
      simp [channelWord, setChannelVar, List.getElem?_modify, h, word_writeCell]
  · simp [channelWord, setChannelVar, List.getElem?_modify, hc]

end Module

namespace VarDescs

theorem eq_of_lookup_eq {t : VarDescs} {a b : String} (ha : t.isVar a) (hb : t.isVar b)
    (h : t.lookup a = t.lookup b) : a = b := by
  have named : ∀ {x}, t.isVar x → ∃ i, ∃ hi : i < t.descs.length, t.descs[i].name = x := by
    intro x hx
    obtain ⟨d, hd, hdx⟩ := List.any_eq_true.mp hx
    obtain ⟨i, hi, rfl⟩ := List.mem_iff_getElem.mp hd
    exact ⟨i, hi, by simpa using hdx⟩
  obtain ⟨i, hi, rfl⟩ := named ha
  obtain ⟨j, hj, rfl⟩ := named hb
  rw [lookup_name hi, lookup_name hj] at h
  subst h
  rfl

end VarDescs

namespace Sim

/-- `s.substr(0, s.find(c, 0))`: the text before the first `c`, all of it when there is none. -/
def before (s : String) (c : Char) : String :=
  ⟨s.data.takeWhile (· != c)⟩

/-- A cache word after a default is applied to it: the default's value, dirty, where there is
a default and the word exists. -/
def withDefault (c : Option Cell) : Option ℕ → Option Cell
  | some n => c.map fun _ => ⟨UInt32.ofNat n, true⟩
  | none => c

@[simp] theorem withDefault_none (c : Option Cell) : withDefault c none = c := rfl

theorem withDefault_withDefault (c : Option Cell) (a b : Option ℕ) :
    withDefault (withDefault c a) b = withDefault c (b.or a) := by
  cases b <;> cases a <;> cases c <;> rfl

section Load

variable (split : String → Char → List String) (trim : String → String)

/-- The label and value a line of a defaults file gives, if it gives one: the text before a
`#`, when it is not empty, trimmed and split at `=` into exactly two parts, with the value cut
at a `(`. -/
def entry (line : String) : Option (String × String) :=
  let line := before line '#'
  if line.isEmpty then none
  else
    match split (trim line) '=' with
    | [label, value] => some (label, before value '(')
    | _ => none

/-- The entries of a defaults file, in the order of its lines. -/
def entries (lines : List String) : List (String × String) :=
  lines.filterMap (entry split trim)

/-- The loop over `channel < num_channels` of `load_var_defaults`: word 0 of channel variable
`var` on each channel. -/
def setChannelDefault (m : Module) (var : ℕ) (value : Word) : Module :=
  (List.range m.numChannels).foldl (fun m' ch => m'.setChannelVar ch var 0 value) m

/-- The loop body of `load_var_defaults` for a label and a value: a module variable is looked up
first, then a channel variable, a name of neither ignored; `std::stoul` throws on a non-number, and
its result is narrowed to `param::value_type`. -/
def setDefault (m : Module) (label value : String) : Ran Module :=
  if m.moduleVarDescriptors.isVar label then
    match stoul value with
    | some n => (m.setModuleVar (m.moduleVarDescriptors.lookup label) 0 (UInt32.ofNat n), .ok ())
    | none => (m, .error .other)
  else if m.channelVarDescriptors.isVar label then
    match stoul value with
    | some n =>
      (setChannelDefault m (m.channelVarDescriptors.lookup label) (UInt32.ofNat n), .ok ())
    | none => (m, .error .other)
  else (m, .ok ())

/-- One line of `sim::module::load_var_defaults(std::istream&)`. -/
def loadVarDefault (m : Module) (line : String) : Ran Module :=
  match entry split trim line with
  | some (label, value) => setDefault m label value
  | none => (m, .ok ())

/-- `sim::module::load_var_defaults(std::istream&)`: the lines in order. An exception ends the
loop and keeps the words written before it. -/
def loadVarDefaults (m : Module) (lines : List String) : Ran Module :=
  forEach (loadVarDefault split trim) m lines

theorem loadVarDefaults_eq_entries (m : Module) (lines : List String) :
    loadVarDefaults split trim m lines =
      forEach (fun s (e : String × String) => setDefault s e.1 e.2) m (entries split trim lines) := by
  unfold loadVarDefaults entries
  induction lines generalizing m with
  | nil => rfl
  | cons line lines ih => cases h : entry split trim line <;> simp [forEach, loadVarDefault, h, ih]

/-! ### One entry -/

theorem writes_foldl_setChannelVar {m : Module} (var : ℕ) (w : Word) :
    ∀ (chs : List ℕ) {s : Module}, m.Writes s →
      m.Writes (chs.foldl (fun m' ch => m'.setChannelVar ch var 0 w) s)
  | [], _, h => h
  | ch :: chs, _, h => writes_foldl_setChannelVar var w chs (.channelVar ch var 0 w h)

theorem writes_setDefault {m s : Module} (h : m.Writes s) (label value : String) :
    m.Writes (setDefault s label value).1 := by
  unfold setDefault setChannelDefault
  split
  · split
    · exact .moduleVar _ _ _ h
    · exact h
  · split
    · split
      · exact writes_foldl_setChannelVar _ _ _ h
      · exact h
    · exact h

theorem setDefault_varsOnly (m : Module) (label value : String) :
    Module.VarsOnly m (setDefault m label value).1 :=
  (writes_setDefault .refl label value).varsOnly

theorem moduleWord_foldl_setChannelVar (var : ℕ) (w : Word) (var' offset' : ℕ) :
    ∀ (chs : List ℕ) (s : Module),
      (chs.foldl (fun m' ch => m'.setChannelVar ch var 0 w) s).moduleWord var' offset' =
        s.moduleWord var' offset'
  | [], _ => rfl
  | ch :: chs, s => by
    rw [List.foldl_cons, moduleWord_foldl_setChannelVar var w var' offset' chs]
    rfl

theorem channelWord_foldl_setChannelVar (var : ℕ) (w : Word) (ch' var' offset' : ℕ) :
    ∀ (chs : List ℕ) (s : Module),
      (chs.foldl (fun m' ch => m'.setChannelVar ch var 0 w) s).channelWord ch' var' offset' =
        if ch' ∈ chs ∧ var = var' ∧ offset' = 0 then
          (s.channelWord ch' var' offset').map fun _ => ⟨w, true⟩
        else s.channelWord ch' var' offset'
  | [], _ => by simp
  | ch :: chs, s => by
    rw [List.foldl_cons, channelWord_foldl_setChannelVar var w ch' var' offset' chs,
      Module.channelWord_setChannelVar]
    by_cases hw : var = var' ∧ offset' = 0
    · obtain ⟨rfl, rfl⟩ := hw
      rcases eq_or_ne ch ch' with rfl | hc
      · by_cases hm : ch ∈ chs <;> simp [hm, Option.map_map, Function.comp_def]
      · by_cases hm : ch' ∈ chs <;> simp [hc, hc.symm, hm]
    · have hw' : ¬ (var = var' ∧ 0 = offset') := fun h => hw ⟨h.1, h.2.symm⟩
      simp only [hw, hw', and_false, if_false]

/-- The number an entry writes into word `offset` of module variable `var`, if it writes one:
word 0 of the module variable it names. -/
def moduleEntry (m : Module) (var offset : ℕ) (e : String × String) : Option ℕ :=
  if offset = 0 ∧ m.moduleVarDescriptors.isVar e.1 ∧ m.moduleVarDescriptors.lookup e.1 = var then
    stoul e.2
  else none

/-- The number an entry writes into word `offset` of channel variable `var` of channel `ch`:
word 0 of the channel variable it names, on a channel below `num_channels`, when no module
variable has that name. -/
def channelEntry (m : Module) (ch var offset : ℕ) (e : String × String) : Option ℕ :=
  if offset = 0 ∧ ch < m.numChannels ∧ m.moduleVarDescriptors.isVar e.1 = false ∧
      m.channelVarDescriptors.isVar e.1 ∧ m.channelVarDescriptors.lookup e.1 = var then
    stoul e.2
  else none

theorem moduleWord_setDefault (m : Module) (label value : String) (var offset : ℕ) :
    (setDefault m label value).1.moduleWord var offset =
      withDefault (m.moduleWord var offset) (moduleEntry m var offset (label, value)) := by
  unfold setDefault
  by_cases hM : m.moduleVarDescriptors.isVar label
  · cases hn : stoul value with
    | none => simp [hM, moduleEntry, hn]
    | some n =>
      simp only [hM, if_true, Module.moduleWord_setModuleVar, moduleEntry, true_and, hn]
      by_cases hv : m.moduleVarDescriptors.lookup label = var ∧ offset = 0
      · rw [if_pos ⟨hv.1, hv.2.symm⟩, if_pos ⟨hv.2, hv.1⟩]
        rfl
      · rw [if_neg fun h => hv ⟨h.1, h.2.symm⟩, if_neg fun h => hv ⟨h.2, h.1⟩]
        rfl
  · have hE : moduleEntry m var offset (label, value) = none := by simp [moduleEntry, hM]
    simp only [hE, withDefault_none, hM, Bool.false_eq_true, if_false]
    split
    · split <;> simp [setChannelDefault, moduleWord_foldl_setChannelVar]
    · rfl

theorem channelWord_setDefault (m : Module) (label value : String) (ch var offset : ℕ) :
    (setDefault m label value).1.channelWord ch var offset =
      withDefault (m.channelWord ch var offset) (channelEntry m ch var offset (label, value)) := by
  unfold setDefault
  by_cases hM : m.moduleVarDescriptors.isVar label
  · have hE : channelEntry m ch var offset (label, value) = none := by simp [channelEntry, hM]
    simp only [hE, withDefault_none, hM, if_true]
    split <;> rfl
  · simp only [hM, Bool.false_eq_true, if_false]
    by_cases hC : m.channelVarDescriptors.isVar label
    · cases hn : stoul value with
      | none => simp [hC, channelEntry, hn]
      | some n =>
        simp only [hC, if_true, setChannelDefault, channelWord_foldl_setChannelVar, List.mem_range,
          channelEntry, hn, hM, Bool.not_eq_true, true_and]
        by_cases hv : ch < m.numChannels ∧ m.channelVarDescriptors.lookup label = var ∧ offset = 0
        · rw [if_pos hv, if_pos ⟨hv.2.2, hv.1, hv.2.1⟩]
          rfl
        · rw [if_neg hv, if_neg fun h => hv ⟨h.2.1, h.2.2, h.1⟩]
          rfl
    · simp [hC, channelEntry, hM]

theorem setDefault_ok_iff (m : Module) (label value : String) :
    (setDefault m label value).2 = .ok () ↔
      (m.moduleVarDescriptors.isVar label ∨ m.channelVarDescriptors.isVar label) →
        (stoul value).isSome := by
  unfold setDefault
  by_cases hM : m.moduleVarDescriptors.isVar label <;>
    by_cases hC : m.channelVarDescriptors.isVar label <;> cases stoul value <;> simp [hM, hC]

/-! ### A whole file -/

/-- The number a defaults file gives the variable `label`: that of the last entry naming it
that gives a number. When the loader returns, every entry naming a variable gives one. -/
def defaultOf (label : String) (es : List (String × String)) : Option ℕ :=
  (es.filterMap fun e => if e.1 = label then stoul e.2 else none).getLast?

theorem getLast?_filterMap_cons {α : Type} (g : α → Option ℕ) (a : α) (l : List α) :
    ((a :: l).filterMap g).getLast? = (l.filterMap g).getLast?.or (g a) := by
  rw [List.filterMap_cons]
  cases g a with
  | none => simp
  | some b => cases h : (l.filterMap g).getLast? <;> simp [List.getLast?_cons, h]

theorem word_forEach_setDefault (word : Module → Option Cell)
    (f : Module → String × String → Option ℕ)
    (hword : ∀ s (e : String × String), word (setDefault s e.1 e.2).1 = withDefault (word s) (f s e))
    (hf : ∀ s (e : String × String), f (setDefault s e.1 e.2).1 = f s) :
    ∀ (es : List (String × String)) {m m' : Module},
      forEach (fun s (e : String × String) => setDefault s e.1 e.2) m es = (m', .ok ()) →
        word m' = withDefault (word m) (es.filterMap (f m)).getLast?
  | [], _, _, h => by
    obtain ⟨rfl, -⟩ := Prod.mk.inj h
    rfl
  | e :: es, m, m', h => by
    rcases hs : setDefault m e.1 e.2 with ⟨s, r⟩
    cases r with
    | error x => rw [forEach_cons_error es hs] at h; cases h
    | ok u =>
      rw [forEach_cons_ok es hs] at h
      have hws : word s = withDefault (word m) (f m e) := by simpa [hs] using hword m e
      have hfs : f s = f m := by simpa [hs] using hf m e
      rw [word_forEach_setDefault word f hword hf es h, hfs, hws, withDefault_withDefault,
        getLast?_filterMap_cons]

theorem writes_loadVarDefaults (m : Module) (lines : List String) :
    m.Writes (loadVarDefaults split trim m lines).1 := by
  refine forEach_invariant m.Writes (fun s line hs => ?_) lines m .refl
  unfold loadVarDefault
  split
  · exact writes_setDefault hs _ _
  · exact hs

theorem word_loadVarDefaults_of_none (word : Module → Option Cell)
    (f : Module → String × String → Option ℕ)
    (hword : ∀ s (e : String × String), word (setDefault s e.1 e.2).1 = withDefault (word s) (f s e))
    {m : Module} (hnone : ∀ s, Module.VarsOnly m s → ∀ e, f s e = none) (lines : List String) :
    word (loadVarDefaults split trim m lines).1 = word m := by
  refine (forEach_invariant (fun s => Module.VarsOnly m s ∧ word s = word m) (fun s line hs => ?_)
    lines m ⟨.refl m, rfl⟩).2
  unfold loadVarDefault
  split
  · next label value _ =>
    exact ⟨hs.1.trans (setDefault_varsOnly s label value),
      by rw [hword s (label, value), hnone s hs.1, withDefault_none, hs.2]⟩
  · exact hs

theorem moduleEntry_lookup {m : Module} {label : String} (hL : m.moduleVarDescriptors.isVar label)
    (e : String × String) :
    moduleEntry m (m.moduleVarDescriptors.lookup label) 0 e =
      if e.1 = label then stoul e.2 else none := by
  by_cases he : e.1 = label
  · simp [moduleEntry, he, hL]
  · have hne : ¬ (m.moduleVarDescriptors.isVar e.1 ∧
        m.moduleVarDescriptors.lookup e.1 = m.moduleVarDescriptors.lookup label) :=
      fun h => he (VarDescs.eq_of_lookup_eq h.1 hL h.2)
    simp [moduleEntry, he, hne]

/-- `load_var_defaults` returns exactly when every line naming a module or channel variable
gives a value `std::stoul` reads. -/
theorem loadVarDefaults_returns_iff (m : Module) (lines : List String) :
    (loadVarDefaults split trim m lines).2 = .ok () ↔
      ∀ e ∈ entries split trim lines,
        (m.moduleVarDescriptors.isVar e.1 ∨ m.channelVarDescriptors.isVar e.1) →
          (stoul e.2).isSome := by
  rw [loadVarDefaults_eq_entries]
  induction entries split trim lines generalizing m with
  | nil => simp
  | cons e es ih =>
    rcases hs : setDefault m e.1 e.2 with ⟨s, r⟩
    have hstep := setDefault_ok_iff m e.1 e.2
    rw [hs] at hstep
    cases r with
    | error x =>
      rw [forEach_cons_error es hs]
      simp only [reduceCtorEq, false_iff, not_forall]
      exact ⟨e, List.mem_cons_self e es, by simpa using hstep⟩
    | ok u =>
      have ht := (setDefault_varsOnly m e.1 e.2).tables
      rw [hs] at ht
      rw [forEach_cons_ok es hs, ih s, List.forall_mem_cons, ht.1, ht.2.1]
      exact ⟨fun h => ⟨hstep.mp rfl, h⟩, And.right⟩

/-- A defaults file read to the end sets word 0 of each module variable to the number of the
last line naming it, dirty, and leaves it as it was if no line names it. -/
theorem loadVarDefaults_moduleVar {m m' : Module} {lines : List String} {label : String}
    (hrun : loadVarDefaults split trim m lines = (m', .ok ()))
    (hL : m.moduleVarDescriptors.isVar label) :
    m'.moduleWord (m.moduleVarDescriptors.lookup label) 0 =
      withDefault (m.moduleWord (m.moduleVarDescriptors.lookup label) 0)
        (defaultOf label (entries split trim lines)) := by
  rw [loadVarDefaults_eq_entries] at hrun
  rw [word_forEach_setDefault (fun s => s.moduleWord _ 0) (fun s => moduleEntry s _ 0)
    (fun s e => moduleWord_setDefault s e.1 e.2 _ 0)
    (fun s e => (setDefault_varsOnly s e.1 e.2).congr (fun s => moduleEntry s _ 0) fun _ _ => rfl)
    _ hrun, defaultOf, funext (moduleEntry_lookup hL)]

/-- A defaults file for `witnessModule`, with a comment line, a value annotated after a `(`, and
a second line for `ModCSRA`, which wins. Its lines carry no blanks around them, so any
`util::trim` leaves them as they are. -/
def witnessDefaultsLines : List String :=
  ["# defaults of a simulated module", "ModCSRA=4", "FastThresh=800 (counts)",
    "ModCSRA=5  # the last line wins"]

/-- `witnessModule` once `witnessDefaultsLines` is loaded. -/
def witnessDefaulted : Module :=
  { witnessModule with
    moduleVars := [[⟨5, true⟩], [⟨2, false⟩], [⟨1, false⟩, ⟨2, false⟩, ⟨3, false⟩, ⟨4, false⟩]]
    channels := [[[⟨800, true⟩]], [[⟨800, true⟩]]] }

theorem loadVarDefaults_witnessDefaultsLines :
    loadVarDefaults cut id witnessModule witnessDefaultsLines = (witnessDefaulted, .ok ()) := by
  decide

theorem loadVarDefaults_moduleVar_witnessModule :
    loadVarDefaults cut id witnessModule witnessDefaultsLines = (witnessDefaulted, .ok ()) ∧
      witnessModule.moduleVarDescriptors.isVar "ModCSRA" ∧
      witnessDefaulted.moduleWord (witnessModule.moduleVarDescriptors.lookup "ModCSRA") 0 =
        withDefault (witnessModule.moduleWord (witnessModule.moduleVarDescriptors.lookup "ModCSRA") 0)
          (defaultOf "ModCSRA" (entries cut id witnessDefaultsLines)) := by
  have hL : witnessModule.moduleVarDescriptors.isVar "ModCSRA" := by decide
  exact ⟨loadVarDefaults_witnessDefaultsLines, hL,
    loadVarDefaults_moduleVar cut id loadVarDefaults_witnessDefaultsLines hL⟩

/-- `load_var_defaults` writes nothing but variable caches and keeps their shape; in them it
writes only word 0, and on no channel at or above `num_channels`, whether it returns or
throws. -/
theorem loadVarDefaults_frame (m : Module) (lines : List String) :
    Module.VarsOnly m (loadVarDefaults split trim m lines).1 ∧
      (m.Shaped → (loadVarDefaults split trim m lines).1.Shaped) ∧
      (∀ var offset, offset ≠ 0 →
        (loadVarDefaults split trim m lines).1.moduleWord var offset = m.moduleWord var offset) ∧
      ∀ ch var offset, offset ≠ 0 ∨ m.numChannels ≤ ch →
        (loadVarDefaults split trim m lines).1.channelWord ch var offset =
          m.channelWord ch var offset := by
  have hw := writes_loadVarDefaults split trim m lines
  refine ⟨hw.varsOnly, hw.shaped, fun var offset h0 => ?_, fun ch var offset h => ?_⟩
  · exact word_loadVarDefaults_of_none split trim (fun s => s.moduleWord var offset)
      (fun s => moduleEntry s var offset) (fun s e => moduleWord_setDefault s e.1 e.2 var offset)
      (fun s _ e => by simp [moduleEntry, h0]) lines
  · refine word_loadVarDefaults_of_none split trim (fun s => s.channelWord ch var offset)
      (fun s => channelEntry s ch var offset)
      (fun s e => channelWord_setDefault s e.1 e.2 ch var offset) (fun s hs e => ?_) lines
    have hn := hs.tables.2.2
    dsimp only
    rw [channelEntry, if_neg fun hc => by have := hc.1; have := hc.2.1; omega]

end Load

end Sim

end PixieSdk
