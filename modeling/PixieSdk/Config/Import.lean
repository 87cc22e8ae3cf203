import PixieSdk.Crate.State

/-! # Importing a configuration (`config::import_json`)

A configuration document is an array of module settings. `import_json` pads it with a
default template up to the number of modules, then walks modules and settings together,
loading each online module's variables from its `module.input` and `channel.input`. A write
made before an exception stays made, so every block returns the state it reached with the
exception it threw, as `Ran`. -/

namespace PixieSdk

/-- The state a C++ block leaves and the exception it threw, if any. -/
abbrev Ran (σ : Type) := σ × Except Exception Unit

/-- A loop whose body may throw: it stops at the first exception, keeping the state reached. -/
def forEach {σ α : Type} (body : σ → α → Ran σ) : σ → List α → Ran σ
  | s, [] => (s, .ok ())
  | s, x :: xs =>
    match body s x with
    | (s', .ok ()) => forEach body s' xs
    | r => r

@[simp] theorem forEach_nil {σ α : Type} (body : σ → α → Ran σ) (s : σ) :
    forEach body s [] = (s, .ok ()) := rfl

theorem forEach_cons_ok {σ α : Type} {body : σ → α → Ran σ} {s s' : σ} {x : α} (xs : List α)
    (h : body s x = (s', .ok ())) : forEach body s (x :: xs) = forEach body s' xs := by
  simp [forEach, h]

theorem forEach_cons_error {σ α : Type} {body : σ → α → Ran σ} {s s' : σ} {x : α} {e : Exception}
    (xs : List α) (h : body s x = (s', .error e)) : forEach body s (x :: xs) = (s', .error e) := by
  simp [forEach, h]

theorem forEach_congr {σ α : Type} {body body' : σ → α → Ran σ} (xs : List α)
    (h : ∀ x ∈ xs, ∀ s, body s x = body' s x) (s : σ) : forEach body s xs = forEach body' s xs := by
  induction xs generalizing s with
  | nil => rfl
  | cons x xs ih =>
    simp only [forEach, h x (List.mem_cons_self _ _)]
    split
    · exact ih (fun y hy => h y (List.mem_cons_of_mem _ hy)) _
    · rfl

theorem forEach_invariant {σ α : Type} (P : σ → Prop) {body : σ → α → Ran σ}
    (h : ∀ s x, P s → P (body s x).1) : ∀ (xs : List α) (s : σ), P s → P (forEach body s xs).1
  | [], _, hs => hs
  | x :: xs, s, hs => by
    have hx := h s x hs
    unfold forEach
    split
    · next s' heq => exact forEach_invariant P h xs s' (by rw [heq] at hx; exact hx)
    · exact hx

theorem forEach_eq_foldl {σ α : Type} {body : σ → α → Ran σ} (f : σ → α → σ) :
    ∀ (xs : List α) (s : σ), (∀ s, ∀ x ∈ xs, body s x = (f s x, .ok ())) →
      forEach body s xs = (xs.foldl f s, .ok ())
  | [], _, _ => rfl
  | x :: xs, s, h => by
    rw [forEach_cons_ok xs (h s x (List.mem_cons_self _ _)), List.foldl_cons]
    exact forEach_eq_foldl f xs _ fun s y hy => h s y (List.mem_cons_of_mem _ hy)

theorem forEach_append_ok {σ α : Type} {body : σ → α → Ran σ} {s s' : σ} :
    ∀ (xs ys : List α), forEach body s xs = (s', .ok ()) →
      forEach body s (xs ++ ys) = forEach body s' ys
  | [], _, h => by simp only [forEach_nil, Prod.mk.injEq] at h; rw [h.1]; rfl
  | x :: xs, ys, h => by
    rcases hx : body s x with ⟨s1, e | ⟨⟩⟩
    · rw [forEach_cons_error xs hx] at h
      simp at h
    · rw [forEach_cons_ok xs hx] at h
      rw [List.cons_append, forEach_cons_ok _ hx]
      exact forEach_append_ok xs ys h

/-! ## The default template and the document -/

/-- `default_config`, the settings a module gets when the document is too short. -/
def defaultConfig : Json :=
  .object [
    ("channel", .object [("input", .object (
      [("BLcut", 3), ("BaselinePercent", 10), ("CFDDelay", 8), ("CFDScale", 0),
       ("CFDThresh", 120), ("ChanCSRa", 4), ("ChanCSRb", 0), ("ChanTrigStretch", 0),
       ("DigGain", 0), ("EnergyLow", 0), ("ExtTrigStretch", 150), ("ExternDelayLen", 20),
       ("FastGap", 10), ("FastLength", 20), ("FastThresh", 1000), ("FastTrigBackLen", 10),
       ("FtrigoutDelay", 0), ("GainDAC", 0), ("Integrator", 0), ("Log2Bweight", 4294967294),
       ("Log2Ebin", 4294967295), ("MultiplicityMaskH", 0), ("MultiplicityMaskL", 0),
       ("OffsetDAC", 34952), ("PAFlength", 119), ("PSAlength", 0), ("PSAoffset", 0),
       ("PeakSample", 42), ("PreampTau", 1112014848), ("QDCLen0", 30), ("QDCLen1", 63),
       ("QDCLen2", 88), ("QDCLen3", 113), ("QDCLen4", 138), ("QDCLen5", 163), ("QDCLen6", 188),
       ("QDCLen7", 213), ("ResetDelay", 0), ("SlowGap", 19), ("SlowLength", 25),
       ("ThreshWidth", 0), ("TraceLength", 124), ("TrigOutLen", 0), ("TriggerDelay", 88),
       ("VetoStretch", 30), ("Xavg", 0), ("Xwait", 8)].map
        fun p : String × ℤ => (p.1, .array [.numberInteger p.2])))]),
    ("metadata", .object [("hardware_revision", .string "DEFAULT"), ("slot", .numberInteger 99)]),
    ("module", .object [("input", .object (
      [("CoincPattern", 0), ("CoincWait", 0), ("ControlTask", 4), ("CrateID", 0),
       ("FastFilterRange", 0), ("FastTrigBackplaneEna", 0)].map
        (fun p : String × ℤ => (p.1, .numberInteger p.2)) ++
      [("HostIO", .array (List.replicate 16 (.numberInteger 0))),
       ("HostRunTimePreset", .numberInteger 1092616192)] ++
      [("InSynch", 1), ("MaxEvents", 0), ("ModCSRA", 0), ("ModCSRB", 0), ("ModFormat", 0),
       ("ModID", 0), ("ModNum", 0), ("Resume", 1), ("RunTask", 0), ("SlotID", 5),
       ("SlowFilterRange", 3), ("SynchWait", 0)].map
        (fun p : String × ℤ => (p.1, .numberInteger p.2)) ++
      [("TrigConfig", .array (List.replicate 4 (.numberInteger 0))),
       ("U00", .array (List.replicate 7 (.numberInteger 0))),
       ("UserIn", .array (List.replicate 16 (.numberInteger 0)))]))])]

/-- The configuration file as `import_json` finds it: it cannot be opened, it does not
parse, or it parses to a document. -/
inductive ConfigFile where
  | unreadable (reason : String)
  | malformed
  | document (config : Json)

/-- The padding loop `while (config.size() < num_modules) config.push_back(default_config)`,
run as the `num_modules - size()` pushes it makes on an array or null; on any other value
the first push throws. -/
def pushDefaults : ℕ → Json → Except Exception Json
  | 0, config => .ok config
  | k + 1, config => config.pushBack defaultConfig >>= pushDefaults k

/-- The padding step of `import_json`. -/
def padConfig (config : Json) (n : ℕ) : Except Exception Json :=
  if config.size < n then pushDefaults (n - config.size) config else .ok config

/-- What `config.begin()` to `config.end()` walks: an array's elements, an object's values,
nothing for null, and a primitive value itself. -/
def Json.elements : Json → List Json
  | .null => []
  | .array xs => xs
  | .object kvs => kvs.map Prod.snd
  | j => [j]

/-! ## Loading one module -/

/-- The value of a key known to be present (`settings["metadata"]` after `contains`). -/
def Json.get (j : Json) (key : String) : Json :=
  match j with
  | .object kvs => (kvs.lookup key).getD .null
  | _ => .null

theorem Json.get_ofAssignments {kvs : List (String × Json)} (hd : (Json.keys kvs).Nodup)
    {key : String} {v : Json} (h : (key, v) ∈ kvs) : (Json.ofAssignments kvs).get key = v := by
  rw [Json.ofAssignments_of_ne_nil (List.ne_nil_of_mem h)]
  simp [Json.get, Json.lookup_eq_of_mem (Json.nodup_keys_items_ofAssignments kvs)
    ((Json.mem_items_ofAssignments hd _).mpr h)]

/-- The `catch (json::exception&)` handlers of the variable loops: they build the message with
`std::string(v)`, which throws itself for anything but a string, then `throw_json_error`.
The message is modelled up to the text `nlohmann::json` appends. -/
def rethrowJson (key : String) (v : Json) : Exception :=
  match v.getString with
  | .ok s => .pixie .configJsonError (key ++ ": " ++ s)
  | .error e => e

namespace Module

/-- `write_var(var, value, offset, false)` on a module variable. -/
def setModuleVar (m : Module) (var offset : ℕ) (value : Word) : Module :=
  { m with moduleVars := writeCell m.moduleVars var offset value }

/-- `write_var(var, value, channel, offset, false)` on a channel variable. -/
def setChannelVar (m : Module) (channel var offset : ℕ) (value : Word) : Module :=
  { m with channels := m.channels.modify (fun vars => writeCell vars var offset value) channel }

end Module

/-- Word `v` of an array module variable: `write_var(var, el.value()[v], v, false)`. -/
def writeModuleWord (key : String) (value : Json) (var : ℕ) (m : Module) (v : ℕ) : Ran Module :=
  match value.atIndex v >>= fun p => p.1.toWord with
  | .ok w => (m.setModuleVar var v w, .ok ())
  | .error _ => (m, .error (rethrowJson key value))

/-- One item of `module.input`. A writable variable whose size matches is written word by
word from an array, or as one word, where `SlotID` and `ModNum` take the module's own slot
and number; anything else is only logged. -/
def loadModuleVar (m : Module) (item : String × Json) : Ran Module :=
  let key := item.1
  let value := item.2
  let var := m.moduleVarDescriptors.lookup key
  match m.moduleVarDescriptors.isVar key, m.moduleVarDescriptors.descs[var]? with
  | true, some desc =>
    if !desc.writeable || desc.size != value.size then (m, .ok ())
    else if 1 < desc.size then forEach (writeModuleWord key value var) m (List.range desc.size)
    else if desc.name = "SlotID" then (m.setModuleVar var 0 (wordOfInt m.slot), .ok ())
    else if desc.name = "ModNum" then (m.setModuleVar var 0 (wordOfInt m.number), .ok ())
    else
      match value.toWord with
      | .ok w => (m.setModuleVar var 0 w, .ok ())
      | .error _ => (m, .error (rethrowJson key value))
  | _, _ => (m, .ok ())

/-- The handler of the channel loop: `std::string(el.value()[vbase + v])` indexes again. -/
def channelHandler (key : String) (value : Json) (idx : ℕ) : Exception :=
  match value.atIndex idx with
  | .ok p => rethrowJson key p.1
  | .error e => e

/-- Word `v` of channel `ch`: `write_var(var, el.value()[vbase + v], channel, v, false)`. -/
def writeChannelWord (key : String) (value : Json) (var size ch : ℕ) (m : Module) (v : ℕ) :
    Ran Module :=
  match value.atIndex (ch * size + v) >>= fun p => p.1.toWord with
  | .ok w => (m.setChannelVar ch var v w, .ok ())
  | .error _ => (m, .error (channelHandler key value (ch * size + v)))

/-- The extension loop `el.value().push_back(el.value()[0])`, once per missing channel. -/
def extendChannels : ℕ → Json → Except Exception Json
  | 0, value => .ok value
  | k + 1, value => (value.atIndex 0 >>= fun p => p.2.pushBack p.1) >>= extendChannels k

/-- The channels the write loop visits: `channel < num_channels && channel < vchannels &&
channel * desc.size < el.value().size()`. -/
def channelsWritten (numChannels vchannels size total : ℕ) : List ℕ :=
  (List.range numChannels).takeWhile fun ch => ch < vchannels && ch * size < total

/-- One item of `channel.input`. A writable variable whose array length is a multiple of its
size is read as `vchannels` channels; a short array is extended by one copy of element 0 per
missing channel, outside any `try`; then every channel the loop condition allows is written. -/
def loadChannelVar (metadata : Json) (m : Module) (item : String × Json) : Ran Module :=
  let key := item.1
  let value := item.2
  let var := m.channelVarDescriptors.lookup key
  match m.channelVarDescriptors.isVar key, m.channelVarDescriptors.descs[var]? with
  | true, some desc =>
    if !desc.writeable || value.size % desc.size != 0 then (m, .ok ())
    else
      let vchannels := value.size / desc.size
      let extended : Except Exception Json :=
        if vchannels < m.numChannels then
          (metadata.atKey "hardware_revision" >>= Json.getString) >>= fun _ =>
            extendChannels (m.numChannels - vchannels) value
        else .ok value
      match extended with
      | .error e => (m, .error e)
      | .ok value' =>
        let vchannels' := if vchannels < m.numChannels then value'.size / desc.size else vchannels
        forEach (fun m ch => forEach (writeChannelWord key value' var desc.size ch) m
            (List.range desc.size)) m
          (channelsWritten m.numChannels vchannels' desc.size value'.size)
  | _, _ => (m, .ok ())

/-- A two-word channel variable of a two-channel module given one channel's worth, `[7, 8]`:
the array is extended by one element rather than one channel, `vchannels` stays 1, and
channel 1 is never written. -/
theorem loadChannelVar_two_words_one_channel :
    (loadChannelVar (.object [("hardware_revision", .string "H")])
        { Module.fresh 0 with
          numChannels := 2
          channelVarDescriptors := ⟨[⟨"X", .rw, true, 2, by decide, by simp⟩], by simp⟩
          channels := [[[⟨0, false⟩, ⟨0, false⟩]], [[⟨0, false⟩, ⟨0, false⟩]]] }
        ("X", .array [.numberUnsigned 7, .numberUnsigned 8])).2 = .ok () ∧
    (loadChannelVar (.object [("hardware_revision", .string "H")])
        { Module.fresh 0 with
          numChannels := 2
          channelVarDescriptors := ⟨[⟨"X", .rw, true, 2, by decide, by simp⟩], by simp⟩
          channels := [[[⟨0, false⟩, ⟨0, false⟩]], [[⟨0, false⟩, ⟨0, false⟩]]] }
        ("X", .array [.numberUnsigned 7, .numberUnsigned 8])).1.channels =
      [[[⟨7, true⟩, ⟨8, true⟩]], [[⟨0, false⟩, ⟨0, false⟩]]] := by
  decide

/-- The body of the module loop for an online module: the section checks, the revision and
slot reads, then the module and channel variables. -/
def loadModule (m : Module) (settings : Json) : Ran Module :=
  if !settings.contains "metadata" then (m, .error (.pixie .configJsonError "'metadata' not found"))
  else if !settings.contains "module" then (m, .error (.pixie .configJsonError "'module' not found"))
  else if !settings.contains "channel" then
    (m, .error (.pixie .configJsonError "'channel' not found"))
  else
    let metadata := settings.get "metadata"
    let moddata := settings.get "module"
    let chandata := settings.get "channel"
    if !moddata.contains "input" then
      (m, .error (.pixie .configJsonError "module 'input' not found"))
    else if !chandata.contains "input" then
      (m, .error (.pixie .configJsonError "channel 'input' not found"))
    else
      match metadata.atKey "hardware_revision" >>= Json.getString with
      | .error _ => (m, .error (.pixie .configJsonError "config rev"))
      | .ok _ =>
        match metadata.atKey "slot" with
        | .error _ => (m, .error (.pixie .configJsonError "config slot-id"))
        | .ok _ =>
          match forEach loadModuleVar m (moddata.get "input").items with
          | (m', .ok ()) => forEach (loadChannelVar metadata) m' (chandata.get "input").items
          | r => r

/-! ## The module loop -/

/-- A configured crate and the `loaded` list. -/
abbrev Loaded := Crate × List (ℤ × ℤ)

/-- One module of the loop, `crate[mod]`: an offline module is skipped; an online one is loaded in
place and, if that returned, appended to `loaded` as `(number, slot)`. A read past the end of
`modules` (`none`) is undefined in the code. -/
def importModule (mod : ℕ) (settings : Json) (s : Loaded) : Ran Loaded :=
  match s.1.indexSize mod with
  | .error e => (s, .error e)
  | .ok none => (s, .ok ())
  | .ok (some m) =>
    if !m.online then (s, .ok ())
    else
      match loadModule m settings with
      | (m', .ok ()) =>
        (({ s.1 with modules := s.1.modules.set mod m' }, s.2 ++ [(m'.number, m'.slot)]), .ok ())
      | (m', .error e) => (({ s.1 with modules := s.1.modules.set mod m' }, s.2), .error e)

/-- The loop of `import_json`: `mod` counts modules while the iterator walks the settings; it
stops when `mod` reaches `num_modules` or the iterator reaches the end (`break`). -/
def importLoop (n : ℕ) : ℕ → List Json → Loaded → Ran Loaded
  | _, [], s => (s, .ok ())
  | mod, settings :: rest, s =>
    if mod < n then
      match importModule mod settings s with
      | (s', .ok ()) => if rest.isEmpty then (s', .ok ()) else importLoop n (mod + 1) rest s'
      | r => r
    else (s, .ok ())

/-- `config::import_json(filename, crate, loaded)`. -/
def importJson (filename : String) (file : ConfigFile) (s : Loaded) : Ran Loaded :=
  match file with
  | .unreadable reason =>
    (s, .error (.pixie .fileOpenFailure ("opening json config: " ++ filename ++ ": " ++ reason)))
  | .malformed => (s, .error (.pixie .configJsonError "parse config"))
  | .document config =>
    match padConfig config s.1.numModules with
    | .error e => (s, .error e)
    | .ok config' => importLoop s.1.numModules 0 config'.elements s

/-- A module array with a non-integer element: the conversion throws `type_error.302`,
and its handler's `std::string(el.value())` on the array throws `type_error.302` again,
which leaves `import_json` as an `nlohmann::json` exception. -/
theorem importJson_string_in_module_array :
    (importJson "crate.json"
      (.document (.array [.object [
        ("channel", .object [("input", .object [])]),
        ("metadata", .object [("hardware_revision", .string "H"), ("slot", .numberInteger 2)]),
        ("module", .object [("input", .object [("TrigConfig",
          .array [.string "a", .string "b", .string "c", .string "d"])])])]]))
      ({ Crate.new with
          modules := [{ Module.fresh 0 with
            slot := 2
            online := true
            moduleVarDescriptors := ⟨[⟨"TrigConfig", .rw, true, 4, by decide, by simp⟩], by simp⟩
            moduleVars := [List.replicate 4 ⟨0, false⟩] }]
          numModules := 1
          ready := true }, [])).2 = .error (.json 302) := by
  decide

/-! ## Alignment of settings and modules -/

/-- The module loop as a loop over module numbers: module `i < n` reads element `i` of the
array, or the default template past its end. -/
def importAligned (n : ℕ) (xs : List Json) (s : Loaded) : Ran Loaded :=
  forEach (fun s i => importModule i (xs.getD i defaultConfig) s) s (List.range n)

theorem pushDefaults_array (k : ℕ) (xs : List Json) :
    pushDefaults k (.array xs) = .ok (.array (xs ++ List.replicate k defaultConfig)) := by
  induction k generalizing xs with
  | zero => simp [pushDefaults]
  | succ k ih =>
    simp only [pushDefaults, Json.pushBack, bind, Except.bind, ih, List.append_assoc,
      List.singleton_append, List.replicate_succ]

theorem padConfig_array (xs : List Json) (n : ℕ) :
    padConfig (.array xs) n =
      .ok (.array (xs ++ List.replicate (n - xs.length) defaultConfig)) := by
  unfold padConfig
  split_ifs with h
  · exact pushDefaults_array _ _
  · simp [show n - xs.length = 0 by simp at h; omega]

theorem importLoop_eq_forEach (n : ℕ) :
    ∀ (ys : List Json) (mod : ℕ) (s : Loaded), n ≤ mod + ys.length →
      importLoop n mod ys s =
        forEach (fun s i => importModule i (ys.getD (i - mod) defaultConfig) s) s
          (List.range' mod (n - mod))
  | [], mod, s, h => by
    simp [importLoop, show n - mod = 0 by simp at h; omega]
  | y :: rest, mod, s, h => by
    by_cases hm : mod < n
    · obtain ⟨k, hk⟩ : ∃ k, n - mod = k + 1 := ⟨n - mod - 1, by omega⟩
      have hy : (y :: rest).getD (mod - mod) defaultConfig = y := by simp
      rw [hk, List.range'_succ, importLoop, if_pos hm]
      rcases hr : importModule mod y s with ⟨s', r⟩
      cases r with
      | error e =>
        simp only [hr]
        rw [forEach_cons_error _ (by rw [hy, hr])]
      | ok u =>
        cases u
        rw [forEach_cons_ok _ (by rw [hy, hr])]
        simp only [hr]
        cases rest with
        | nil => simp [show k = 0 by simp at h; omega]
        | cons z rest =>
          simp only [List.isEmpty_cons, Bool.false_eq_true, ite_false]
          rw [importLoop_eq_forEach n (z :: rest) (mod + 1) s' (by simp at h ⊢; omega),
            show n - (mod + 1) = k by omega]
          refine forEach_congr _ (fun i hi s => ?_) s'
          have hi' : mod + 1 ≤ i := (List.mem_range'_1.mp hi).1
          rw [show i - mod = i - (mod + 1) + 1 by omega]
          rfl
    · simp [importLoop, hm, show n - mod = 0 by omega]

theorem getD_append_replicate (xs : List Json) (k i : ℕ) :
    (xs ++ List.replicate k defaultConfig).getD i defaultConfig = xs.getD i defaultConfig := by
  simp only [List.getD_eq_getElem?_getD]
  by_cases h : i < xs.length
  · rw [List.getElem?_append_left h]
  · have hx : xs[i]? = none := List.getElem?_eq_none (by omega)
    rw [hx, List.getElem?_append_right (by omega), List.getElem?_replicate]
    split <;> rfl

theorem importJson_eq_importAligned (filename : String) (xs : List Json) (s : Loaded) :
    importJson filename (.document (.array xs)) s = importAligned s.1.numModules xs s := by
  simp only [importJson, padConfig_array, Json.elements, importAligned]
  rw [importLoop_eq_forEach _ _ 0 s (by simp; omega), Nat.sub_zero, List.range_eq_range']
  exact forEach_congr _ (fun i _ s => by rw [Nat.sub_zero, getD_append_replicate]) s

/-! ## Frame

Loading a configuration writes variable caches only, and `import_json` leaves every module
object where it was. -/

theorem forEach_varsOnly {α : Type} {body : Module → α → Ran Module}
    (h : ∀ m x, Module.VarsOnly m (body m x).1) (xs : List α) (m : Module) :
    Module.VarsOnly m (forEach body m xs).1 :=
  forEach_invariant (Module.VarsOnly m) (fun _ x hs => hs.trans (h _ x)) xs m (.refl m)

theorem writeModuleWord_varsOnly (key : String) (value : Json) (var : ℕ) (m : Module) (v : ℕ) :
    Module.VarsOnly m (writeModuleWord key value var m v).1 := by
  unfold writeModuleWord; split <;> rfl

theorem writeChannelWord_varsOnly (key : String) (value : Json) (var size ch : ℕ) (m : Module)
    (v : ℕ) : Module.VarsOnly m (writeChannelWord key value var size ch m v).1 := by
  unfold writeChannelWord; split <;> rfl

theorem loadModuleVar_varsOnly (m : Module) (item : String × Json) :
    Module.VarsOnly m (loadModuleVar m item).1 := by
  unfold loadModuleVar
  dsimp only
  split
  · split
    · rfl
    · split
      · exact forEach_varsOnly (writeModuleWord_varsOnly _ _ _) _ m
      · repeat' split
        all_goals rfl
  · rfl

theorem loadChannelVar_varsOnly (metadata : Json) (m : Module) (item : String × Json) :
    Module.VarsOnly m (loadChannelVar metadata m item).1 := by
  unfold loadChannelVar
  dsimp only
  split
  · split
    · rfl
    · split
      · rfl
      · exact forEach_varsOnly
          (fun m' ch => forEach_varsOnly (writeChannelWord_varsOnly _ _ _ _ ch) _ m') _ m
  · rfl

theorem loadModule_varsOnly (m : Module) (settings : Json) :
    Module.VarsOnly m (loadModule m settings).1 := by
  have hv := forEach_varsOnly loadModuleVar_varsOnly ((settings.get "module").get "input").items m
  unfold loadModule
  dsimp only
  repeat' split
  all_goals first
    | rfl
    | exact hv
    | next heq => rw [heq] at hv; exact hv.trans (forEach_varsOnly (loadChannelVar_varsOnly _) _ _)

theorem importModule_inPlace (mod : ℕ) (settings : Json) (s : Loaded) :
    Crate.InPlace s.1 (importModule mod settings s).1.1 := by
  unfold importModule
  split
  · exact .refl _
  · exact .refl _
  · next m hm =>
    have hid := (loadModule_varsOnly m settings).id_eq
    split
    · exact .refl _
    · dsimp only
      split <;>
      · next m' _ heq =>
        rw [heq] at hid
        exact Crate.inPlace_modules (Crate.ids_set (Crate.getElem?_of_indexSize hm) hid)

theorem importLoop_inPlace (n : ℕ) :
    ∀ (mod : ℕ) (ys : List Json) (s : Loaded), Crate.InPlace s.1 (importLoop n mod ys s).1.1
  | _, [], _ => .refl _
  | mod, y :: rest, s => by
    have h := importModule_inPlace mod y s
    unfold importLoop
    split
    · split
      · next s' heq =>
        rw [heq] at h
        split
        · exact h
        · exact h.trans (importLoop_inPlace n _ rest s')
      · exact h
    · exact .refl _

theorem importJson_inPlace (filename : String) (file : ConfigFile) (s : Loaded) :
    Crate.InPlace s.1 (importJson filename file s).1.1 := by
  unfold importJson
  split
  · exact .refl _
  · exact .refl _
  · split
    · exact .refl _
    · exact importLoop_inPlace _ _ _ _

/-! ## What `import_json` changes -/

theorem forall₂_varsOnly_trans {l₀ l₁ l₂ : List Module}
    (h₁ : List.Forall₂ Module.VarsOnly l₀ l₁) (h₂ : List.Forall₂ Module.VarsOnly l₁ l₂) :
    List.Forall₂ Module.VarsOnly l₀ l₂ := by
  induction h₁ generalizing l₂ with
  | nil => exact h₂
  | cons h _ ih =>
    cases h₂ with
    | cons h' t' => exact .cons (h.trans h') (ih t')

theorem forall₂_varsOnly_set {m m' : Module} (hv : Module.VarsOnly m m') :
    ∀ {ms : List Module} {i : ℕ}, ms[i]? = some m → List.Forall₂ Module.VarsOnly ms (ms.set i m')
  | [], _, h => by simp at h
  | a :: _, 0, h => by
    obtain rfl : a = m := by simpa using h
    exact .cons hv (List.forall₂_same.mpr fun x _ => .refl x)
  | a :: _, _ + 1, h => .cons (.refl a) (forall₂_varsOnly_set hv (by simpa using h))

/-- `s'` is `s` with only the variable caches of its online modules changed and entries
appended to `loaded`. -/
structure CachesOnly (s s' : Loaded) : Prop where
  crate_eq : s'.1 = { s.1 with modules := s'.1.modules }
  modules_varsOnly : List.Forall₂ Module.VarsOnly s.1.modules s'.1.modules
  loaded_prefix : s.2 <+: s'.2

theorem CachesOnly.refl (s : Loaded) : CachesOnly s s :=
  ⟨rfl, List.forall₂_same.mpr fun m _ => .refl m, List.prefix_refl _⟩

theorem CachesOnly.trans {s₀ s₁ s₂ : Loaded} (h₁ : CachesOnly s₀ s₁) (h₂ : CachesOnly s₁ s₂) :
    CachesOnly s₀ s₂ :=
  ⟨h₂.crate_eq.trans (by rw [h₁.crate_eq]),
    forall₂_varsOnly_trans h₁.modules_varsOnly h₂.modules_varsOnly,
    h₁.loaded_prefix.trans h₂.loaded_prefix⟩

theorem importModule_cachesOnly (mod : ℕ) (settings : Json) (s : Loaded) :
    CachesOnly s (importModule mod settings s).1 := by
  unfold importModule
  split
  · exact .refl _
  · exact .refl _
  · next m hm =>
    have hv := loadModule_varsOnly m settings
    have hmod := Crate.getElem?_of_indexSize hm
    split
    · exact .refl _
    · dsimp only
      split
      · next m' _ heq => rw [heq] at hv; exact ⟨rfl, forall₂_varsOnly_set hv hmod, List.prefix_append _ _⟩
      · next m' _ heq => rw [heq] at hv; exact ⟨rfl, forall₂_varsOnly_set hv hmod, List.prefix_refl _⟩

theorem importLoop_cachesOnly (n : ℕ) :
    ∀ (mod : ℕ) (ys : List Json) (s : Loaded), CachesOnly s (importLoop n mod ys s).1
  | _, [], _ => .refl _
  | mod, y :: rest, s => by
    have h := importModule_cachesOnly mod y s
    unfold importLoop
    split
    · split
      · next s' heq =>
        rw [heq] at h
        split
        · exact h
        · exact h.trans (importLoop_cachesOnly n _ rest s')
      · exact h
    · exact .refl _

/-- On every file and every exit, `import_json` on a crate with `num_modules ≤ modules.size()`
changes only the variable caches of its modules, each in place, and only appends to `loaded`. -/
theorem importJson_cachesOnly (filename : String) (file : ConfigFile) (s : Loaded)
    (_hn : s.1.numModules ≤ s.1.modules.length) :
    CachesOnly s (importJson filename file s).1 := by
  unfold importJson
  split
  · exact .refl _
  · exact .refl _
  · split
    · exact .refl _
    · exact importLoop_cachesOnly _ _ _ _

/-- A crate of two modules, the first offline and the second online. -/
def offlineThenOnline : Loaded :=
  ({ Crate.new with
      modules := [Module.fresh 0, { Module.fresh 1 with online := true }]
      numModules := 2 }, [])

theorem importJson_cachesOnly_offlineThenOnline :
    offlineThenOnline.1.numModules ≤ offlineThenOnline.1.modules.length ∧
      CachesOnly offlineThenOnline
        (importJson "crate.json" (.document (.array [defaultConfig])) offlineThenOnline).1 :=
  ⟨by decide, importJson_cachesOnly "crate.json" _ offlineThenOnline (by decide)⟩

/-! ## The import the spec describes

Over the crate's first `num_modules` modules in index order, each online module `i` loads
element `i` of the array, or the default template past its end, and once loaded appends its
`(number, slot)` to `loaded`; an offline module is skipped and shifts nothing. The first load
that throws ends the import. -/

/-- One module of `importSpec`, with its index. -/
def loadOnline (xs : List Json) (t : Loaded) (im : ℕ × Module) : Ran Loaded :=
  if im.2.online then
    match loadModule im.2 (xs.getD im.1 defaultConfig) with
    | (m', .ok ()) =>
      (({ t.1 with modules := t.1.modules.set im.1 m' }, t.2 ++ [(im.2.number, im.2.slot)]), .ok ())
    | (m', .error e) => (({ t.1 with modules := t.1.modules.set im.1 m' }, t.2), .error e)
  else (t, .ok ())

/-- The import the spec describes, over the first `n` modules of the crate. -/
def importSpec (n : ℕ) (xs : List Json) (s : Loaded) : Ran Loaded :=
  forEach (loadOnline xs) s (s.1.modules.take n).enum

theorem importModule_eq_loadOnline {xs : List Json} {i : ℕ} {m : Module} {t : Loaded}
    (hi : i < t.1.numModules) (hm : t.1.modules[i]? = some m) :
    importModule i (xs.getD i defaultConfig) t = loadOnline xs t (i, m) := by
  have hidx : t.1.indexSize i = .ok (some m) := by simp [Crate.indexSize, hm, Nat.not_le.mpr hi]
  have hv := loadModule_varsOnly m (xs.getD i defaultConfig)
  cases hon : m.online
  · simp only [importModule, loadOnline, hidx, hon]
    rfl
  · rcases h : loadModule m (xs.getD i defaultConfig) with ⟨m', _ | ⟨⟩⟩
    · simp only [importModule, loadOnline, hidx, hon, h]
      rfl
    · rw [h] at hv
      have hnum : m'.number = m.number := hv.congr Module.number fun _ _ => rfl
      have hslot : m'.slot = m.slot := hv.congr Module.slot fun _ _ => rfl
      simp only [importModule, loadOnline, hidx, hon, h, hnum, hslot]
      rfl

theorem loadOnline_frame (xs : List Json) (t : Loaded) (i : ℕ) (m : Module) :
    (loadOnline xs t (i, m)).1.1.numModules = t.1.numModules ∧
      ∀ j ≠ i, (loadOnline xs t (i, m)).1.1.modules[j]? = t.1.modules[j]? := by
  unfold loadOnline
  split
  · split <;> exact ⟨rfl, fun j hj => List.getElem?_set_ne hj.symm⟩
  · exact ⟨rfl, fun _ _ => rfl⟩

theorem forEach_importModule_eq (xs : List Json) :
    ∀ (ps : List (ℕ × Module)) (t : Loaded), (ps.map (·.1)).Nodup →
      (∀ p ∈ ps, p.1 < t.1.numModules ∧ t.1.modules[p.1]? = some p.2) →
      forEach (fun s i => importModule i (xs.getD i defaultConfig) s) t (ps.map (·.1)) =
        forEach (loadOnline xs) t ps
  | [], _, _, _ => rfl
  | (i, m) :: ps, t, hnd, h => by
    obtain ⟨hi, hm⟩ := h (i, m) (List.mem_cons_self _ _)
    obtain ⟨hnum, hrest⟩ := loadOnline_frame xs t i m
    rw [List.map_cons, List.nodup_cons] at hnd
    rcases hr : loadOnline xs t (i, m) with ⟨t', _ | ⟨⟩⟩
    · rw [List.map_cons, forEach_cons_error _ ((importModule_eq_loadOnline hi hm).trans hr),
        forEach_cons_error _ hr]
    · rw [hr] at hnum hrest
      rw [List.map_cons, forEach_cons_ok _ ((importModule_eq_loadOnline hi hm).trans hr),
        forEach_cons_ok _ hr]
      refine forEach_importModule_eq xs ps t' hnd.2 fun p hp => ?_
      have hmem : p.1 ∈ ps.map (·.1) := List.mem_map_of_mem _ hp
      have hne : p.1 ≠ i := fun he => hnd.1 (he ▸ hmem)
      obtain ⟨hpi, hpm⟩ := h p (List.mem_cons_of_mem _ hp)
      exact ⟨hnum ▸ hpi, (hrest p.1 hne).trans hpm⟩

/-- `import_json` on an array of any length, over a crate with `num_modules ≤ modules.size()`, is
the import the spec describes: element `i`, or the default template, to online module `i`; offline
modules skipped; `(number, slot)` appended on each load. -/
theorem importJson_aligned (filename : String) (xs : List Json) (s : Loaded)
    (hn : s.1.numModules ≤ s.1.modules.length) :
    importJson filename (.document (.array xs)) s = importSpec s.1.numModules xs s := by
  have hfst : (s.1.modules.take s.1.numModules).enum.map (·.1) = List.range s.1.numModules := by
    rw [List.enum_map_fst, List.length_take, min_eq_left hn]
  rw [importJson_eq_importAligned, importAligned, importSpec, ← hfst]
  refine forEach_importModule_eq xs _ s (hfst ▸ List.nodup_range _) fun p hp => ?_
  have hp' := List.mem_enum_iff_getElem?.mp hp
  rw [List.getElem?_take] at hp'
  split_ifs at hp' with hlt
  exact ⟨hlt, hp'⟩

theorem importJson_aligned_offlineThenOnline :
    offlineThenOnline.1.numModules ≤ offlineThenOnline.1.modules.length ∧
      importJson "crate.json" (.document (.array [defaultConfig])) offlineThenOnline =
        importSpec offlineThenOnline.1.numModules [defaultConfig] offlineThenOnline :=
  ⟨by decide, importJson_aligned "crate.json" [defaultConfig] offlineThenOnline (by decide)⟩

end PixieSdk
