import PixieSdk.Config.Import

/-! # The simulation's module definitions

The simulation (`sim.cpp`) builds its crate from module definitions, one a line: fields
`label=value` between delimiters. `add_module_def` reads a line into a `module_def`, starting
from the constructor's zeros, `load_module_defs` adds every non-empty line of a file, and
`sim::module::open` gives a module the first definition of its device number that has
channels.

`util::split`, which cuts a line into fields and a field into its label and value, is in
`util.cpp`, which is not part of the sources: the parser takes it as the parameter `split`,
and what is proved holds for every splitter. -/

namespace PixieSdk

namespace Sim

/-! ### `std::stoul` -/

/-- `std::isspace` in the C locale. -/
def isSpace (c : Char) : Bool :=
  c == ' ' || c == '\t' || c == '\n' || c == '\x0B' || c == '\x0C' || c == '\r'

/-- `ULONG_MAX`: `unsigned long` has 64 bits on the platforms the SDK builds for. -/
def ulongMax : ℕ := 2 ^ 64 - 1

/-- The value of a run of decimal digits, read left to right. -/
def digitsValue (ds : List Char) : ℕ :=
  ds.foldl (fun acc c => 10 * acc + (c.toNat - '0'.toNat)) 0

/-- The sign `strtoul` reads: whether the number is negated, and what follows the sign. -/
def readSign : List Char → Bool × List Char
  | c :: cs => if c = '-' then (true, cs) else if c = '+' then (false, cs) else (false, c :: cs)
  | [] => (false, [])

/-- `std::stoul(s)` in base 10, which reads as `strtoul` does: white space, a sign and the
longest run of digits, ignoring the rest. `none` where it throws: `std::invalid_argument`
without digits, `std::out_of_range` past `ULONG_MAX`. A minus sign negates in `unsigned long`. -/
def stoul (s : String) : Option ℕ :=
  let signed := readSign (s.data.dropWhile isSpace)
  let ds := signed.2.takeWhile Char.isDigit
  if ds = [] ∨ ulongMax < digitsValue ds then none
  else some (if signed.1 then (2 ^ 64 - digitsValue ds) % 2 ^ 64 else digitsValue ds)

/-! ### `module_def` and `add_module_def` -/

/-- `sim::module_def`, declared in `sim.hpp` (not in the sources): its numbers are what
`std::stoul` read. -/
structure ModuleDef where
  deviceNumber : ℕ
  slot : ℕ
  revision : ℕ
  eepromFormat : ℕ
  serialNum : ℕ
  numChannels : ℕ
  adcBits : ℕ
  adcMsps : ℕ
  adcClkDiv : ℕ
  varDefaults : String
  deriving DecidableEq, Repr

/-- `module_def::module_def()`: every number 0 and no defaults file. -/
def ModuleDef.new : ModuleDef :=
  ⟨0, 0, 0, 0, 0, 0, 0, 0, 0, ""⟩

/-- The numeric fields of a module definition, in the order `add_module_def` tests their
labels. -/
inductive NumberField where
  | deviceNumber
  | slot
  | revision
  | eepromFormat
  | serialNum
  | numChannels
  | adcBits
  | adcMsps
  | adcClkDiv
  deriving DecidableEq, Repr

namespace NumberField

/-- Every numeric field, in the order `add_module_def` tests their labels. -/
def all : List NumberField :=
  [deviceNumber, slot, revision, eepromFormat, serialNum, numChannels, adcBits, adcMsps, adcClkDiv]

/-- The label `add_module_def` reads for a field. -/
def label : NumberField → String
  | deviceNumber => "device-number"
  | slot => "slot"
  | revision => "revision"
  | eepromFormat => "eeprom-format"
  | serialNum => "serial-num"
  | numChannels => "num-channels"
  | adcBits => "adc-bits"
  | adcMsps => "adc-msps"
  | adcClkDiv => "adc-clk-div"

/-- The numeric field a label names, tested in the source's order. -/
def ofLabel (label : String) : Option NumberField :=
  all.find? (·.label = label)

end NumberField

namespace ModuleDef

def number (d : ModuleDef) : NumberField → ℕ
  | .deviceNumber => d.deviceNumber
  | .slot => d.slot
  | .revision => d.revision
  | .eepromFormat => d.eepromFormat
  | .serialNum => d.serialNum
  | .numChannels => d.numChannels
  | .adcBits => d.adcBits
  | .adcMsps => d.adcMsps
  | .adcClkDiv => d.adcClkDiv

/-- `mod_def.<field> = value`. -/
def setNumber (d : ModuleDef) (value : ℕ) : NumberField → ModuleDef
  | .deviceNumber => { d with deviceNumber := value }
  | .slot => { d with slot := value }
  | .revision => { d with revision := value }
  | .eepromFormat => { d with eepromFormat := value }
  | .serialNum => { d with serialNum := value }
  | .numChannels => { d with numChannels := value }
  | .adcBits => { d with adcBits := value }
  | .adcMsps => { d with adcMsps := value }
  | .adcClkDiv => { d with adcClkDiv := value }

@[simp] theorem number_setNumber (d : ModuleDef) (value : ℕ) (f g : NumberField) :
    (d.setNumber value f).number g = if g = f then value else d.number g := by
  cases f <;> cases g <;> rfl

@[simp] theorem varDefaults_setNumber (d : ModuleDef) (value : ℕ) (f : NumberField) :
    (d.setNumber value f).varDefaults = d.varDefaults := by
  cases f <;> rfl

end ModuleDef

/-- The error `add_module_def` throws for a field it cannot read. -/
def invalidDefinition (field : String) : Exception :=
  .pixie .invalidValue ("invalid module definition: " ++ field)

/-- The error its `catch (...)` throws when `std::stoul` rejects a value. -/
def badValue (value : String) : Exception :=
  .pixie .invalidValue ("invalid module definition: bad value: " ++ value)

section Parser

variable (split : String → Char → List String)

/-- One field of `sim::add_module_def`, read into the definition `d`: a label and a value
between `=`, a number label with a value `std::stoul` reads, or `var-defaults`. -/
def readField (d : ModuleDef) (field : String) : Except Exception ModuleDef :=
  match split field '=' with
  | [label, value] =>
    match NumberField.ofLabel label with
    | some f =>
      match stoul value with
      | some n => .ok (d.setNumber n f)
      | none => .error (badValue value)
    | none =>
      if label = "var-defaults" then .ok { d with varDefaults := value }
      else .error (invalidDefinition field)
  | _ => .error (invalidDefinition field)

/-- `sim::add_module_def(mod_desc, delimiter)` up to its `push_back`: the fields in order,
from the constructor's definition. -/
def parseModuleDef (modDesc : String) (delimiter : Char) : Except Exception ModuleDef :=
  (split modDesc delimiter).foldlM (readField split) ModuleDef.new

/-- `sim::add_module_def`: the line's definition is appended to `mod_defs`. -/
def addModuleDef (defs : List ModuleDef) (modDesc : String) (delimiter : Char) :
    Except Exception (List ModuleDef) :=
  (defs ++ [·]) <$> parseModuleDef split modDesc delimiter

/-- One line of `sim::load_module_defs`: a non-empty line is a definition, fields between
commas. -/
def loadLine (defs : List ModuleDef) (line : String) : Ran (List ModuleDef) :=
  if line.isEmpty then (defs, .ok ())
  else
    match addModuleDef split defs line ',' with
    | .ok defs' => (defs', .ok ())
    | .error e => (defs, .error e)

/-- `sim::load_module_defs(istream&)` over the stream's lines: the first error stops it, the
definitions added before it staying in `mod_defs`. -/
def loadModuleDefs (defs : List ModuleDef) (lines : List String) : Ran (List ModuleDef) :=
  forEach (loadLine split) defs lines

end Parser

/-! ### What `add_module_def` accepts -/

section Accepts

variable (split : String → Char → List String)

/-- A field `add_module_def` reads: a label and a value between `=`, where the label is a
number's and `std::stoul` reads the value, or the label is `var-defaults`. -/
def Readable (field : String) : Prop :=
  ∃ label value, split field '=' = [label, value] ∧
    ((∃ f, NumberField.ofLabel label = some f ∧ (stoul value).isSome) ∨ label = "var-defaults")

/-- The error `add_module_def` throws for a field it cannot read: a bad value for a number's
label, the field itself otherwise. -/
def fieldError (field : String) : Exception :=
  match split field '=' with
  | [label, value] => if (NumberField.ofLabel label).isSome then badValue value else invalidDefinition field
  | _ => invalidDefinition field

variable {split}

theorem var_defaults_ofLabel : NumberField.ofLabel "var-defaults" = none := rfl

theorem readable_iff {field label value : String} (heq : split field '=' = [label, value]) :
    Readable split field ↔
      (∃ f, NumberField.ofLabel label = some f ∧ (stoul value).isSome) ∨ label = "var-defaults" := by
  refine ⟨fun ⟨l, v, he, h⟩ => ?_, fun h => ⟨label, value, heq, h⟩⟩
  rw [heq, List.cons.injEq, List.cons.injEq] at he
  obtain ⟨rfl, rfl, -⟩ := he
  exact h

theorem readField_cases (d : ModuleDef) (field : String) :
    (Readable split field → ∃ d', readField split d field = .ok d') ∧
      (¬ Readable split field → readField split d field = .error (fieldError split field)) := by
  unfold fieldError readField
  split
  next label value heq =>
    rw [readable_iff heq]
    rcases hf : NumberField.ofLabel label with _ | f
    · by_cases hv : label = "var-defaults" <;> simp [hv]
    · have hv : label ≠ "var-defaults" := fun h => by simp [h, var_defaults_ofLabel] at hf
      rcases hn : stoul value with _ | n <;> simp [hn, hv]
  next hne =>
    exact ⟨fun ⟨label, value, he, _⟩ => absurd he (hne label value), fun _ => rfl⟩

/-- `add_module_def` accepts a line exactly when it can read every field; otherwise it throws
the error of the first field it cannot read. -/
theorem parseModuleDef_accepts (modDesc : String) (delimiter : Char) :
    ((∃ d, parseModuleDef split modDesc delimiter = .ok d) ↔
      ∀ field ∈ split modDesc delimiter, Readable split field) ∧
    ∀ pre field post, split modDesc delimiter = pre ++ field :: post →
      (∀ f ∈ pre, Readable split f) → ¬ Readable split field →
      parseModuleDef split modDesc delimiter = .error (fieldError split field) := by
  have hall : ∀ (fields : List String) (d₀ : ModuleDef),
      (∃ d, fields.foldlM (readField split) d₀ = .ok d) ↔ ∀ field ∈ fields, Readable split field := by
    intro fields
    induction fields with
    | nil => exact fun d₀ => ⟨fun _ => by simp, fun _ => ⟨d₀, rfl⟩⟩
    | cons field fields ih =>
      intro d₀
      by_cases hr : Readable split field
      · obtain ⟨d₁, hd₁⟩ := (readField_cases d₀ field).1 hr
        simp [List.foldlM_cons, hd₁, bind, Except.bind, ih, hr]
      · simp [List.foldlM_cons, (readField_cases d₀ field).2 hr, bind, Except.bind, hr]
  refine ⟨hall _ _, fun pre field post hsplit hpre hbad => ?_⟩
  obtain ⟨d₁, hd₁⟩ := (hall pre ModuleDef.new).2 hpre
  simp [parseModuleDef, hsplit, List.foldlM_append, hd₁, bind, Except.bind, List.foldlM_cons,
    (readField_cases d₁ field).2 hbad]

end Accepts

/-! ### A splitter -/

/-- Cutting at every `c`, with the characters of the current field kept reversed in `acc`. -/
def cutAux (c : Char) : List Char → List Char → List (List Char)
  | acc, [] => [acc.reverse]
  | acc, x :: xs => if x = c then acc.reverse :: cutAux c [] xs else cutAux c (x :: acc) xs

/-- A splitter that cuts at every delimiter, as `String.splitOn` does with one character. -/
def cut (s : String) (c : Char) : List String :=
  (cutAux c [] s.data).map String.mk

/-- A module definition: device 0 in slot 2, revision 15, 16 channels of 14-bit 250 MSPS ADCs,
with a defaults file. -/
def slotTwoDef : ModuleDef :=
  ⟨0, 2, 15, 1, 1234, 16, 14, 250, 2, "slot2-defaults.txt"⟩

/-! ### Fields a line leaves out -/

section Defaults

variable {split : String → Char → List String}

theorem NumberField.label_of_ofLabel {label : String} {g : NumberField}
    (h : NumberField.ofLabel label = some g) : g.label = label := by
  simpa using List.find?_some h

theorem readField_keeps {d d' : ModuleDef} {field : String} {f : NumberField}
    (h : readField split d field = .ok d') (hf : ∀ value, split field '=' ≠ [f.label, value]) :
    d'.number f = d.number f := by
  unfold readField at h
  split at h
  next label value heq =>
    have hne : label ≠ f.label := fun he => hf value (he ▸ heq)
    split at h <;> split at h <;> cases h
    next =>
      rw [ModuleDef.number_setNumber, if_neg]
      rintro rfl
      exact hne (NumberField.label_of_ofLabel ‹_›).symm
    next => cases f <;> rfl
  next => cases h

theorem parseModuleDef_unnamed {modDesc : String} {delimiter : Char} {d : ModuleDef}
    (h : parseModuleDef split modDesc delimiter = .ok d) (f : NumberField)
    (hf : ∀ field ∈ split modDesc delimiter, ∀ value, split field '=' ≠ [f.label, value]) :
    d.number f = 0 := by
  have key : ∀ (fields : List String) (d₀ : ModuleDef),
      (∀ field ∈ fields, ∀ value, split field '=' ≠ [f.label, value]) →
      fields.foldlM (readField split) d₀ = .ok d → d.number f = d₀.number f := by
    intro fields
    induction fields with
    | nil => exact fun d₀ _ h => by cases h; rfl
    | cons field fields ih =>
      intro d₀ hfs h
      rw [List.foldlM_cons] at h
      rcases h₁ : readField split d₀ field with e | d₁
      · simp [h₁, bind, Except.bind] at h
      · rw [h₁] at h
        exact (ih d₁ (fun x hx => hfs x (.tail _ hx)) h).trans
          (readField_keeps h₁ (hfs field (.head _)))
  exact (key _ _ hf h).trans (by cases f <;> rfl)

end Defaults

/-! ### `sim::module::open` -/

/-- The ADC configuration `sim::module::open` gives every channel (`hw::config`). -/
structure AdcConfig where
  adcBits : ℕ
  adcMsps : ℕ
  adcClkDiv : ℕ
  fpgaClkMhz : ℕ
  deriving DecidableEq, Repr

/-- A simulated module: its base module (slot, revision, channel count, `present_`, `online_`,
variable caches), mapped memory (`vmaddr`), device number, EEPROM data, channel configurations,
defaults file, and the DSP and FPGA load flags. -/
structure SimModule where
  base : Module
  vmaddr : Bool
  deviceNumber : ℕ
  eepromFormat : ℕ
  serialNum : ℕ
  configs : List AdcConfig
  varDefaults : String
  dspOnline : Bool
  fippiFpga : Bool
  commsFpga : Bool
  deriving DecidableEq

/-- `std::vector::resize(n, value)`. -/
def resize {α : Type} (l : List α) (n : ℕ) (a : α) : List α :=
  l.take n ++ List.replicate (n - l.length) a

/-- `sim::module::open(device_number)`: a mapped module throws; otherwise the first definition with
channels for the device gives the module its data and ADC configuration, `fpga_clk_mhz = adc_msps /
adc_clk_div` (undefined by 0); without one it throws. -/
def SimModule.openDevice (defs : List ModuleDef) (m : SimModule) (deviceNumber : ℕ) : Exit SimModule :=
  if m.vmaddr then .threw (.pixie .moduleAlreadyOpen "module has a vaddr")
  else
    match defs.find? (fun d => d.numChannels != 0 && d.deviceNumber == deviceNumber) with
    | none => .threw (.pixie .moduleInitializeFailure "no device found")
    | some d =>
      if d.adcClkDiv = 0 then .undefined
      else
        .returned { m with
          base := { m.base with slot := d.slot, revision := d.revision, numChannels := d.numChannels,
                                present := true }
          vmaddr := true, deviceNumber := deviceNumber, eepromFormat := d.eepromFormat,
          serialNum := d.serialNum,
          configs := resize m.configs d.numChannels ⟨d.adcBits, d.adcMsps, d.adcClkDiv, d.adcMsps / d.adcClkDiv⟩,
          varDefaults := d.varDefaults }

/-- A definition line that names no `adc-clk-div` is accepted, but opening a module on its
device, when it is the first definition with channels there, divides by zero. -/
theorem openDevice_without_adcClkDiv {split : String → Char → List String} {line : String}
    {d : ModuleDef} {defs : List ModuleDef} {m : SimModule}
    (hparse : parseModuleDef split line ',' = .ok d)
    (hnone : ∀ field ∈ split line ',', ∀ value, split field '=' ≠ ["adc-clk-div", value])
    (hch : d.numChannels ≠ 0)
    (hfirst : ∀ d' ∈ defs, d'.numChannels = 0 ∨ d'.deviceNumber ≠ d.deviceNumber)
    (hm : m.vmaddr = false) :
    m.openDevice (defs ++ [d]) d.deviceNumber = .undefined := by
  have h0 : d.adcClkDiv = 0 := parseModuleDef_unnamed hparse .adcClkDiv hnone
  have hfind : (defs ++ [d]).find? (fun d' => d'.numChannels != 0 && d'.deviceNumber == d.deviceNumber) =
      some d := by
    rw [List.find?_append, List.find?_eq_none.mpr fun d' hd' => by
      rcases hfirst d' hd' with h | h <;> simp [h]]
    simp [hch]
  simp [SimModule.openDevice, hm, hfind, h0]


/-- A definition line with no `adc-clk-div`. -/
def clocklessLine : String :=
  "device-number=0,slot=2,num-channels=16"

/-- The definition `clocklessLine` describes. -/
def clocklessDef : ModuleDef :=
  ⟨0, 2, 0, 0, 0, 16, 0, 0, 0, ""⟩

/-- A simulated module with nothing mapped yet. -/
def unmappedModule : SimModule :=
  ⟨Module.fresh 0, false, 0, 0, 0, [], "", false, false, false⟩

theorem openDevice_without_adcClkDiv_clocklessLine :
    parseModuleDef cut clocklessLine ',' = .ok clocklessDef ∧
      (∀ field ∈ cut clocklessLine ',', ∀ value, cut field '=' ≠ ["adc-clk-div", value]) ∧
      clocklessDef.numChannels ≠ 0 ∧
      (∀ d' ∈ ([] : List ModuleDef), d'.numChannels = 0 ∨ d'.deviceNumber ≠ clocklessDef.deviceNumber) ∧
      unmappedModule.vmaddr = false ∧
      unmappedModule.openDevice ([] ++ [clocklessDef]) clocklessDef.deviceNumber = .undefined := by
  have hparse : parseModuleDef cut clocklessLine ',' = .ok clocklessDef := by decide
  have hnone : ∀ field ∈ cut clocklessLine ',', ∀ value, cut field '=' ≠ ["adc-clk-div", value] := by
    rw [show cut clocklessLine ',' = ["device-number=0", "slot=2", "num-channels=16"] by decide]
    intro field hf value h
    have hl : (cut field '=').head? ≠ some "adc-clk-div" := by
      simp only [List.mem_cons, List.mem_singleton, List.not_mem_nil, or_false] at hf
      rcases hf with rfl | rfl | rfl <;> decide
    exact hl (by rw [h]; rfl)
  exact ⟨hparse, hnone, by decide, by simp, rfl,
    openDevice_without_adcClkDiv hparse hnone (by decide) (by simp) rfl⟩

end Sim

end PixieSdk
