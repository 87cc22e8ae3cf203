import PixieSdk.Crate.State

/-! # `config::export_json`

`export_json` refreshes each module's variable caches from the DSP and writes one object
per module: a `metadata` object, the words of every module variable that is not read-only
under `module.input`, and the words of every channel variable that is not read-only, over
all channels one channel after the other, under `channel.input`. The metadata is modelled as
far as `import_json` reads it; the serial number, firmware, FIFO and fixture entries are
left out. -/

namespace PixieSdk

/-! ## One module -/

/-- A cached word as `export_json` assigns it: `param::value_type` is unsigned. -/
def wordJson (w : Word) : Json :=
  .numberUnsigned w.toNat

/-- Modelled from the spec: `module::revision_label()`, the revision's tag letter, `A` for
revision 10 and on. -/
def Module.revisionLabel (m : Module) : Char :=
  Char.ofNat ('A'.toNat + m.revision - 10)

/-- The `metadata` object `export_json` writes for a module, as far as its fields are
modelled: `number`, `slot`, `hardware_revision` and `num-channels`. -/
def exportMetadata (m : Module) : Json :=
  Json.ofAssignments [("number", .numberInteger m.number), ("slot", .numberInteger m.slot),
    ("hardware_revision", .string (String.singleton m.revisionLabel)),
    ("num-channels", .numberUnsigned m.numChannels)]

/-- The value `export_json` writes for a module variable: its one word, or its words pushed
into an array. -/
def exportModuleValue (desc : VarDesc) (cells : List Cell) : Json :=
  if desc.size = 1 then wordJson (cells.getD 0 ⟨0, false⟩).value
  else Json.ofPushBacks (cells.map (wordJson ∘ Cell.value))

/-- The pairs `export_json` assigns for one descriptor table: every variable that is not
read-only, by name, with the value `value` gives it from the variable's data. -/
def exportItems {β : Type} (descs : List VarDesc) (data : List β) (value : VarDesc → β → Json) :
    List (String × Json) :=
  (descs.zip data).filterMap fun p =>
    if p.1.mode = .ro then none else some (p.1.name, value p.1 p.2)

theorem mem_exportItems {β : Type} {descs : List VarDesc} {data : List β}
    {value : VarDesc → β → Json} {p : String × Json} :
    p ∈ exportItems descs data value ↔ ∃ (j : ℕ) (d : VarDesc) (x : β),
      descs[j]? = some d ∧ data[j]? = some x ∧ d.mode ≠ .ro ∧ p = (d.name, value d x) := by
  simp only [exportItems, List.mem_filterMap]
  constructor
  · rintro ⟨⟨d, x⟩, hm, hp⟩
    obtain ⟨j, hj⟩ := List.mem_iff_getElem?.mp hm
    obtain ⟨hd, hx⟩ := List.getElem?_zip_eq_some.mp hj
    split at hp
    · cases hp
    · next hro => exact ⟨j, d, x, hd, hx, hro, (Option.some.inj hp).symm⟩
  · rintro ⟨j, d, x, hd, hx, hro, rfl⟩
    exact ⟨(d, x), List.mem_iff_getElem?.mpr ⟨j, List.getElem?_zip_eq_some.mpr ⟨hd, hx⟩⟩,
      by simp [hro]⟩

theorem keys_exportItems_sublist {β : Type} (value : VarDesc → β → Json) :
    ∀ (descs : List VarDesc) (data : List β),
      List.Sublist (Json.keys (exportItems descs data value)) (descs.map VarDesc.name)
  | [], _ => by simp [exportItems, Json.keys]
  | _ :: _, [] => by simp [exportItems, Json.keys]
  | d :: descs, x :: data => by
    have ih := keys_exportItems_sublist value descs data
    simp only [exportItems, List.zip_cons_cons, List.filterMap_cons, List.map_cons] at ih ⊢
    by_cases hro : d.mode = .ro
    · simp only [hro, ite_true]
      exact ih.cons _
    · simp only [hro, ite_false, Json.keys, List.map_cons]
      exact ih.cons₂ _

theorem nodup_keys_exportItems {β : Type} (value : VarDesc → β → Json) (t : VarDescs)
    (data : List β) : (Json.keys (exportItems t.descs data value)).Nodup :=
  t.names_nodup.sublist (keys_exportItems_sublist value t.descs data)

theorem name_mem_exportItems {β : Type} (t : VarDescs) {data : List β}
    {value : VarDesc → β → Json} {j : ℕ} {d : VarDesc} {x : β} (hd : t.descs[j]? = some d)
    (hx : data[j]? = some x) (hw : d.writeable = true) :
    d.name ∈ (Json.ofAssignments (exportItems t.descs data value)).items.map Prod.fst := by
  have hro : d.mode ≠ .ro := fun h => by simp [d.ro_not_writeable h] at hw
  exact List.mem_map_of_mem Prod.fst ((Json.mem_items_ofAssignments
    (nodup_keys_exportItems value t data) _).mpr (mem_exportItems.mpr ⟨j, d, x, hd, hx, hro, rfl⟩))

/-- The words of channel variable `var` over every channel, channel by channel. -/
def channelWords (m : Module) (var : ℕ) : List Json :=
  m.channels.flatMap fun chan => (chan.getD var []).map (wordJson ∘ Cell.value)

/-- The value `export_json` writes for channel variable `var`: its words over every channel
pushed into one array. -/
def exportChannelValue (m : Module) (var : ℕ) : Json :=
  Json.ofPushBacks (channelWords m var)

/-- The pairs of the `module.input` object: every module variable that is not read-only. -/
def exportModuleItems (m : Module) : List (String × Json) :=
  exportItems m.moduleVarDescriptors.descs m.moduleVars exportModuleValue

/-- The pairs of the `channel.input` object: every channel variable that is not read-only,
found by its position `desc.par`. -/
def exportChannelItems (m : Module) : List (String × Json) :=
  exportItems m.channelVarDescriptors.descs (List.range m.channelVarDescriptors.descs.length)
    fun _ var => exportChannelValue m var

/-- The configuration object `export_json` writes for a module. -/
def exportModule (m : Module) : Json :=
  Json.ofAssignments [("metadata", exportMetadata m),
    ("module", .object [("input", Json.ofAssignments (exportModuleItems m))]),
    ("channel", .object [("input", Json.ofAssignments (exportChannelItems m))])]

/-! ## The crate -/

/-- The loop of `export_json`: each module's caches are refreshed from the DSP
(`sync_vars(sync_from_dsp)`, modelled by `sync`), then its object is built. A refresh that
throws leaves the loop. -/
def exportLoop (sync : Module → Except Exception Module) :
    List Module → List Module × Except Exception (List Json)
  | [] => ([], .ok [])
  | m :: rest =>
    match sync m with
    | .error e => (m :: rest, .error e)
    | .ok m' =>
      let r := exportLoop sync rest
      (m' :: r.1, r.2.map (exportModule m' :: ·))

/-- `config::export_json(filename, crate)`: the document is built over `modules`, then the
file is opened (`file` says whether that succeeds) and the document written. -/
def exportJson (filename : String) (file : Except String Unit)
    (sync : Module → Except Exception Module) (c : Crate) : Crate × Except Exception Json :=
  match exportLoop sync c.modules with
  | (ms, .error e) => ({ c with modules := ms }, .error e)
  | (ms, .ok docs) =>
    match file with
    | .error reason =>
      ({ c with modules := ms },
        .error (.pixie .fileOpenFailure ("opening json config: " ++ filename ++ ": " ++ reason)))
    | .ok () => ({ c with modules := ms }, .ok (Json.ofPushBacks docs))

theorem exportLoop_ok (sync : Module → Except Exception Module) :
    ∀ {ms ms' : List Module} {docs : List Json}, exportLoop sync ms = (ms', .ok docs) →
      docs = ms'.map exportModule
  | [], _, _, h => by
    simp only [exportLoop, Prod.mk.injEq, Except.ok.injEq] at h
    simp [← h.1, ← h.2]
  | m :: rest, ms', docs, h => by
    cases hs : sync m with
    | error e => simp [exportLoop, hs] at h
    | ok m' =>
      rcases hr : exportLoop sync rest with ⟨r1, _ | docs'⟩
      · simp [exportLoop, hs, hr, Except.map] at h
      · simp only [exportLoop, hs, hr, Except.map, Prod.mk.injEq, Except.ok.injEq] at h
        rw [← h.1, ← h.2, exportLoop_ok sync hr, List.map_cons]

theorem exportJson_ok {filename : String} {file : Except String Unit}
    {sync : Module → Except Exception Module} {c c' : Crate} {J : Json}
    (h : exportJson filename file sync c = (c', .ok J)) :
    J = Json.ofPushBacks (c'.modules.map exportModule) := by
  unfold exportJson at h
  split at h
  · simp at h
  · next ms docs heq =>
    split at h
    · simp at h
    · simp only [Prod.mk.injEq, Except.ok.injEq] at h
      rw [← h.1, ← h.2, exportLoop_ok sync heq]

end PixieSdk
