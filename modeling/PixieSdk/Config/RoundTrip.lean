import PixieSdk.Config.Export
import PixieSdk.Config.Import

/-! # Exporting and importing a configuration

Importing the document `export_json` wrote restores the caches it was written from: every
writable module variable and every writable channel variable of every channel takes the
exported words, and `SlotID` and `ModNum` take the importing module's own slot and number.
The proof follows the two traversals item by item. Loading one exported item writes exactly
the cache it names (`loadModuleVar_exported`, `loadChannelVar_exported`), so loading a
module's items in their `std::map` order writes every writable cache they name
(`forEach_loadModuleVar_exported`, `forEach_loadChannelVar_exported`), and the crate loop
loads module `i` from object `i` (`forEach_importModule_loads`). -/

namespace PixieSdk

/-! ## List lemmas -/

theorem mapIdx_eq_self {α : Type} {f : ℕ → α → α} {l : List α}
    (h : ∀ i x, l[i]? = some x → f i x = x) : l.mapIdx f = l :=
  List.mapIdx_eq_iff.mpr fun i => by
    cases hx : l[i]? with
    | none => rfl
    | some x => simp [h i x hx]

theorem getElem?_foldl_modify_range {α : Type} (g : ℕ → α → α) :
    ∀ (n : ℕ) (xs : List α) (i : ℕ),
      ((List.range n).foldl (fun xs v => xs.modify (g v) v) xs)[i]? =
        if i < n then xs[i]?.map (g i) else xs[i]?
  | 0, xs, i => by simp
  | n + 1, xs, i => by
    rw [List.range_succ, List.foldl_append, List.foldl_cons, List.foldl_nil, List.getElem?_modify,
      getElem?_foldl_modify_range g n xs i]
    by_cases hi : i < n
    · simp [hi, show n ≠ i by omega, show i < n + 1 by omega]
    · by_cases hn : n = i
      · subst hn
        simp
      · simp [hi, hn, show ¬ i < n + 1 by omega]

theorem foldl_modify_same {α β : Type} (g : β → α → α) (j : ℕ) :
    ∀ (vs : List β) (xs : List α),
      vs.foldl (fun xs v => xs.modify (g v) j) xs = xs.modify (fun x => vs.foldl (fun x v => g v x) x) j
  | [], xs => (List.modify_id j xs).symm
  | v :: vs, xs => by
    rw [List.foldl_cons, foldl_modify_same g j vs, List.modify_modify_eq]
    rfl

theorem modify_eq_set_of_getElem? {α : Type} [Inhabited α] {xs : List α} {j : ℕ} {x : α}
    (h : xs[j]? = some x) (f : α → α) : xs.modify f j = xs.set j (f x) := by
  rw [List.modify_eq_set, h]
  rfl

theorem getElem?_flatMap_uniform {α β : Type} (f : α → List β) {n v : ℕ} (hv : v < n) :
    ∀ (l : List α), (∀ x ∈ l, (f x).length = n) → ∀ (k : ℕ) (x : α), l[k]? = some x →
      (l.flatMap f)[k * n + v]? = (f x)[v]?
  | [], _, _, _, h => by simp at h
  | a :: l, hl, 0, x, h => by
    simp only [List.getElem?_cons_zero, Option.some.injEq] at h
    subst h
    rw [List.flatMap_cons, Nat.zero_mul, Nat.zero_add,
      List.getElem?_append_left (by rw [hl a (List.mem_cons_self _ _)]; exact hv)]
  | a :: l, hl, k + 1, x, h => by
    have ha := hl a (List.mem_cons_self _ _)
    have hidx : (k + 1) * n + v = k * n + v + n := by rw [Nat.succ_mul]; omega
    rw [List.flatMap_cons, hidx, List.getElem?_append_right (by omega), ha, Nat.add_sub_cancel]
    rw [List.getElem?_cons_succ] at h
    exact getElem?_flatMap_uniform f hv l (fun y hy => hl y (List.mem_cons_of_mem _ hy)) k x h

theorem length_flatMap_uniform {α β : Type} (f : α → List β) {n : ℕ} :
    ∀ (l : List α), (∀ x ∈ l, (f x).length = n) → (l.flatMap f).length = l.length * n
  | [], _ => by simp
  | a :: l, hl => by
    rw [List.flatMap_cons, List.length_append, hl a (List.mem_cons_self _ _),
      length_flatMap_uniform f l (fun y hy => hl y (List.mem_cons_of_mem _ hy)), List.length_cons,
      Nat.succ_mul, Nat.add_comm]

/-! ## Cache shapes and variable writes -/

/-- Caches that fit a descriptor table: one per variable, each of the variable's size. -/
structure Fits (descs : List VarDesc) (vars : List (List Cell)) : Prop where
  length_eq : vars.length = descs.length
  size_eq : ∀ {j : ℕ} {d : VarDesc} {cur : List Cell}, descs[j]? = some d → vars[j]? = some cur →
    cur.length = d.size

theorem Fits.getElem? {descs : List VarDesc} {vars : List (List Cell)} (h : Fits descs vars)
    {j : ℕ} {d : VarDesc} (hd : descs[j]? = some d) : ∃ cur, vars[j]? = some cur ∧ cur.length = d.size := by
  obtain ⟨hj, -⟩ := List.getElem?_eq_some_iff.mp hd
  have hj' : j < vars.length := h.length_eq ▸ hj
  exact ⟨vars[j], List.getElem?_eq_getElem hj', h.size_eq hd (List.getElem?_eq_getElem hj')⟩

theorem Fits.set {descs : List VarDesc} {vars : List (List Cell)} (h : Fits descs vars)
    {j : ℕ} {d : VarDesc} (hd : descs[j]? = some d) {cells : List Cell}
    (hc : cells.length = d.size) : Fits descs (vars.set j cells) where
  length_eq := by simp [h.length_eq]
  size_eq {i} {d'} {cur} hd' hcur := by
    rw [List.getElem?_set] at hcur
    split at hcur
    · next hij =>
      subst hij
      rw [hd] at hd'
      cases hd'
      split at hcur <;> simp_all
    · exact h.size_eq hd' hcur

theorem Fits.write {descs : List VarDesc} {vars : List (List Cell)} (h : Fits descs vars)
    (var offset : ℕ) (w : Word) : Fits descs (writeCell vars var offset w) where
  length_eq := by simp [writeCell, h.length_eq]
  size_eq {j} {_} {_} hd hcur := by
    by_cases hj : var = j
    · subst hj
      rw [writeCell, List.getElem?_modify_eq] at hcur
      obtain ⟨c, hc, rfl⟩ := Option.map_eq_some'.mp hcur
      simp [h.size_eq hd hc]
    · rw [writeCell, List.getElem?_modify_ne _ _ hj] at hcur
      exact h.size_eq hd hcur

theorem Fits.of_forall₂ {descs : List VarDesc} {vars : List (List Cell)}
    (h : List.Forall₂ (fun d cur => cur.length = d.size) descs vars) : Fits descs vars where
  length_eq := h.length_eq.symm
  size_eq {j} {_} {_} hd hcur := by
    obtain ⟨hj, rfl⟩ := List.getElem?_eq_some_iff.mp hd
    obtain ⟨hj', rfl⟩ := List.getElem?_eq_some_iff.mp hcur
    exact h.get hj hj'

/-- The channel caches fit the channel descriptors, one list of caches per channel. -/
structure ChannelsFit (m : Module) : Prop where
  length_eq : m.channels.length = m.numChannels
  fits : ∀ chan ∈ m.channels, Fits m.channelVarDescriptors.descs chan

theorem ChannelsFit.getElem? {m : Module} (h : ChannelsFit m) {ch j : ℕ} {d : VarDesc}
    (hch : ch < m.numChannels) (hd : m.channelVarDescriptors.descs[j]? = some d) :
    ∃ chan cur, m.channels[ch]? = some chan ∧ chan[j]? = some cur ∧ cur.length = d.size := by
  have hch' : ch < m.channels.length := h.length_eq ▸ hch
  obtain ⟨cur, hcur, hl⟩ := (h.fits _ (List.getElem_mem hch')).getElem? hd
  exact ⟨_, cur, List.getElem?_eq_getElem hch', hcur, hl⟩

/-- A module whose caches fit its descriptor tables. -/
structure Module.Shaped (m : Module) : Prop where
  moduleVars : Fits m.moduleVarDescriptors.descs m.moduleVars
  channels : ChannelsFit m

theorem Module.Shaped.setModuleVar {m : Module} (h : m.Shaped) (var offset : ℕ) (w : Word) :
    (m.setModuleVar var offset w).Shaped :=
  ⟨h.moduleVars.write var offset w, ⟨h.channels.length_eq, h.channels.fits⟩⟩

theorem Module.Shaped.setChannelVar {m : Module} (h : m.Shaped) (ch var offset : ℕ) (w : Word) :
    (m.setChannelVar ch var offset w).Shaped := by
  refine ⟨h.moduleVars, ⟨by simp [Module.setChannelVar, h.channels.length_eq], fun chan hc => ?_⟩⟩
  obtain ⟨i, hi⟩ := List.mem_iff_getElem?.mp hc
  by_cases hci : ch = i
  · subst hci
    rw [Module.setChannelVar, List.getElem?_modify_eq] at hi
    obtain ⟨c, hc', rfl⟩ := Option.map_eq_some'.mp hi
    exact (h.channels.fits c (List.getElem?_mem hc')).write var offset w
  · rw [Module.setChannelVar, List.getElem?_modify_ne _ _ hci] at hi
    exact h.channels.fits chan (List.getElem?_mem hi)

/-- `m'` is reached from `m` by `write_var` calls on its module and channel variables. -/
inductive Module.Writes (m : Module) : Module → Prop
  | refl : Module.Writes m m
  | moduleVar {m' : Module} (var offset : ℕ) (w : Word) :
    Module.Writes m m' → Module.Writes m (m'.setModuleVar var offset w)
  | channelVar {m' : Module} (ch var offset : ℕ) (w : Word) :
    Module.Writes m m' → Module.Writes m (m'.setChannelVar ch var offset w)

theorem Module.Writes.varsOnly {m m' : Module} (h : m.Writes m') : Module.VarsOnly m m' := by
  induction h with
  | refl => exact .refl m
  | moduleVar _ _ _ _ ih => exact ih.trans rfl
  | channelVar _ _ _ _ _ ih => exact ih.trans rfl

theorem Module.Writes.shaped {m m' : Module} (h : m.Writes m') (h0 : m.Shaped) : m'.Shaped := by
  induction h with
  | refl => exact h0
  | moduleVar var offset w _ ih => exact ih.setModuleVar var offset w
  | channelVar ch var offset w _ ih => exact ih.setChannelVar ch var offset w

/-! ## Module variables -/

/-- A variable's cells after an import wrote each of them from `cells`: the values of
`cells`, every one dirty. -/
def written (cells : List Cell) : List Cell :=
  cells.map fun c => ⟨c.value, true⟩

/-- The words of `cells`, pushed into an array. -/
def wordArray (cells : List Cell) : Json :=
  .array (cells.map fun c => .numberUnsigned c.value.toNat)

theorem writeModuleWord_wordArray (key : String) (var : ℕ) (m : Module) {cells : List Cell}
    {v : ℕ} (hv : v < cells.length) :
    writeModuleWord key (wordArray cells) var m v =
      (m.setModuleVar var v (cells[v]).value, .ok ()) := by
  simp [writeModuleWord, wordArray, @Json.atIndex_array (cells.map _) v (by simpa using hv),
    bind, Except.bind]

theorem written_eq_of_length {cells cur : List Cell} (h : cur.length = cells.length) :
    (List.range cells.length).foldl
      (fun xs v => xs.modify (fun _ => ⟨(cells.getD v ⟨0, false⟩).value, true⟩) v) cur =
      written cells := by
  apply List.ext_getElem?
  intro i
  rw [getElem?_foldl_modify_range]
  split
  · next hi => simp [written, hi, h ▸ hi, List.getD_eq_getElem?_getD]
  · next hi =>
    simp [written, List.getElem?_eq_none (h ▸ (not_lt.mp hi) : cur.length ≤ i),
      List.getElem?_eq_none (not_lt.mp hi)]

theorem foldl_setModuleVar (var : ℕ) (w : ℕ → Word) :
    ∀ (vs : List ℕ) (m : Module), vs.foldl (fun m v => m.setModuleVar var v (w v)) m =
      { m with moduleVars := vs.foldl (fun xs v => writeCell xs var v (w v)) m.moduleVars }
  | [], _ => rfl
  | _ :: vs, _ => foldl_setModuleVar var w vs _

theorem forEach_writeModuleWord (key : String) (var : ℕ) (m : Module) {cells cur : List Cell}
    (hcur : m.moduleVars[var]? = some cur) (hlen : cur.length = cells.length) :
    forEach (writeModuleWord key (wordArray cells) var) m (List.range cells.length) =
      ({ m with moduleVars := m.moduleVars.set var (written cells) }, .ok ()) := by
  rw [forEach_eq_foldl (fun m v => m.setModuleVar var v (cells.getD v ⟨0, false⟩).value) _ _
    (fun m v hv => by
      rw [writeModuleWord_wordArray key var m (List.mem_range.mp hv)]
      simp [List.getD_eq_getElem?_getD, List.getElem?_eq_getElem (List.mem_range.mp hv)]),
    foldl_setModuleVar]
  simp only [writeCell, foldl_modify_same]
  rw [modify_eq_set_of_getElem? hcur, written_eq_of_length hlen]

/-- What an import of an exported module variable leaves in its cells: `SlotID` and `ModNum`
of one word take the module's slot and number, every other variable the exported words. -/
def importedCells (m : Module) (desc : VarDesc) (cells : List Cell) : List Cell :=
  if desc.size = 1 ∧ desc.name = "SlotID" then [⟨wordOfInt m.slot, true⟩]
  else if desc.size = 1 ∧ desc.name = "ModNum" then [⟨wordOfInt m.number, true⟩]
  else written cells

theorem ofPushBacks_wordJson {cells : List Cell} (h : cells ≠ []) :
    Json.ofPushBacks (cells.map (wordJson ∘ Cell.value)) = wordArray cells := by
  obtain ⟨c, cs, rfl⟩ := List.exists_cons_of_ne_nil h
  rfl

theorem size_exportModuleValue (desc : VarDesc) {cells : List Cell} (h : cells.length = desc.size) :
    (exportModuleValue desc cells).size = desc.size := by
  unfold exportModuleValue
  split
  · next h1 => rw [h1]; rfl
  · rw [ofPushBacks_wordJson (List.ne_nil_of_length_pos (h ▸ desc.size_pos))]
    simp [wordArray, h]

theorem setModuleVar_single {m : Module} {j : ℕ} {cur : List Cell} (hcur : m.moduleVars[j]? = some cur)
    (hlen : cur.length = 1) (w : Word) :
    m.setModuleVar j 0 w = { m with moduleVars := m.moduleVars.set j [⟨w, true⟩] } := by
  obtain ⟨c, rfl⟩ : ∃ c, cur = [c] := List.length_eq_one.mp hlen
  simp only [Module.setModuleVar, writeCell, modify_eq_set_of_getElem? hcur, List.modify_zero_cons]

theorem loadModuleVar_exported {m : Module} {j : ℕ} {desc : VarDesc} {cells cur : List Cell}
    (hdesc : m.moduleVarDescriptors.descs[j]? = some desc) (hcur : m.moduleVars[j]? = some cur)
    (hcur_len : cur.length = desc.size) (hlen : cells.length = desc.size) :
    loadModuleVar m (desc.name, exportModuleValue desc cells) =
      (if desc.writeable then
        { m with moduleVars := m.moduleVars.set j (importedCells m desc cells) } else m, .ok ()) := by
  obtain ⟨hl, hv⟩ := VarDescs.lookup_of_getElem? hdesc
  simp only [loadModuleVar, hl, hv, hdesc, size_exportModuleValue desc hlen, bne_self_eq_false,
    Bool.or_false]
  cases hw : desc.writeable
  · rfl
  · simp only [Bool.not_true, Bool.false_eq_true, ite_false, ite_true]
    by_cases h1 : 1 < desc.size
    · have hne : cells ≠ [] := List.ne_nil_of_length_pos (by omega)
      rw [if_pos h1, exportModuleValue, if_neg (by omega), ofPushBacks_wordJson hne, ← hlen,
        forEach_writeModuleWord _ _ m hcur (by omega), importedCells, if_neg (by omega),
        if_neg (by omega)]
    · have hs : desc.size = 1 := by have := desc.size_pos; omega
      rw [if_neg h1]
      unfold importedCells
      by_cases hslot : desc.name = "SlotID"
      · rw [if_pos hslot, setModuleVar_single hcur (hcur_len.trans hs), if_pos ⟨hs, hslot⟩]
      · rw [if_neg hslot]
        by_cases hnum : desc.name = "ModNum"
        · rw [if_pos hnum, setModuleVar_single hcur (hcur_len.trans hs), if_neg (by tauto),
            if_pos ⟨hs, hnum⟩]
        · obtain ⟨c, rfl⟩ : ∃ c, cells = [c] := List.length_eq_one.mp (hlen.trans hs)
          rw [if_neg hnum, exportModuleValue, if_pos hs]
          simp only [wordJson, Json.toWord_numberUnsigned_toNat, List.getD_cons_zero]
          rw [setModuleVar_single hcur (hcur_len.trans hs), if_neg (by tauto), if_neg (by tauto)]
          rfl

theorem length_importedCells (m : Module) {d : VarDesc} {cells : List Cell}
    (h : cells.length = d.size) : (importedCells m d cells).length = d.size := by
  unfold importedCells
  split
  · next h1 => simp [h1.1]
  · split
    · next _ h2 => simp [h2.1]
    · simp [written, h]

/-- The cache `j` an import leaves when it writes `E j` into the cache of each writable
variable named in `names`, and leaves every other cache. -/
def importedCache (descs : List VarDesc) (E : ℕ → List Cell) (names : List String) (j : ℕ)
    (cells : List Cell) : List Cell :=
  match descs[j]? with
  | some d => if d.writeable ∧ d.name ∈ names then E j else cells
  | none => cells

section importedCache

variable {t : VarDescs} {E : ℕ → List Cell} {vars : List (List Cell)} {j : ℕ} {d : VarDesc}

theorem mapIdx_importedCache_nil : vars.mapIdx (importedCache t.descs E []) = vars := by
  apply List.ext_getElem?
  intro i
  simp only [List.getElem?_mapIdx]
  cases vars[i]? <;> simp only [Option.map_none', Option.map_some', importedCache]
  split <;> simp

theorem importedCache_cons_of_ne (names : List String) (hd : t.descs[j]? = some d) {i : ℕ}
    (hij : i ≠ j) : importedCache t.descs E (d.name :: names) i = importedCache t.descs E names i := by
  funext cells
  unfold importedCache
  split
  · next d' hd' =>
    have hne : d'.name ≠ d.name := fun h => hij (VarDescs.eq_of_name_eq hd' hd h)
    simp [List.mem_cons, hne]
  · rfl

theorem mapIdx_importedCache_skip (names : List String) (hd : t.descs[j]? = some d)
    (hw : d.writeable = false) :
    vars.mapIdx (importedCache t.descs E names) =
      vars.mapIdx (importedCache t.descs E (d.name :: names)) := by
  apply List.ext_getElem?
  intro i
  simp only [List.getElem?_mapIdx]
  by_cases hij : i = j
  · subst hij
    have h : ∀ ns, importedCache t.descs E ns i = id := fun ns => funext fun c => by
      simp [importedCache, hd, hw]
    rw [h, h]
  · rw [importedCache_cons_of_ne names hd hij]

theorem mapIdx_importedCache_set (names : List String) (hd : t.descs[j]? = some d)
    (hw : d.writeable = true) :
    (vars.set j (E j)).mapIdx (importedCache t.descs E names) =
      vars.mapIdx (importedCache t.descs E (d.name :: names)) := by
  apply List.ext_getElem?
  intro i
  simp only [List.getElem?_mapIdx, List.getElem?_set]
  by_cases hij : j = i
  · subst hij
    have h1 : ∀ c, importedCache t.descs E (d.name :: names) j c = E j := fun c => by
      simp [importedCache, hd, hw]
    have h2 : importedCache t.descs E names j (E j) = E j := by
      simp only [importedCache, hd]
      split <;> rfl
    rw [if_pos rfl]
    cases h : vars[j]? with
    | none => simp [List.getElem?_eq_none_iff.mp h]
    | some c => simp [(List.getElem?_eq_some_iff.mp h).1, h1, h2]
  · rw [if_neg hij, importedCache_cons_of_ne names hd (Ne.symm hij)]

end importedCache

/-- The cells an import of `m0`'s exported module variables leaves in cache `j` of `m`. -/
def importedModuleCells (m0 m : Module) (j : ℕ) : List Cell :=
  match m.moduleVarDescriptors.descs[j]? with
  | some d => importedCells m d (m0.moduleVars.getD j [])
  | none => []

theorem forEach_loadModuleVar_exported {m0 : Module}
    (h0 : Fits m0.moduleVarDescriptors.descs m0.moduleVars) :
    ∀ (L : List (String × Json)) (m : Module),
      m.moduleVarDescriptors = m0.moduleVarDescriptors →
      Fits m.moduleVarDescriptors.descs m.moduleVars →
      (∀ p ∈ L, p ∈ exportItems m0.moduleVarDescriptors.descs m0.moduleVars exportModuleValue) →
      forEach loadModuleVar m L =
        ({ m with moduleVars := (m.moduleVars.mapIdx (importedCache m.moduleVarDescriptors.descs
            (importedModuleCells m0 m) (L.map Prod.fst))) }, .ok ())
  | [], m, _, _, _ => by simp [mapIdx_importedCache_nil]
  | p :: L, m, hdescs, hfit, hL => by
    obtain ⟨j, d, cells0, hd0, hc0, -, rfl⟩ := mem_exportItems.mp (hL p (List.mem_cons_self _ _))
    have hd : m.moduleVarDescriptors.descs[j]? = some d := hdescs ▸ hd0
    obtain ⟨cur, hcur, hcurlen⟩ := hfit.getElem? hd
    have hlen0 : cells0.length = d.size := h0.size_eq hd0 hc0
    have hE : importedModuleCells m0 m j = importedCells m d cells0 := by
      simp [importedModuleCells, hd, List.getD_eq_getElem?_getD, hc0]
    have hL' : ∀ q ∈ L, q ∈ exportItems m0.moduleVarDescriptors.descs m0.moduleVars
        exportModuleValue := fun q hq => hL q (List.mem_cons_of_mem _ hq)
    rw [forEach_cons_ok L (loadModuleVar_exported hd hcur hcurlen hlen0), List.map_cons]
    cases hw : d.writeable
    · rw [if_neg (by simp), forEach_loadModuleVar_exported h0 L m hdescs hfit hL',
        mapIdx_importedCache_skip _ hd hw]
    · rw [if_pos rfl, forEach_loadModuleVar_exported h0 L
        { m with moduleVars := m.moduleVars.set j (importedCells m d cells0) } hdescs
        (hfit.set hd (length_importedCells m hlen0)) hL', ← hE]
      exact congrArg (fun vars => ({ m with moduleVars := vars }, Except.ok ()))
        (mapIdx_importedCache_set _ hd hw)

/-! ## Channel variables -/

theorem ChannelsFit.length_words {m : Module} (h : ChannelsFit m) {j : ℕ} {d : VarDesc}
    (hd : m.channelVarDescriptors.descs[j]? = some d) :
    ∀ chan ∈ m.channels, ((chan.getD j []).map (wordJson ∘ Cell.value)).length = d.size :=
  fun chan hc => by
    obtain ⟨cur, hcur, hl⟩ := (h.fits chan hc).getElem? hd
    simp [List.getD_eq_getElem?_getD, hcur, hl]

theorem length_channelWords {m : Module} (h : ChannelsFit m) {j : ℕ} {d : VarDesc}
    (hd : m.channelVarDescriptors.descs[j]? = some d) :
    (channelWords m j).length = m.numChannels * d.size := by
  rw [← h.length_eq, channelWords, length_flatMap_uniform _ _ (h.length_words hd)]

theorem channelsWritten_all (n : ℕ) {size : ℕ} (hs : 0 < size) :
    channelsWritten n n size (n * size) = List.range n := by
  unfold channelsWritten
  rw [List.takeWhile_eq_self_iff]
  intro ch hch
  have hch := List.mem_range.mp hch
  simp only [Bool.and_eq_true, decide_eq_true_eq]
  exact ⟨hch, Nat.mul_lt_mul_of_pos_right hch hs⟩

/-- The cell word `v` of channel `ch`'s cache of variable `var`. -/
def channelWord (m : Module) (ch var v : ℕ) : Word :=
  (((m.channels.getD ch []).getD var []).getD v ⟨0, false⟩).value

theorem writeChannelWord_exported (key : String) {m0 : Module} (h0 : ChannelsFit m0) {j : ℕ}
    {d : VarDesc} (hd : m0.channelVarDescriptors.descs[j]? = some d) (m : Module) {ch v : ℕ}
    (hch : ch < m0.numChannels) (hv : v < d.size) :
    writeChannelWord key (exportChannelValue m0 j) j d.size ch m v =
      (m.setChannelVar ch j v (channelWord m0 ch j v), .ok ()) := by
  obtain ⟨chan, cur, hchan, hcur, hcl⟩ := h0.getElem? hch hd
  have hidx : ch * d.size + v < (channelWords m0 j).length := by
    rw [length_channelWords h0 hd]
    calc ch * d.size + v < ch * d.size + d.size := by omega
      _ = (ch + 1) * d.size := (Nat.succ_mul _ _).symm
      _ ≤ m0.numChannels * d.size := Nat.mul_le_mul_right _ hch
  have hword := getElem?_flatMap_uniform _ hv m0.channels (h0.length_words hd) ch chan hchan
  have hne : channelWords m0 j ≠ [] := List.ne_nil_of_length_pos (by omega)
  obtain ⟨x, xs, hx⟩ := List.exists_cons_of_ne_nil hne
  unfold writeChannelWord exportChannelValue
  rw [hx, Json.ofPushBacks, ← hx, Json.atIndex_array hidx]
  rw [← channelWords, List.getElem?_eq_getElem hidx] at hword
  have hv' : v < cur.length := hcl ▸ hv
  have hw : (channelWords m0 j)[ch * d.size + v] = wordJson (channelWord m0 ch j v) := by
    simp only [List.getD_eq_getElem?_getD, hcur, Option.getD_some, List.getElem?_map,
      List.getElem?_eq_getElem hv', Option.map_some', Option.some.injEq] at hword
    simp [hword, channelWord, List.getD_eq_getElem?_getD, hchan, hcur, List.getElem?_eq_getElem hv']
  simp [hw, bind, Except.bind, wordJson]

theorem foldl_modify_channels (G : ℕ → List (List Cell) → List (List Cell)) :
    ∀ (vs : List ℕ) (m : Module),
      vs.foldl (fun m v => { m with channels := m.channels.modify (G v) v }) m =
        { m with channels := vs.foldl (fun chans v => chans.modify (G v) v) m.channels }
  | [], _ => rfl
  | _ :: vs, _ => foldl_modify_channels G vs _

theorem foldl_setChannelVar (ch var : ℕ) (w : ℕ → Word) :
    ∀ (vs : List ℕ) (m : Module), vs.foldl (fun m v => m.setChannelVar ch var v (w v)) m =
      { m with channels := vs.foldl (fun chans v =>
          chans.modify (fun vars => writeCell vars var v (w v)) ch) m.channels }
  | [], _ => rfl
  | _ :: vs, _ => foldl_setChannelVar ch var w vs _

/-- The cells of channel `ch` of variable `var` an import of `m0`'s export writes. -/
def importedChannelCells (m0 : Module) (ch var : ℕ) : List Cell :=
  written ((m0.channels.getD ch []).getD var [])

theorem loadChannelVar_exported (metadata : Json) {m m0 : Module} {j : ℕ} {d : VarDesc}
    (hd : m.channelVarDescriptors.descs[j]? = some d) (hfit : ChannelsFit m) (h0 : ChannelsFit m0)
    (hdescs : m.channelVarDescriptors = m0.channelVarDescriptors)
    (hn : m.numChannels = m0.numChannels) :
    loadChannelVar metadata m (d.name, exportChannelValue m0 j) =
      (if d.writeable then { m with channels := (m.channels.mapIdx fun ch vars =>
        vars.set j (importedChannelCells m0 ch j)) } else m, .ok ()) := by
  have hd0 : m0.channelVarDescriptors.descs[j]? = some d := hdescs ▸ hd
  obtain ⟨hl, hv⟩ := VarDescs.lookup_of_getElem? hd
  have hsize : (exportChannelValue m0 j).size = m0.numChannels * d.size := by
    rw [exportChannelValue, Json.size_ofPushBacks, length_channelWords h0 hd0]
  have hpos := d.size_pos
  simp only [loadChannelVar, hl, hv, hd, hsize, Nat.mul_mod_left, Nat.mul_div_cancel _ hpos, hn,
    lt_irrefl, ite_false, bne_self_eq_false, Bool.or_false]
  cases hw : d.writeable
  · rfl
  · simp only [Bool.not_true, Bool.false_eq_true, ite_false, ite_true,
      channelsWritten_all _ hpos]
    let G (ch : ℕ) (vars : List (List Cell)) : List (List Cell) :=
      vars.modify (fun cells => (List.range d.size).foldl
        (fun cs v => cs.modify (fun _ => ⟨channelWord m0 ch j v, true⟩) v) cells) j
    have hinner : ∀ (m' : Module), ∀ ch ∈ List.range m0.numChannels,
        forEach (writeChannelWord d.name (exportChannelValue m0 j) j d.size ch) m'
          (List.range d.size) = ({ m' with channels := m'.channels.modify (G ch) ch }, .ok ()) := by
      intro m' ch hch
      rw [forEach_eq_foldl (fun m v => m.setChannelVar ch j v (channelWord m0 ch j v)) _ _
        (fun m v hv => writeChannelWord_exported d.name h0 hd0 m (List.mem_range.mp hch)
          (List.mem_range.mp hv)), foldl_setChannelVar]
      simp only [writeCell, foldl_modify_same]
    rw [forEach_eq_foldl _ _ _ hinner, foldl_modify_channels]
    have hlen : m.channels.length = m0.numChannels := hfit.length_eq.trans hn
    congr 2
    apply List.ext_getElem?
    intro i
    rw [getElem?_foldl_modify_range, List.getElem?_mapIdx]
    split
    · next hi =>
      obtain ⟨vars, cur, hvars, hcur, hcl⟩ := hfit.getElem? (hn ▸ hi) hd
      obtain ⟨chan0, c0, hchan0, hc0, hc0l⟩ := h0.getElem? hi hd0
      have hcells : (m0.channels.getD i []).getD j [] = c0 := by
        simp [List.getD_eq_getElem?_getD, hchan0, hc0]
      rw [hvars, Option.map_some', Option.map_some']
      simp only [G, modify_eq_set_of_getElem? hcur, importedChannelCells, channelWord]
      rw [hcells, ← hc0l, written_eq_of_length (hcl.trans hc0l.symm)]
    · next hi =>
      rw [List.getElem?_eq_none (by omega)]
      rfl

theorem length_importedChannelCells {m0 : Module} (h0 : ChannelsFit m0) {ch j : ℕ} {d : VarDesc}
    (hd : m0.channelVarDescriptors.descs[j]? = some d) (hch : ch < m0.numChannels) :
    (importedChannelCells m0 ch j).length = d.size := by
  obtain ⟨chan0, c0, hchan0, hc0, hc0l⟩ := h0.getElem? hch hd
  simp [importedChannelCells, written, List.getD_eq_getElem?_getD, hchan0, hc0, hc0l]

theorem ChannelsFit.setImported {m m0 : Module} (hfit : ChannelsFit m) (h0 : ChannelsFit m0)
    (hdescs : m.channelVarDescriptors = m0.channelVarDescriptors)
    (hn : m.numChannels = m0.numChannels) {j : ℕ} {d : VarDesc}
    (hd : m.channelVarDescriptors.descs[j]? = some d) :
    ChannelsFit { m with channels := (m.channels.mapIdx fun ch vars =>
      vars.set j (importedChannelCells m0 ch j)) } where
  length_eq := by simp [hfit.length_eq]
  fits chan hchan := by
    obtain ⟨i, hi, rfl⟩ := List.mem_mapIdx.mp hchan
    exact (hfit.fits _ (List.getElem_mem _)).set hd
      (length_importedChannelCells h0 (hdescs ▸ hd) (by rw [← hn, ← hfit.length_eq]; exact hi))

theorem forEach_loadChannelVar_exported (metadata : Json) {m0 : Module} (h0 : ChannelsFit m0) :
    ∀ (L : List (String × Json)) (m : Module),
      m.channelVarDescriptors = m0.channelVarDescriptors → m.numChannels = m0.numChannels →
      ChannelsFit m →
      (∀ p ∈ L, p ∈ exportItems m0.channelVarDescriptors.descs
        (List.range m0.channelVarDescriptors.descs.length) fun _ var => exportChannelValue m0 var) →
      forEach (loadChannelVar metadata) m L =
        ({ m with channels := (m.channels.mapIdx fun ch vars => vars.mapIdx
            (importedCache m.channelVarDescriptors.descs (importedChannelCells m0 ch)
              (L.map Prod.fst))) }, .ok ())
  | [], m, _, _, _, _ => by
    simp only [List.map_nil, mapIdx_importedCache_nil, forEach_nil]
    rw [mapIdx_eq_self fun _ _ _ => rfl]
  | p :: L, m, hdescs, hn, hfit, hL => by
    obtain ⟨j, d, x, hd0, hx, -, rfl⟩ := mem_exportItems.mp (hL p (List.mem_cons_self _ _))
    obtain ⟨_, hxj⟩ := List.getElem?_eq_some_iff.mp hx
    rw [List.getElem_range] at hxj
    subst hxj
    have hd : m.channelVarDescriptors.descs[j]? = some d := hdescs ▸ hd0
    have hL' : ∀ q ∈ L, q ∈ exportItems m0.channelVarDescriptors.descs
        (List.range m0.channelVarDescriptors.descs.length) fun _ var => exportChannelValue m0 var :=
      fun q hq => hL q (List.mem_cons_of_mem _ hq)
    rw [forEach_cons_ok L (loadChannelVar_exported metadata hd hfit h0 hdescs hn), List.map_cons]
    cases hw : d.writeable
    · rw [if_neg (by simp), forEach_loadChannelVar_exported metadata h0 L m hdescs hn hfit hL']
      congr 3
      funext ch vars
      exact mapIdx_importedCache_skip _ hd hw
    · rw [if_pos rfl, forEach_loadChannelVar_exported metadata h0 L
        { m with channels := (m.channels.mapIdx fun ch vars =>
          vars.set j (importedChannelCells m0 ch j)) } hdescs hn
        (hfit.setImported h0 hdescs hn hd) hL']
      congr 2
      rw [List.mapIdx_mapIdx]
      congr 1
      funext ch vars
      exact mapIdx_importedCache_set _ hd hw

/-! ## One module -/

theorem loadModule_exportModule {m m0 : Module} (hv : Module.VarsOnly m0 m) (h : m.Shaped)
    (h0 : m0.Shaped) :
    loadModule m (exportModule m0) =
      ({ m with
        moduleVars := m.moduleVars.mapIdx (importedCache m.moduleVarDescriptors.descs
          (importedModuleCells m0 m) ((Json.ofAssignments (exportModuleItems m0)).items.map Prod.fst))
        channels := (m.channels.mapIdx fun ch vars => vars.mapIdx
          (importedCache m.channelVarDescriptors.descs (importedChannelCells m0 ch)
            ((Json.ofAssignments (exportChannelItems m0)).items.map Prod.fst))) }, .ok ()) := by
  have hkeys : (Json.keys [("metadata", exportMetadata m0),
      ("module", Json.object [("input", Json.ofAssignments (exportModuleItems m0))]),
      ("channel", Json.object [("input", Json.ofAssignments (exportChannelItems m0))])]).Nodup := by
    simp [Json.keys]
  have hmkeys : (Json.keys [("number", Json.numberInteger m0.number),
      ("slot", Json.numberInteger m0.slot),
      ("hardware_revision", Json.string (String.singleton m0.revisionLabel)),
      ("num-channels", Json.numberUnsigned m0.numChannels)]).Nodup := by
    simp [Json.keys]
  have hcontains (key : String) (hk : key ∈ ["metadata", "module", "channel"]) :
      (exportModule m0).contains key = true :=
    (Json.contains_ofAssignments hkeys (by simp) key).mpr (by simpa [Json.keys] using hk)
  have hmeta : (exportModule m0).get "metadata" = exportMetadata m0 :=
    Json.get_ofAssignments hkeys (by simp)
  have hmod : (exportModule m0).get "module" =
      .object [("input", Json.ofAssignments (exportModuleItems m0))] :=
    Json.get_ofAssignments hkeys (by simp)
  have hchan : (exportModule m0).get "channel" =
      .object [("input", Json.ofAssignments (exportChannelItems m0))] :=
    Json.get_ofAssignments hkeys (by simp)
  have hrev : (exportMetadata m0).atKey "hardware_revision" =
      .ok (.string (String.singleton m0.revisionLabel)) :=
    Json.atKey_ofAssignments hmkeys (by simp)
  have hslot : (exportMetadata m0).atKey "slot" = .ok (.numberInteger m0.slot) :=
    Json.atKey_ofAssignments hmkeys (by simp)
  obtain ⟨hdm, hdc, hn⟩ := hv.tables
  unfold loadModule
  simp only [hcontains "metadata" (by simp), hcontains "module" (by simp),
    hcontains "channel" (by simp), hmeta, hmod, hchan, hrev, hslot, Bool.not_true,
    Bool.false_eq_true, ite_false]
  simp only [Json.contains, Json.get, List.any_cons, List.any_nil,
    beq_self_eq_true, Bool.true_or, List.lookup_cons, Option.getD_some, bind, Except.bind,
    Json.getString, Bool.not_true, Bool.false_eq_true, ite_false]
  unfold exportModuleItems exportChannelItems
  rw [forEach_loadModuleVar_exported h0.moduleVars _ m hdm h.moduleVars
    (fun p hp => (Json.mem_items_ofAssignments (nodup_keys_exportItems _ _ _) p).mp hp)]
  simp only
  exact forEach_loadChannelVar_exported _ h0.channels _ _ hdc hn
    ⟨h.channels.length_eq, h.channels.fits⟩
    (fun p hp => (Json.mem_items_ofAssignments (nodup_keys_exportItems _ _ _) p).mp hp)

def Module.moduleValues (m : Module) (j : ℕ) : Option (List Word) :=
  m.moduleVars[j]?.map (List.map Cell.value)

/-- The words of channel variable `j` on channel `ch`. -/
def Module.channelValues (m : Module) (ch j : ℕ) : Option (List Word) :=
  (m.channels[ch]?.bind (·[j]?)).map (List.map Cell.value)

/-- What importing the configuration exported from `m0` sets in `m`: every writable module
variable holds `m0`'s words, except that a one-word `SlotID` or `ModNum` holds `m`'s own slot
or number, and every writable channel variable holds `m0`'s words on every channel. -/
structure Restored (m0 m : Module) : Prop where
  moduleVar : ∀ {j : ℕ} {d : VarDesc}, m.moduleVarDescriptors.descs[j]? = some d →
    d.writeable = true →
    m.moduleValues j =
      if d.size = 1 ∧ d.name = "SlotID" then some [wordOfInt m.slot]
      else if d.size = 1 ∧ d.name = "ModNum" then some [wordOfInt m.number]
      else m0.moduleValues j
  channelVar : ∀ {ch j : ℕ} {d : VarDesc}, ch < m.numChannels →
    m.channelVarDescriptors.descs[j]? = some d → d.writeable = true →
    m.channelValues ch j = m0.channelValues ch j

theorem importedCache_of_mem {descs : List VarDesc} {E : ℕ → List Cell} {names : List String}
    {j : ℕ} {d : VarDesc} (hd : descs[j]? = some d) (hw : d.writeable = true)
    (hn : d.name ∈ names) (cells : List Cell) : importedCache descs E names j cells = E j := by
  simp [importedCache, hd, hw, hn]

theorem restored_loadModule_exportModule {m m0 : Module} (hv : Module.VarsOnly m0 m)
    (h : m.Shaped) (h0 : m0.Shaped) : Restored m0 (loadModule m (exportModule m0)).1 := by
  obtain ⟨hdm, hdc, hn⟩ := hv.tables
  rw [loadModule_exportModule hv h h0]
  constructor
  · intro j d hd hw
    dsimp only at hd
    obtain ⟨cur, hcur, -⟩ := h.moduleVars.getElem? hd
    obtain ⟨cur0, hcur0, -⟩ := h0.moduleVars.getElem? (hdm ▸ hd)
    have hmem : d.name ∈ (Json.ofAssignments (exportModuleItems m0)).items.map Prod.fst :=
      name_mem_exportItems m0.moduleVarDescriptors (hdm ▸ hd) hcur0 hw
    simp only [Module.moduleValues, List.getElem?_mapIdx, hcur, Option.map_some',
      importedCache_of_mem hd hw hmem, importedModuleCells, hd, hcur0,
      List.getD_eq_getElem?_getD, Option.getD_some]
    unfold importedCells
    split_ifs <;> simp [written]
  · intro ch j d hch hd hw
    dsimp only at hd hch
    obtain ⟨chan, cur, hchan, hcur, -⟩ := h.channels.getElem? hch hd
    obtain ⟨chan0, cur0, hchan0, hcur0, -⟩ := h0.channels.getElem? (hn ▸ hch) (hdc ▸ hd)
    have hmem : d.name ∈ (Json.ofAssignments (exportChannelItems m0)).items.map Prod.fst :=
      name_mem_exportItems m0.channelVarDescriptors (hdc ▸ hd)
        (List.getElem?_range ((List.getElem?_eq_some_iff.mp (hdc ▸ hd)).1)) hw
    simp only [Module.channelValues, List.getElem?_mapIdx, hchan, hchan0, Option.map_some',
      Option.some_bind, hcur, hcur0, importedCache_of_mem hd hw hmem, importedChannelCells,
      List.getD_eq_getElem?_getD, Option.getD_some, written, List.map_map]
    rfl

/-! ## The crate -/

theorem forEach_importModule_loads (docs : List Json) (c : Crate) (loaded : List (ℤ × ℤ))
    (hn : c.numModules = c.modules.length)
    (hload : ∀ i m, c.modules[i]? = some m →
      m.online = true ∧ (loadModule m (docs.getD i defaultConfig)).2 = .ok ()) :
    ∀ k ≤ c.modules.length,
      forEach (fun s i => importModule i (docs.getD i defaultConfig) s) (c, loaded) (List.range k) =
        (({ c with modules := c.modules.mapIdx fun i m =>
            if i < k then (loadModule m (docs.getD i defaultConfig)).1 else m },
          loaded ++ (c.modules.take k).map fun m => (m.number, m.slot)), .ok ())
  | 0, _ => by
    simp only [List.range_zero, forEach_nil, Nat.not_lt_zero, ite_false, List.take_zero,
      List.map_nil, List.append_nil]
    rw [mapIdx_eq_self fun _ _ _ => rfl]
  | k + 1, hk => by
    obtain ⟨m, hm⟩ : ∃ m, c.modules[k]? = some m := ⟨_, List.getElem?_eq_getElem (by omega)⟩
    obtain ⟨hon, hok⟩ := hload k m hm
    obtain ⟨m', hm'⟩ : ∃ m', loadModule m (docs.getD k defaultConfig) = (m', .ok ()) :=
      ⟨_, Prod.ext rfl hok⟩
    have hv : Module.VarsOnly m m' := by
      have := loadModule_varsOnly m (docs.getD k defaultConfig)
      rwa [hm'] at this
    rw [List.range_succ, forEach_append_ok _ _ (forEach_importModule_loads docs c loaded hn hload k
      (by omega))]
    simp only [forEach, importModule, Crate.indexSize, hn, if_neg (show ¬ c.modules.length ≤ k by omega),
      List.getElem?_mapIdx, hm, Option.map_some', lt_irrefl, ite_false, hon, Bool.not_true,
      Bool.false_eq_true, hm', List.take_succ, List.map_append, List.append_assoc]
    congr 3
    · apply List.ext_getElem?
      intro i
      simp only [List.getElem?_set, List.getElem?_mapIdx, List.length_mapIdx]
      split
      · next hik =>
        subst hik
        simp only [show k < c.modules.length by omega, Nat.lt_add_one, if_true, hm, hm',
          Option.map_some']
      · next hik => cases c.modules[i]? <;> simp [Nat.lt_succ_iff_lt_or_eq, Ne.symm hik]
    · simp [hm, hv.congr Module.number fun _ _ => rfl, hv.congr Module.slot fun _ _ => rfl]

theorem importJson_ofPushBacks (filename : String) (docs : List Json) (s : Loaded)
    (hn : s.1.numModules = docs.length) :
    importJson filename (.document (Json.ofPushBacks docs)) s =
      forEach (fun s i => importModule i (docs.getD i defaultConfig) s) s
        (List.range docs.length) := by
  cases docs with
  | nil => simp [Json.ofPushBacks, importJson, padConfig, Json.size, hn, Json.elements, importLoop]
  | cons d ds =>
    simp only [Json.ofPushBacks, importJson, padConfig_array, hn, Nat.sub_self,
      List.replicate_zero, List.append_nil, Json.elements]
    rw [importLoop_eq_forEach _ _ 0 s (by simp), List.range_eq_range']
    simp only [Nat.sub_zero]

/-- Exporting a crate whose modules are online and then importing the document into any
state of their caches restores every writable variable, gives `SlotID` and `ModNum` the
module's own slot and number, and appends every module to `loaded`. -/
theorem importJson_exportJson (filename filename' : String) (file : Except String Unit)
    (sync : Module → Except Exception Module) (loaded : List (ℤ × ℤ)) {S S1 S' : Crate}
    {J : Json} (hexport : exportJson filename file sync S = (S1, .ok J))
    (hS1 : ∀ m ∈ S1.modules, m.online = true ∧ m.Shaped)
    (hwrites : List.Forall₂ Module.VarsOnly S1.modules S'.modules)
    (hS' : ∀ m ∈ S'.modules, m.Shaped) (hn : S'.numModules = S'.modules.length) :
    ∃ S'' : Crate, importJson filename' (.document J) (S', loaded) =
        ((S'', loaded ++ S'.modules.map fun m => (m.number, m.slot)), .ok ()) ∧
      Crate.InPlace S' S'' ∧ List.Forall₂ Restored S1.modules S''.modules := by
  have hlen := hwrites.length_eq
  have hpair : ∀ (i : ℕ) (m : Module), S'.modules[i]? = some m → ∃ m0, S1.modules[i]? = some m0 ∧
      Module.VarsOnly m0 m ∧ m0.online = true ∧ m0.Shaped ∧ m.Shaped := by
    intro i m hm
    obtain ⟨hi, rfl⟩ := List.getElem?_eq_some_iff.mp hm
    have hi1 : i < S1.modules.length := hlen ▸ hi
    have h1 := hS1 _ (List.getElem_mem hi1)
    exact ⟨_, List.getElem?_eq_getElem hi1, hwrites.get hi1 hi, h1.1, h1.2,
      hS' _ (List.getElem_mem hi)⟩
  have hdoc : ∀ (i : ℕ) (m0 : Module), S1.modules[i]? = some m0 →
      (S1.modules.map exportModule).getD i defaultConfig = exportModule m0 := by
    intro i m0 h
    simp [List.getD_eq_getElem?_getD, h]
  have hload : ∀ (i : ℕ) (m : Module), S'.modules[i]? = some m → m.online = true ∧
      (loadModule m ((S1.modules.map exportModule).getD i defaultConfig)).2 = .ok () := by
    intro i m hm
    obtain ⟨m0, hm0, hv, hon, h0, h⟩ := hpair i m hm
    rw [hdoc i m0 hm0, loadModule_exportModule hv h h0]
    exact ⟨(hv.congr Module.online fun _ _ => rfl).trans hon, rfl⟩
  have heq := forEach_importModule_loads _ S' loaded hn hload _ le_rfl
  rw [List.take_length, ← show (S1.modules.map exportModule).length = S'.modules.length by
    simp [hlen], ← importJson_ofPushBacks filename' _ _ (by simp [hn, hlen]),
    ← exportJson_ok hexport] at heq
  refine ⟨_, heq, ?_, List.forall₂_iff_get.mpr ⟨by simp [hlen], fun i h1 h2 => ?_⟩⟩
  · have := importJson_inPlace filename' (.document J) (S', loaded)
    rwa [heq] at this
  · have hi : i < S'.modules.length := by simpa using h2
    obtain ⟨m0, hm0, hv, -, h0, h⟩ := hpair i _ (List.getElem?_eq_getElem hi)
    have h1m : S1.modules.get ⟨i, h1⟩ = m0 := by simpa [List.getElem?_eq_getElem h1] using hm0
    simp only [h1m, List.get_eq_getElem, List.getElem_mapIdx, List.length_map, hlen, if_pos hi,
      hdoc i _ hm0]
    exact restored_loadModule_exportModule hv h h0

/-- A module variable table with the slot word, a one-word control register and the
four-word trigger configuration, and a channel variable table with one threshold word. -/
def witnessModule : Module :=
  { Module.fresh 0 with
    slot := 2, number := 0, revision := 15, devicePresent := true, present := true,
    online := true, numChannels := 2
    moduleVarDescriptors := ⟨[⟨"ModCSRA", .rw, true, 1, by decide, by decide⟩,
      ⟨"SlotID", .rw, true, 1, by decide, by decide⟩,
      ⟨"TrigConfig", .rw, true, 4, by decide, by decide⟩], by decide⟩
    channelVarDescriptors := ⟨[⟨"FastThresh", .rw, true, 1, by decide, by decide⟩], by decide⟩
    moduleVars := [[⟨0, false⟩], [⟨2, false⟩], [⟨1, false⟩, ⟨2, false⟩, ⟨3, false⟩, ⟨4, false⟩]]
    channels := [[[⟨1000, false⟩]], [[⟨1200, false⟩]]] }

theorem witnessModule_shaped : witnessModule.Shaped :=
  ⟨Fits.of_forall₂ (.cons rfl (.cons rfl (.cons rfl .nil))),
    ⟨rfl, by simpa [witnessModule] using ⟨Fits.of_forall₂ (.cons rfl .nil),
      Fits.of_forall₂ (.cons rfl .nil)⟩⟩⟩

theorem witnessModule_writes :
    witnessModule.Writes ((witnessModule.setModuleVar 0 0 7).setChannelVar 1 0 0 900) :=
  (Module.Writes.refl.moduleVar 0 0 7).channelVar 1 0 0 900

/-- A ready crate holding `witnessModule`. -/
def witnessCrate : Crate :=
  { Crate.new with numModules := 1, modules := [witnessModule], ready := true, nextId := 1 }

/-- `witnessCrate` after the writes of `witnessModule_writes`. -/
def witnessCrateWritten : Crate :=
  { witnessCrate with modules := [(witnessModule.setModuleVar 0 0 7).setChannelVar 1 0 0 900] }

theorem importJson_exportJson_one_module :
    ∃ S'' : Crate, importJson "config.json"
        (.document (Json.ofPushBacks [exportModule witnessModule])) (witnessCrateWritten, []) =
        ((S'', [] ++ witnessCrateWritten.modules.map fun m => (m.number, m.slot)), .ok ()) ∧
      Crate.InPlace witnessCrateWritten S'' ∧ List.Forall₂ Restored witnessCrate.modules S''.modules :=
  importJson_exportJson "config.json" "config.json" (.ok ()) .ok []
    (show exportJson "config.json" (.ok ()) .ok witnessCrate =
      (witnessCrate, .ok (Json.ofPushBacks [exportModule witnessModule])) from rfl)
    (by simpa [witnessCrate] using ⟨rfl, witnessModule_shaped⟩)
    (.cons witnessModule_writes.varsOnly .nil)
    (by simpa [witnessCrateWritten] using witnessModule_writes.shaped witnessModule_shaped) rfl

end PixieSdk
