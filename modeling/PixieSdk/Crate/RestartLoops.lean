import PixieSdk.Crate.Invariants

/-! # The restart loops of `move_offlines` and `assign`

Both loops scan `modules` from the start, take the first module their test picks out of
`modules`, and scan again, until a scan picks none. Each pass takes one module, so the loop
ends after one pass per picked module and a last empty scan, whatever bound the model gives
it; what it leaves is the stable partition of `modules` by the test. -/

namespace PixieSdk

/-! ## Taking the first picked element -/

section Partition

variable {α : Type} {p : α → Bool}

theorem filter_not_eraseP (l : List α) :
    (l.eraseP p).filter (fun a => !p a) = l.filter (fun a => !p a) := by
  induction l with
  | nil => rfl
  | cons a l ih => by_cases h : p a <;> simp [List.eraseP_cons, h, ih]

theorem filter_of_find? {l : List α} {m : α} (h : l.find? p = some m) :
    l.filter p = m :: (l.eraseP p).filter p := by
  induction l with
  | nil => cases h
  | cons a l ih =>
    by_cases ha : p a
    · rw [List.find?_cons_of_pos _ ha] at h
      cases h
      simp [ha]
    · rw [List.find?_cons_of_neg _ ha] at h
      simp [ha, ih h]

theorem countP_eraseP_of_find? {l : List α} {m : α} (h : l.find? p = some m) :
    (l.eraseP p).countP p + 1 = l.countP p := by
  simp only [List.countP_eq_length_filter, filter_of_find? h, List.length_cons]

theorem filter_eq_nil_of_find? {l : List α} (h : l.find? p = none) : l.filter p = [] := by
  simpa using List.find?_eq_none.mp h

end Partition

/-! ## `move_offlines` -/

theorem moveOfflinesLoop_eq :
    ∀ (fuel : ℕ) (c : Crate) (calls : List Call), c.modules.countP (!·.online) < fuel →
      moveOfflinesLoop fuel c calls =
        ({ c with modules := c.modules.filter (·.online),
                  offline := c.offline ++ c.modules.filter (!·.online) },
          calls ++ (c.modules.filter (!·.online)).map (Call.backplaneOffline ∘ Module.id))
  | 0, _, _, h => absurd h (Nat.not_lt_zero _)
  | fuel + 1, c, calls, h => by
    unfold moveOfflinesLoop
    split
    · next hnone =>
      have hoff := filter_eq_nil_of_find? hnone
      have hon : c.modules.filter (·.online) = c.modules := by
        rw [List.filter_eq_self]
        simpa using List.find?_eq_none.mp hnone
      simp [hoff, hon]
    · next m hm =>
      have hcount := countP_eraseP_of_find? hm
      rw [moveOfflinesLoop_eq fuel _ _ (by simp only at hcount ⊢; omega)]
      have hkeep := filter_not_eraseP (p := (!·.online)) c.modules
      simp only [Bool.not_not] at hkeep
      simp [hkeep, filter_of_find? hm]

/-- `move_offlines` ends, and leaves the two-phase stable partition: `modules` keeps its online
modules, `offline` gains the others in their order, the backplane is told of each moved module
once, in that order, and `num_modules` counts what stays. -/
theorem moveOfflines_partition (c : Crate) :
    (∀ fuel, c.modules.countP (!·.online) < fuel →
      moveOfflinesLoop fuel c [] =
        ({ c with modules := c.modules.filter (·.online),
                  offline := c.offline ++ c.modules.filter (!·.online) },
          (c.modules.filter (!·.online)).map (Call.backplaneOffline ∘ Module.id))) ∧
    moveOfflines c =
      ⟨{ c with modules := c.modules.filter (·.online),
                offline := c.offline ++ c.modules.filter (!·.online),
                numModules := (c.modules.filter (·.online)).length },
        (c.modules.filter (!·.online)).map (Call.backplaneOffline ∘ Module.id), .returned ()⟩ := by
  have hloop (fuel : ℕ) (h : c.modules.countP (!·.online) < fuel) := moveOfflinesLoop_eq fuel c [] h
  refine ⟨hloop, ?_⟩
  have hbound : c.modules.countP (!·.online) < c.modules.length + 1 :=
    Nat.lt_succ_of_le (List.countP_le_length _)
  simp [moveOfflines, hloop _ hbound]

/-! ## `assign` -/

theorem eraseP_id_of_find? {p : Module → Bool} {ms : List Module} (hnd : (Crate.ids ms).Nodup)
    {m : Module} (h : ms.find? p = some m) : ms.eraseP (·.id = m.id) = ms.eraseP p := by
  induction ms with
  | nil => cases h
  | cons a ms ih =>
    simp only [Crate.ids_cons, List.nodup_cons] at hnd
    by_cases ha : p a
    · rw [List.find?_cons_of_pos _ ha] at h
      cases h
      simp [ha]
    · rw [List.find?_cons_of_neg _ ha] at h
      have hne : a.id ≠ m.id := fun he =>
        hnd.1 (he ▸ List.mem_map_of_mem _ (List.mem_of_find?_eq_some h))
      simp [ha, hne, ih hnd.2 h]

theorem setOffline_of_find? {p : Module → Bool} {c : Crate} (hnd : (Crate.ids c.modules).Nodup)
    {m : Module} (h : c.modules.find? p = some m) :
    setOffline m.id c =
      ⟨{ c with modules := c.modules.eraseP p, offline := c.offline ++ [m.forceOffline],
                numModules := (c.modules.eraseP p).length }, [.forceOffline m.id], .returned ()⟩ := by
  simp [setOffline, find?_id_of_mem hnd (List.mem_of_find?_eq_some h), eraseP_id_of_find? hnd h]

theorem ids_nodup_eraseP {p : Module → Bool} {ms : List Module} (hnd : (Crate.ids ms).Nodup) :
    (Crate.ids (ms.eraseP p)).Nodup :=
  hnd.sublist ((List.eraseP_sublist ms).map _)

theorem unassignLoop_offline (closeOutcome : ℕ → Except Exception Unit) :
    ∀ (fuel : ℕ) (c : Crate) (calls : List Call), (Crate.ids c.modules).Nodup →
      c.modules.countP (·.number = -1) < fuel →
      (unassignLoop false closeOutcome fuel c calls).1.modules =
          c.modules.filter (·.number ≠ -1) ∧
        (unassignLoop false closeOutcome fuel c calls).1.offline =
          c.offline ++ (c.modules.filter (·.number = -1)).map Module.forceOffline ∧
        (unassignLoop false closeOutcome fuel c calls).2 =
          (calls ++ (c.modules.filter (·.number = -1)).map (Call.forceOffline ∘ Module.id), .ok ())
  | 0, _, _, _, h => absurd h (Nat.not_lt_zero _)
  | fuel + 1, c, calls, hnd, h => by
    unfold unassignLoop
    split
    · next hnone =>
      have hne : ∀ a ∈ c.modules, ¬a.number = -1 := by simpa using List.find?_eq_none.mp hnone
      have hk : c.modules.filter (fun x : Module => !decide (x.number = -1)) = c.modules :=
        List.filter_eq_self.mpr fun a ha => by simpa using hne a ha
      simp [filter_eq_nil_of_find? hnone, hk]
    · next m hm =>
      have hcount := countP_eraseP_of_find? hm
      have hs := setOffline_of_find? hnd hm
      have ih := unassignLoop_offline closeOutcome fuel (setOffline m.id c).crate
        (calls ++ [.forceOffline m.id]) (by rw [hs]; exact ids_nodup_eraseP hnd)
        (by rw [hs]; simp only; omega)
      have hkeep := filter_not_eraseP (p := (·.number = -1)) c.modules
      simp only [Bool.false_eq_true, ite_false, hs] at ih ⊢
      simp only [decide_not] at hkeep ih ⊢
      refine ⟨ih.1.trans hkeep, ?_, ?_⟩
      · rw [ih.2.1, filter_of_find? hm]
        simp
      · rw [ih.2.2, filter_of_find? hm]
        simp

theorem unassignLoop_close (closeOutcome : ℕ → Except Exception Unit) :
    ∀ (fuel : ℕ) (c : Crate) (calls : List Call), c.modules.countP (·.number = -1) < fuel →
      (∀ m ∈ c.modules, m.number = -1 → closeOutcome m.id = .ok ()) →
      unassignLoop true closeOutcome fuel c calls =
        ({ c with modules := c.modules.filter (·.number ≠ -1) },
          calls ++ (c.modules.filter (·.number = -1)).map (Call.close ∘ Module.id), .ok ())
  | 0, _, _, h, _ => absurd h (Nat.not_lt_zero _)
  | fuel + 1, c, calls, h, hclose => by
    unfold unassignLoop
    split
    · next hnone =>
      have hne : ∀ a ∈ c.modules, ¬a.number = -1 := by simpa using List.find?_eq_none.mp hnone
      have hk : c.modules.filter (fun x : Module => !decide (x.number = -1)) = c.modules :=
        List.filter_eq_self.mpr fun a ha => by simpa using hne a ha
      simp [filter_eq_nil_of_find? hnone, hk]
    · next m hm =>
      have hcount := countP_eraseP_of_find? hm
      have hmem := List.mem_of_find?_eq_some hm
      have hok := hclose m hmem (by simpa using List.find?_some hm)
      have hkeep := filter_not_eraseP (p := (·.number = -1)) c.modules
      simp only [decide_not] at hkeep ⊢
      simp only [ite_true, hok]
      rw [unassignLoop_close closeOutcome fuel _ _ (by simp only; omega)
        fun m' hm' => hclose m' ((List.eraseP_sublist _).subset hm')]
      simp [hkeep, filter_of_find? hm]

theorem setOffline_modules_sublist (id : ℕ) (c : Crate) :
    (setOffline id c).crate.modules.Sublist c.modules := by
  unfold setOffline
  split
  · exact .refl _
  · exact List.eraseP_sublist _

theorem unassignLoop_sublist (close : Bool) (closeOutcome : ℕ → Except Exception Unit) :
    ∀ (fuel : ℕ) (c : Crate) (calls : List Call),
      (unassignLoop close closeOutcome fuel c calls).1.modules.Sublist c.modules
  | 0, _, _ => .refl _
  | fuel + 1, c, calls => by
    unfold unassignLoop
    split
    · exact .refl _
    · split
      · split
        · exact (unassignLoop_sublist close closeOutcome fuel _ _).trans (List.eraseP_sublist _)
        · exact .refl _
      · dsimp only
        split
        · exact setOffline_modules_sublist _ c
        · exact (unassignLoop_sublist close closeOutcome fuel _ _).trans
            (setOffline_modules_sublist _ c)

theorem assignLocked_threw {numbers : List (ℤ × ℤ)} {close : Bool}
    {closeOutcome : ℕ → Except Exception Unit} {c : Crate} {e : Exception}
    (h : (assignLocked numbers close closeOutcome c).exit = .threw e) :
    (assignLocked numbers close closeOutcome c).crate.numModules =
        (assignLocked numbers close closeOutcome c).crate.modules.length ∧
      ∃ rem : List Module, rem.Sublist (assignNumbers numbers c.modules) ∧
        (assignLocked numbers close closeOutcome c).crate.modules = setNumberBySlot rem := by
  have hsub := unassignLoop_sublist close closeOutcome ((assignNumbers numbers c.modules).length + 1)
    { c with modules := assignNumbers numbers c.modules } []
  revert h
  unfold assignLocked
  dsimp only
  split
  · intro h
    cases h
  · next c2 _ _ heq =>
    rw [heq] at hsub
    exact fun _ => ⟨(length_setNumberBySlot _).symm, c2.modules, hsub, rfl⟩

/-- On a ready crate of distinct modules whose closes return, `assign` takes each module numbered -1
out of `modules` in order (closed, or forced offline into `offline`), orders the rest by number and
recounts; an exception renumbers by slot first. A crate not ready throws unchanged. -/
theorem assign_removes_unassigned (numbers : List (ℤ × ℤ)) (close : Bool)
    (closeOutcome : ℕ → Except Exception Unit) (c : Crate) (hnd : (Crate.ids c.modules).Nodup) :
    (c.ready = true →
      ((close = true →
          ∀ m ∈ assignNumbers numbers c.modules, m.number = -1 → closeOutcome m.id = .ok ()) →
        (assign numbers close closeOutcome c).exit = .returned () ∧
        (assign numbers close closeOutcome c).crate.modules =
          orderByNumber ((assignNumbers numbers c.modules).filter (·.number ≠ -1)) ∧
        (assign numbers close closeOutcome c).crate.numModules =
          (assign numbers close closeOutcome c).crate.modules.length ∧
        (assign numbers close closeOutcome c).crate.offline =
          (if close then c.offline else c.offline ++
            ((assignNumbers numbers c.modules).filter (·.number = -1)).map Module.forceOffline) ∧
        (assign numbers close closeOutcome c).calls =
          ((assignNumbers numbers c.modules).filter (·.number = -1)).map
            (fun m => if close then Call.close m.id else Call.forceOffline m.id)) ∧
      ∀ e, (assign numbers close closeOutcome c).exit = .threw e →
        (assign numbers close closeOutcome c).crate.numModules =
            (assign numbers close closeOutcome c).crate.modules.length ∧
          ∃ rem : List Module, rem.Sublist (assignNumbers numbers c.modules) ∧
            (assign numbers close closeOutcome c).crate.modules = setNumberBySlot rem) ∧
    (c.ready = false →
      assign numbers close closeOutcome c =
        ⟨c, [], .threw (.pixie .crateNotReady "crate is not ready")⟩) := by
  refine ⟨fun hready => ?_, fun hready => Crate.whenReady_of_not_ready hready _⟩
  simp only [assign, Crate.whenReady_of_ready hready]
  refine ⟨fun hclose => ?_, fun _ h => assignLocked_threw h⟩
  have hnd1 : (Crate.ids (assignNumbers numbers c.modules)).Nodup :=
    (ids_assignNumbers numbers c.modules) ▸ hnd
  have hfuel : (assignNumbers numbers c.modules).countP (·.number = -1) <
      (assignNumbers numbers c.modules).length + 1 :=
    Nat.lt_succ_of_le (List.countP_le_length _)
  cases close with
  | false =>
    obtain ⟨hm, ho, hr⟩ := unassignLoop_offline closeOutcome _
      { c with modules := assignNumbers numbers c.modules } [] hnd1 hfuel
    rcases hres : unassignLoop false closeOutcome ((assignNumbers numbers c.modules).length + 1)
      { c with modules := assignNumbers numbers c.modules } [] with ⟨c2, calls, r⟩
    rw [hres] at hm ho hr
    obtain ⟨rfl, rfl⟩ := Prod.mk.inj hr
    simp only at hm ho
    simp [assignLocked, hres, hm, ho, orderByNumber]
  | true =>
    simp [assignLocked, unassignLoop_close closeOutcome _
      { c with modules := assignNumbers numbers c.modules } [] hfuel (hclose rfl), orderByNumber]

/-- A ready crate of two modules, in slots 1 and 2. -/
def slotsOneTwo : Crate :=
  { Crate.new with
    modules := [{ Module.fresh 0 with slot := 1 }, { Module.fresh 1 with slot := 2 }]
    numModules := 2, ready := true, nextId := 2 }

theorem assign_removes_unassigned_slot_two :
    (Crate.ids slotsOneTwo.modules).Nodup ∧
      (assign [(0, 1)] false (fun _ => .ok ()) slotsOneTwo).crate.offline.map Module.id = [1] := by
  refine ⟨by decide, ?_⟩
  rw [(((assign_removes_unassigned [(0, 1)] false (fun _ => .ok ()) slotsOneTwo
    (by decide)).1 rfl).1 (by simp)).2.2.2.1]
  decide

/-- After an initialize and a shutdown, `assign` throws `crate_not_ready` before its `try`
block: `num_modules` is not recounted and still counts the closed module. -/
theorem assign_not_ready_keeps_count :
    (assign [] false (fun _ => .ok ()) initializedThenShutDown).exit =
        .threw (.pixie .crateNotReady "crate is not ready") ∧
      (assign [] false (fun _ => .ok ()) initializedThenShutDown).crate.numModules = 1 ∧
      (assign [] false (fun _ => .ok ()) initializedThenShutDown).crate.modules = [] := by
  decide

end PixieSdk
