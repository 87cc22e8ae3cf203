import PixieSdk.Json

/-! # Variable descriptors and variable caches

A module keeps two tables of DSP variable descriptors, one for module variables and one
for channel variables, and a cache of every variable's words. The descriptor type and the
variable writes live in `param.hpp` and `module.cpp`, which are not part of the sources;
they are modelled from the spec. -/

namespace PixieSdk

/-- A variable's access mode; the configuration code tests only for `param::ro`. -/
inductive Mode where
  | rw
  | ro
  deriving DecidableEq, Repr

/-- Modelled from the spec: `param::variable_desc`, declared in the missing `param.hpp`. A
descriptor has a name, a length in words, a mode and a writable flag (`writeable()`). A
variable has at least one word, and a read-only variable is never writable. -/
structure VarDesc where
  name : String
  mode : Mode
  writeable : Bool
  size : ℕ
  size_pos : 0 < size
  ro_not_writeable : mode = .ro → writeable = false
  deriving DecidableEq

/-- A descriptor table: a variable's enum value is its position. Names are distinct, so
`param::lookup_module_var` and `param::lookup_channel_var` find one variable. -/
structure VarDescs where
  descs : List VarDesc
  names_nodup : (descs.map VarDesc.name).Nodup
  deriving DecidableEq

namespace VarDescs

/-- `param::is_module_var` and `param::is_channel_var`. -/
def isVar (t : VarDescs) (key : String) : Bool :=
  t.descs.any (·.name == key)

/-- `param::lookup_module_var` and `param::lookup_channel_var`: the variable's enum value. -/
def lookup (t : VarDescs) (key : String) : ℕ :=
  t.descs.findIdx (·.name == key)

def empty : VarDescs :=
  ⟨[], List.nodup_nil⟩

theorem lookup_name {t : VarDescs} {i : ℕ} (hi : i < t.descs.length) :
    t.lookup t.descs[i].name = i := by
  rw [lookup, List.findIdx_eq hi]
  refine ⟨by simp, fun j hji => ?_⟩
  simp only [beq_eq_false_iff_ne, ne_eq]
  intro he
  have := (@List.Nodup.getElem_inj_iff _ _ t.names_nodup j (by simp; omega) i
    (by simpa using hi)).mp (by simpa using he)
  omega

theorem isVar_name {t : VarDescs} {i : ℕ} (hi : i < t.descs.length) :
    t.isVar t.descs[i].name = true := by
  simp only [isVar, List.any_eq_true, beq_iff_eq]
  exact ⟨_, List.getElem_mem _, rfl⟩

theorem lookup_of_getElem? {t : VarDescs} {j : ℕ} {desc : VarDesc}
    (h : t.descs[j]? = some desc) : t.lookup desc.name = j ∧ t.isVar desc.name = true := by
  obtain ⟨hj, rfl⟩ := List.getElem?_eq_some_iff.mp h
  exact ⟨lookup_name hj, isVar_name hj⟩

theorem eq_of_name_eq {t : VarDescs} {i j : ℕ} {d d' : VarDesc} (hi : t.descs[i]? = some d)
    (hj : t.descs[j]? = some d') (h : d.name = d'.name) : i = j := by
  obtain ⟨hi', rfl⟩ := List.getElem?_eq_some_iff.mp hi
  obtain ⟨hj', rfl⟩ := List.getElem?_eq_some_iff.mp hj
  exact (@List.Nodup.getElem_inj_iff _ _ t.names_nodup i (by simpa using hi') j
    (by simpa using hj')).mp (by simpa using h)

end VarDescs

/-- One word of a variable's cache: its value and whether it still has to reach the DSP. -/
structure Cell where
  value : Word
  dirty : Bool
  deriving DecidableEq, Repr

/-- Modelled from the spec: `write_var(var, value, offset, false)` on a cache. The word takes
the value and is marked dirty; it reaches the DSP at the next `sync_vars`. -/
def writeCell (vars : List (List Cell)) (var offset : ℕ) (value : Word) : List (List Cell) :=
  vars.modify (fun cells => cells.modify (fun _ => ⟨value, true⟩) offset) var

end PixieSdk
