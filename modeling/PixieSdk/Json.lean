import Mathlib.Data.String.Basic
import Mathlib.Data.List.Sort
import PixieSdk.Error

/-! # The `nlohmann::json` values of a configuration document

The configuration code reads a parsed document through a handful of `basic_json`
operations: `size`, `contains`, `operator[]` by key and by index, `push_back`, `items()`
and the conversions to `param::value_type` and `std::string`. Each is modelled with the
exception it throws on a value of the wrong type. Floating-point numbers are left out: no
modelled path produces one, and their conversion is a floating-point cast. -/

namespace PixieSdk

/-- A DSP word, `param::value_type` (`std::uint32_t`). -/
abbrev Word := UInt32

/-- The two's-complement conversion of an `int` to `param::value_type`. -/
def wordOfInt (i : ℤ) : Word :=
  UInt32.ofNat (i % 4294967296).toNat

theorem UInt32.ofNat_toNat_eq (w : UInt32) : UInt32.ofNat w.toNat = w := by
  cases w with
  | mk v => simp [UInt32.ofNat, UInt32.toNat, Fin.ofNat, Nat.mod_eq_of_lt v.isLt]

/-- A `basic_json` value. Objects are `std::map`s: `insertKey` keeps their keys sorted. -/
inductive Json where
  | null
  | boolean (b : Bool)
  | numberInteger (i : ℤ)
  | numberUnsigned (n : ℕ)
  | string (s : String)
  | array (xs : List Json)
  | object (kvs : List (String × Json))
  deriving Repr, Inhabited

namespace Json

/-- `size()`: null has no elements and a primitive value counts as one. -/
def size : Json → ℕ
  | null => 0
  | array xs => xs.length
  | object kvs => kvs.length
  | _ => 1

/-- `contains(key)`: only an object contains a key. -/
def contains : Json → String → Bool
  | object kvs, key => kvs.any (·.1 == key)
  | _, _ => false

/-- Reading `j[key]`: an object's value (null for a missing key, which `operator[]` inserts
into the local copy), null for null, `type_error.305` for anything else. -/
def atKey : Json → String → Except Exception Json
  | object kvs, key => .ok ((kvs.lookup key).getD null)
  | null, _ => .ok null
  | _, _ => .error (.json 305)

/-- The array non-const `operator[](idx)` works on: null becomes an empty array and the
array is filled with nulls up to `idx`. -/
def fill (xs : List Json) (idx : ℕ) : List Json :=
  xs ++ List.replicate (idx + 1 - xs.length) null

/-- Non-const `j[idx]`: the element and the value after the access; `type_error.305` on a
value that is neither an array nor null. -/
def atIndex : Json → ℕ → Except Exception (Json × Json)
  | array xs, idx => .ok ((fill xs idx).getD idx null, array (fill xs idx))
  | null, idx => .ok ((fill [] idx).getD idx null, array (fill [] idx))
  | _, _ => .error (.json 305)

/-- `push_back(v)`: null becomes a one-element array; `type_error.308` on anything but an
array or null. -/
def pushBack : Json → Json → Except Exception Json
  | array xs, v => .ok (array (xs ++ [v]))
  | null, v => .ok (array [v])
  | _, _ => .error (.json 308)

/-- A value that was default-constructed and then given `push_back(x)` for each `x` in turn:
null when nothing was pushed. -/
def ofPushBacks : List Json → Json
  | [] => null
  | x :: xs => array (x :: xs)

/-- The implicit conversion to `param::value_type`: numbers and booleans are cast, anything
else throws `type_error.302`. -/
def toWord : Json → Except Exception Word
  | boolean b => .ok (if b then 1 else 0)
  | numberInteger i => .ok (wordOfInt i)
  | numberUnsigned n => .ok (UInt32.ofNat n)
  | _ => .error (.json 302)

/-- `get<std::string>()` and `std::string(j)`: only a string converts. -/
def getString : Json → Except Exception String
  | string s => .ok s
  | _ => .error (.json 302)

/-- `items()`: an object's pairs, an array's elements keyed by their index, nothing for
null, and one pair with the empty key for a primitive value. -/
def items : Json → List (String × Json)
  | null => []
  | array xs => xs.enum.map fun p => (Nat.repr p.1, p.2)
  | object kvs => kvs
  | j => [("", j)]

/-- `j[key] = v` on the pairs of an object: an existing key is overwritten, a new key is
inserted at its place in `std::map` order. -/
def insertKey (key : String) (v : Json) : List (String × Json) → List (String × Json)
  | [] => [(key, v)]
  | (k, w) :: rest =>
    if key < k then (key, v) :: (k, w) :: rest
    else if key = k then (key, v) :: rest
    else (k, w) :: insertKey key v rest

/-- A value that was default-constructed and then assigned `j[key] = v` for each pair of
`kvs` in turn: null when nothing was assigned. -/
def ofAssignments (kvs : List (String × Json)) : Json :=
  match kvs.foldl (fun acc kv => insertKey kv.1 kv.2 acc) [] with
  | [] => null
  | kvs' => object kvs'

@[simp] theorem size_array (xs : List Json) : (array xs).size = xs.length := rfl

theorem size_ofPushBacks (xs : List Json) : (ofPushBacks xs).size = xs.length := by
  cases xs <;> rfl

theorem atIndex_array {xs : List Json} {v : ℕ} (h : v < xs.length) :
    (array xs).atIndex v = .ok (xs[v], array xs) := by
  simp [atIndex, fill, show v + 1 - xs.length = 0 by omega, h]

@[simp] theorem items_object (kvs : List (String × Json)) : (object kvs).items = kvs := rfl

@[simp] theorem toWord_numberUnsigned_toNat (w : Word) :
    (numberUnsigned w.toNat).toWord = .ok w := by
  simp [toWord, UInt32.ofNat_toNat_eq]

def keys (kvs : List (String × Json)) : List String :=
  kvs.map Prod.fst

/-- The keys of a `std::map` are strictly increasing. -/
def SortedKeys (kvs : List (String × Json)) : Prop :=
  (keys kvs).Sorted (· < ·)

theorem mem_keys_insertKey {key k : String} {v : Json} {kvs : List (String × Json)}
    (h : k ∈ keys (insertKey key v kvs)) : k = key ∨ k ∈ keys kvs := by
  induction kvs with
  | nil => simpa [insertKey, keys] using h
  | cons kw rest ih =>
    simp only [insertKey] at h
    split_ifs at h
    · simpa [keys] using h
    · simp only [keys, List.map_cons, List.mem_cons] at h ⊢
      exact h.imp_right .inr
    · simp only [keys, List.map_cons, List.mem_cons] at h ⊢
      exact h.elim (.inr ∘ .inl) fun h => (ih h).imp_right .inr

theorem sortedKeys_insertKey (key : String) (v : Json) {kvs : List (String × Json)}
    (h : SortedKeys kvs) : SortedKeys (insertKey key v kvs) := by
  induction kvs with
  | nil => simp [insertKey, SortedKeys, keys]
  | cons kw rest ih =>
    obtain ⟨k', w⟩ := kw
    simp only [SortedKeys, keys, List.map_cons, List.sorted_cons] at h
    simp only [insertKey]
    split_ifs with h1 h2
    · simp only [SortedKeys, keys, List.map_cons, List.sorted_cons, List.mem_cons]
      exact ⟨fun b hb => hb.elim (· ▸ h1) (fun hb => h1.trans (h.1 b hb)), h.1, h.2⟩
    · subst h2
      simpa [SortedKeys, keys] using h
    · have hlt : k' < key := lt_of_le_of_ne (not_lt.mp h1) (Ne.symm h2)
      simp only [SortedKeys, keys, List.map_cons, List.sorted_cons]
      exact ⟨fun b hb => (mem_keys_insertKey hb).elim (· ▸ hlt) (h.1 b), ih h.2⟩

theorem mem_insertKey {key k : String} {v w : Json} {kvs : List (String × Json)}
    (h : SortedKeys kvs) :
    (k, w) ∈ insertKey key v kvs ↔ (k = key ∧ w = v) ∨ (k ≠ key ∧ (k, w) ∈ kvs) := by
  induction kvs with
  | nil => simp [insertKey]
  | cons kw rest ih =>
    obtain ⟨k', w'⟩ := kw
    simp only [SortedKeys, keys, List.map_cons, List.sorted_cons] at h
    have hrest : (k, w) ∈ rest → k' < k := fun hw => h.1 k (List.mem_map.mpr ⟨(k, w), hw, rfl⟩)
    simp only [insertKey]
    split_ifs with h1 h2
    · -- the new key goes first, below every key of the object
      have hne : (k = k' ∧ w = w') ∨ (k, w) ∈ rest → k ≠ key := by
        rintro (⟨rfl, -⟩ | hm) rfl
        · exact lt_irrefl _ h1
        · exact lt_asymm h1 (hrest hm)
      simp only [List.mem_cons, Prod.mk.injEq]
      by_cases hk : k = key <;> simp_all
    · -- the key is overwritten
      subst h2
      have hne : (k, w) ∈ rest → k ≠ key := fun hm he => by
        subst he
        exact lt_irrefl _ (hrest hm)
      simp only [List.mem_cons, Prod.mk.injEq]
      by_cases hk : k = key <;> simp_all
    · -- the key goes further along
      have hlt : k' < key := lt_of_le_of_ne (not_lt.mp h1) (Ne.symm h2)
      have hne : k = k' → k ≠ key := by
        rintro rfl rfl
        exact lt_irrefl _ hlt
      simp only [List.mem_cons, ih h.2, Prod.mk.injEq]
      by_cases hk : k = key <;> simp_all

theorem items_ofAssignments (kvs : List (String × Json)) :
    (ofAssignments kvs).items = kvs.foldl (fun acc kv => insertKey kv.1 kv.2 acc) [] := by
  unfold ofAssignments
  split <;> simp_all [items]

private theorem mem_foldl_insertKey (p : String × Json) :
    ∀ (kvs acc : List (String × Json)), SortedKeys acc → (keys kvs).Nodup →
      (∀ k ∈ keys kvs, k ∉ keys acc) →
      (p ∈ kvs.foldl (fun acc kv => insertKey kv.1 kv.2 acc) acc ↔ p ∈ acc ∨ p ∈ kvs)
  | [], acc, _, _, _ => by simp
  | (k, v) :: rest, acc, hs, hd, hdis => by
    simp only [keys, List.map_cons, List.nodup_cons, List.mem_cons, forall_eq_or_imp] at hd hdis
    have hdis' : ∀ k' ∈ keys rest, k' ∉ keys (insertKey k v acc) := fun k' hk hk' =>
      (mem_keys_insertKey hk').elim (fun he => hd.1 (he ▸ hk)) (hdis.2 k' hk)
    obtain ⟨pk, pv⟩ := p
    have hne : (pk, pv) ∈ acc → pk ≠ k := fun hm he => hdis.1 (he ▸ List.mem_map.mpr ⟨_, hm, rfl⟩)
    rw [List.foldl_cons, mem_foldl_insertKey _ rest _ (sortedKeys_insertKey k v hs) hd.2 hdis',
      List.mem_cons, mem_insertKey hs, Prod.mk.injEq]
    by_cases hk : pk = k <;> simp_all

theorem mem_items_ofAssignments {kvs : List (String × Json)} (hd : (keys kvs).Nodup)
    (p : String × Json) : p ∈ (ofAssignments kvs).items ↔ p ∈ kvs := by
  rw [items_ofAssignments, mem_foldl_insertKey p kvs [] (by simp [SortedKeys, keys]) hd
    (by simp [keys])]
  simp

theorem nodup_keys_items_ofAssignments (kvs : List (String × Json)) :
    (keys (ofAssignments kvs).items).Nodup := by
  rw [items_ofAssignments]
  suffices ∀ acc, SortedKeys acc →
      SortedKeys (kvs.foldl (fun acc kv => insertKey kv.1 kv.2 acc) acc) from
    List.Sorted.nodup (this [] (by simp [SortedKeys, keys]))
  induction kvs with
  | nil => exact fun _ h => h
  | cons kv rest ih => exact fun acc h => ih _ (sortedKeys_insertKey kv.1 kv.2 h)

theorem insertKey_ne_nil (key : String) (v : Json) (kvs : List (String × Json)) :
    insertKey key v kvs ≠ [] := by
  cases kvs with
  | nil => simp [insertKey]
  | cons kw rest =>
    simp only [insertKey]
    split_ifs <;> simp

theorem ofAssignments_of_ne_nil {kvs : List (String × Json)} (h : kvs ≠ []) :
    ofAssignments kvs = object (ofAssignments kvs).items := by
  obtain ⟨kv, rest, rfl⟩ := List.exists_cons_of_ne_nil h
  unfold ofAssignments
  split
  · next h =>
    exfalso
    suffices ∀ (l : List (String × Json)) acc, acc ≠ [] →
        l.foldl (fun acc kv => insertKey kv.1 kv.2 acc) acc ≠ [] from
      this rest _ (insertKey_ne_nil _ _ _) (by simpa using h)
    intro l
    induction l with
    | nil => exact fun _ h => h
    | cons x xs ih => exact fun acc _ => ih _ (insertKey_ne_nil _ _ _)
  · rfl

theorem lookup_eq_of_mem {kvs : List (String × Json)} (hd : (keys kvs).Nodup) {key : String}
    {v : Json} (h : (key, v) ∈ kvs) : kvs.lookup key = some v := by
  induction kvs with
  | nil => cases h
  | cons kw rest ih =>
    obtain ⟨k, w⟩ := kw
    simp only [keys, List.map_cons, List.nodup_cons] at hd
    rcases List.mem_cons.mp h with h | h
    · cases h
      simp [List.lookup_cons]
    · have hk : k ≠ key := fun he => hd.1 (he ▸ List.mem_map.mpr ⟨_, h, rfl⟩)
      simp [List.lookup_cons, beq_false_of_ne hk.symm, ih hd.2 h]

theorem contains_ofAssignments {kvs : List (String × Json)} (hd : (keys kvs).Nodup)
    (hne : kvs ≠ []) (key : String) :
    (ofAssignments kvs).contains key = true ↔ key ∈ keys kvs := by
  rw [ofAssignments_of_ne_nil hne]
  simp only [contains, List.any_eq_true, beq_iff_eq, keys, List.mem_map, mem_items_ofAssignments hd]

theorem atKey_ofAssignments {kvs : List (String × Json)} (hd : (keys kvs).Nodup) {key : String}
    {v : Json} (h : (key, v) ∈ kvs) : (ofAssignments kvs).atKey key = .ok v := by
  rw [ofAssignments_of_ne_nil (List.ne_nil_of_mem h)]
  simp [atKey, lookup_eq_of_mem (nodup_keys_items_ofAssignments kvs)
    ((mem_items_ofAssignments hd _).mpr h)]

end Json

end PixieSdk
