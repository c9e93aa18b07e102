import Mathlib.Data.List.AList
import Mathlib.Algebra.GroupWithZero.Nat
import Mathlib.Algebra.BigOperators.Group.Finset.Basic
import Mathlib.Algebra.BigOperators.Group.List.Basic

/-! Hash maps over Mathlib's association lists with distinct keys. The list
order stands for the iteration order of the table: it is an order, but callers
may rely on none in particular. Two maps have the same contents when their `get`
agree. -/

namespace Odorobo

/-- A hash map from `K` to `V`. -/
def AHashMap (K V : Type) : Type := AList (fun _ : K => V)

namespace AHashMap

variable {K V W : Type} [DecidableEq K]

def empty : AHashMap K V := (∅ : AList (fun _ : K => V))

def get (m : AHashMap K V) (k : K) : Option V := AList.lookup k m

def insert (m : AHashMap K V) (k : K) (v : V) : AHashMap K V := AList.insert k v m

def erase (m : AHashMap K V) (k : K) : AHashMap K V := AList.erase k m

/-- Membership of a key. -/
def contains (m : AHashMap K V) (k : K) : Bool := (m.get k).isSome

def toList (m : AHashMap K V) : List (K × V) := m.entries.map fun e => (e.1, e.2)

def values (m : AHashMap K V) : List V := m.toList.map Prod.snd

def keys (m : AHashMap K V) : Finset K := (m.toList.map Prod.fst).toFinset

/-- Rewrite every value, dropping the keys whose value `f` gives up. -/
def filterMap (m : AHashMap K V) (f : K → V → Option W) : AHashMap K W where
  entries := m.entries.filterMap fun e => (f e.1 e.2).map fun w => ⟨e.1, w⟩
  nodupKeys := by
    have h := List.nodupKeys_iff_pairwise.mp m.nodupKeys
    refine List.nodupKeys_iff_pairwise.mpr (List.Pairwise.filterMap _ ?_ h)
    intro a a' hne b hb b' hb'
    simp only [Option.map_eq_some_iff] at hb hb'
    obtain ⟨_, _, rfl⟩ := hb
    obtain ⟨_, _, rfl⟩ := hb'
    exact hne

/-- Rewrite every value and keep every key. -/
def mapValues (m : AHashMap K V) (f : K → V → W) : AHashMap K W :=
  m.filterMap fun k v => some (f k v)

/-- `get_mut` followed by an update of the value found, if any. -/
def modify (m : AHashMap K V) (k : K) (f : V → V) : AHashMap K V :=
  match m.get k with
  | none => m
  | some v => m.insert k (f v)

/-- `entry(k).or_insert(d)` followed by an update of the value. -/
def upsert (m : AHashMap K V) (k : K) (d : V) (f : V → V) : AHashMap K V :=
  m.insert k (f ((m.get k).getD d))

@[simp] theorem get_empty (k : K) : (empty : AHashMap K V).get k = none :=
  AList.lookup_empty k

theorem get_insert (m : AHashMap K V) (k k' : K) (v : V) :
    (m.insert k v).get k' = if k' = k then some v else m.get k' := by
  split
  · next h =>
    subst h
    exact AList.lookup_insert m
  · next h => exact AList.lookup_insert_ne h

@[simp] theorem get_insert_self (m : AHashMap K V) (k : K) (v : V) :
    (m.insert k v).get k = some v := by
  simp [get_insert]

theorem get_insert_ne (m : AHashMap K V) {k k' : K} (v : V) (h : k' ≠ k) :
    (m.insert k v).get k' = m.get k' := by
  simp [get_insert, h]

theorem get_erase (m : AHashMap K V) (k k' : K) :
    (m.erase k).get k' = if k' = k then none else m.get k' := by
  split
  · next h =>
    subst h
    exact AList.lookup_erase k' m
  · next h => exact AList.lookup_erase_ne h

@[simp] theorem get_erase_self (m : AHashMap K V) (k : K) : (m.erase k).get k = none := by
  simp [get_erase]

theorem get_erase_ne (m : AHashMap K V) {k k' : K} (h : k' ≠ k) :
    (m.erase k).get k' = m.get k' := by
  simp [get_erase, h]

theorem get_erase_eq_some (m : AHashMap K V) {k k' : K} {v : V} :
    (m.erase k).get k' = some v ↔ k' ≠ k ∧ m.get k' = some v := by
  rw [get_erase]
  by_cases h : k' = k <;> simp [h]

theorem get_modify (m : AHashMap K V) (k k' : K) (f : V → V) :
    (m.modify k f).get k' = if k' = k then (m.get k).map f else m.get k' := by
  unfold modify
  split
  · next h =>
    by_cases hk : k' = k
    · simp [hk, h]
    · simp [hk]
  · next v h => simp [get_insert, h]

theorem get_upsert (m : AHashMap K V) (k k' : K) (d : V) (f : V → V) :
    (m.upsert k d f).get k' = if k' = k then some (f ((m.get k).getD d)) else m.get k' :=
  get_insert m k k' _

theorem mem_toList (m : AHashMap K V) (k : K) (v : V) :
    (k, v) ∈ m.toList ↔ m.get k = some v := by
  have h : m.get k = some v ↔ (⟨k, v⟩ : Sigma fun _ : K => V) ∈ m.entries :=
    AList.mem_lookup_iff
  rw [h, toList, List.mem_map]
  constructor
  · rintro ⟨⟨a, b⟩, hmem, heq⟩
    simp only [Prod.mk.injEq] at heq
    obtain ⟨rfl, rfl⟩ := heq
    exact hmem
  · intro hmem
    exact ⟨⟨k, v⟩, hmem, rfl⟩

omit [DecidableEq K] in
theorem toList_keys_nodup (m : AHashMap K V) : (m.toList.map Prod.fst).Nodup := by
  have h : m.toList.map Prod.fst = m.entries.map Sigma.fst := by
    simp [toList, Function.comp_def]
  rw [h]
  exact m.nodupKeys

theorem mem_keys (m : AHashMap K V) (k : K) : k ∈ m.keys ↔ ∃ v, m.get k = some v := by
  simp only [keys, List.mem_toFinset, List.mem_map, Prod.exists, exists_and_right,
    exists_eq_right, mem_toList]

theorem keys_insert (m : AHashMap K V) (k : K) (v : V) :
    (m.insert k v).keys = Insert.insert k m.keys := by
  ext k'
  rw [mem_keys, Finset.mem_insert, mem_keys, get_insert]
  by_cases h : k' = k <;> simp [h]

theorem keys_erase (m : AHashMap K V) (k : K) : (m.erase k).keys = m.keys.erase k := by
  ext k'
  rw [mem_keys, Finset.mem_erase, mem_keys, get_erase]
  by_cases h : k' = k <;> simp [h]

theorem contains_iff (m : AHashMap K V) (k : K) : m.contains k = true ↔ ∃ v, m.get k = some v := by
  simp [contains, Option.isSome_iff_exists]

theorem contains_eq_false (m : AHashMap K V) (k : K) : m.contains k = false ↔ m.get k = none := by
  simp [contains]

theorem mem_values (m : AHashMap K V) (v : V) : v ∈ m.values ↔ ∃ k, m.get k = some v := by
  simp [values, mem_toList]

theorem get_filterMap (m : AHashMap K V) (f : K → V → Option W) (k : K) :
    (m.filterMap f).get k = (m.get k).bind (f k) := by
  apply Option.ext
  intro w
  have h : (m.filterMap f).get k = some w ↔
      (⟨k, w⟩ : Sigma fun _ : K => W) ∈ (m.filterMap f).entries := AList.mem_lookup_iff
  rw [h, filterMap, List.mem_filterMap, Option.bind_eq_some_iff]
  constructor
  · rintro ⟨⟨a, b⟩, hmem, heq⟩
    simp only [Option.map_eq_some_iff, Sigma.mk.injEq] at heq
    obtain ⟨w', hw, rfl, heq⟩ := heq
    cases heq
    exact ⟨b, AList.mem_lookup_iff.mpr hmem, hw⟩
  · rintro ⟨v, hv, hw⟩
    exact ⟨⟨k, v⟩, AList.mem_lookup_iff.mp hv, by simp [hw]⟩

@[simp] theorem get_mapValues (m : AHashMap K V) (f : K → V → W) (k : K) :
    (m.mapValues f).get k = (m.get k).map (f k) := by
  rw [mapValues, get_filterMap]
  cases m.get k <;> rfl

theorem contains_insert (m : AHashMap K V) (k k' : K) (v : V) :
    (m.insert k v).contains k' = (decide (k' = k) || m.contains k') := by
  rw [contains, get_insert, contains]
  by_cases h : k' = k <;> simp [h]

theorem contains_erase (m : AHashMap K V) (k k' : K) :
    (m.erase k).contains k' = (decide (k' ≠ k) && m.contains k') := by
  rw [contains, get_erase, contains]
  by_cases h : k' = k <;> simp [h]

theorem contains_upsert (m : AHashMap K V) (k k' : K) (d : V) (f : V → V) :
    (m.upsert k d f).contains k' = (decide (k' = k) || m.contains k') :=
  contains_insert m k k' _

@[simp] theorem contains_modify (m : AHashMap K V) (k k' : K) (f : V → V) :
    (m.modify k f).contains k' = m.contains k' := by
  rw [contains, get_modify, contains]
  by_cases h : k' = k <;> simp [h]

@[simp] theorem contains_mapValues (m : AHashMap K V) (f : K → V → W) (k : K) :
    (m.mapValues f).contains k = m.contains k := by
  simp [contains]

theorem contains_of_contains_filterMap {m : AHashMap K V} {f : K → V → Option W} {k : K}
    (h : (m.filterMap f).contains k = true) : m.contains k = true := by
  rw [contains, get_filterMap] at h
  rw [contains]
  cases hget : m.get k with
  | none => simp [hget] at h
  | some v => rfl

/-- Sums over the entries in iteration order do not depend on that order. -/
theorem sum_toList (m : AHashMap K V) (f : K → V → Nat) :
    (m.toList.map fun e => f e.1 e.2).sum = ∑ k ∈ m.keys, (m.get k).elim 0 (f k) := by
  have hsum : (m.toList.map fun e => f e.1 e.2).sum =
      ((m.toList.map Prod.fst).map fun k => (m.get k).elim 0 (f k)).sum := by
    rw [List.map_map]
    congr 1
    apply List.map_congr_left
    rintro ⟨k, v⟩ hmem
    have hget := (m.mem_toList k v).mp hmem
    simp [hget]
  rw [hsum, keys, List.sum_toFinset _ m.toList_keys_nodup]

theorem sum_values (m : AHashMap K V) (f : V → Nat) :
    (m.values.map f).sum = ∑ k ∈ m.keys, (m.get k).elim 0 f := by
  rw [← sum_toList m fun _ => f, values, List.map_map]
  rfl

/-- An insertion exchanges the value of its key. -/
theorem sum_values_insert (m : AHashMap K V) (k : K) (v : V) (f : V → Nat) :
    ((m.insert k v).values.map f).sum + (m.get k).elim 0 f = (m.values.map f).sum + f v := by
  have hold : ∑ j ∈ m.keys, (m.get j).elim 0 f =
      ∑ j ∈ Insert.insert k m.keys, (m.get j).elim 0 f := by
    apply (Finset.sum_insert_of_eq_zero_if_notMem _).symm
    intro hk
    rw [mem_keys, not_exists] at hk
    cases hget : m.get k with
    | none => rfl
    | some v => exact absurd hget (hk v)
  have hmem : k ∈ Insert.insert k m.keys := Finset.mem_insert_self k m.keys
  have hother : ∑ j ∈ (Insert.insert k m.keys).erase k, ((m.insert k v).get j).elim 0 f =
      ∑ j ∈ (Insert.insert k m.keys).erase k, (m.get j).elim 0 f := by
    apply Finset.sum_congr rfl
    intro j hj
    rw [get_insert_ne m v (Finset.ne_of_mem_erase hj)]
  rw [sum_values, sum_values, keys_insert, hold, ← Finset.add_sum_erase _ _ hmem,
    ← Finset.add_sum_erase _ (fun j => (m.get j).elim 0 f) hmem, hother, get_insert_self,
    Option.elim_some]
  omega

theorem sum_values_erase (m : AHashMap K V) (k : K) (f : V → Nat) :
    ((m.erase k).values.map f).sum + (m.get k).elim 0 f = (m.values.map f).sum := by
  have hother : ∑ j ∈ m.keys.erase k, ((m.erase k).get j).elim 0 f =
      ∑ j ∈ m.keys.erase k, (m.get j).elim 0 f := by
    apply Finset.sum_congr rfl
    intro j hj
    rw [get_erase_ne m (Finset.ne_of_mem_erase hj)]
  rw [sum_values, sum_values, keys_erase, hother]
  cases hget : m.get k with
  | none =>
    have hk : k ∉ m.keys := by
      rw [mem_keys, hget]
      simp
    rw [Finset.erase_eq_of_notMem hk]
    simp
  | some v =>
    have hk : k ∈ m.keys := (mem_keys m k).mpr ⟨v, hget⟩
    have hsum := Finset.add_sum_erase _ (fun j => (m.get j).elim 0 f) hk
    rw [← hsum, hget]
    omega

end AHashMap

end Odorobo
