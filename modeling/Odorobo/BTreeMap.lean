import Mathlib.Data.List.Basic
import Mathlib.Order.Lattice

/-! Ordered maps: the entries in strictly increasing key order, so that equality
of contents is equality. -/

namespace Odorobo

structure BTreeMap (K V : Type) [LinearOrder K] where
  entries : List (K × V)
  sorted : (entries.map Prod.fst).Pairwise (· < ·)

namespace BTreeMap

variable {K V : Type} [LinearOrder K]

instance [DecidableEq V] : DecidableEq (BTreeMap K V) := fun a b =>
  decidable_of_iff (a.entries = b.entries) (by cases a; cases b; simp)

def empty : BTreeMap K V := ⟨[], by simp⟩

def get (m : BTreeMap K V) (k : K) : Option V :=
  (m.entries.find? fun e => e.1 = k).map Prod.snd

/-- Replace the value of a key, or put it in its place. -/
def insertEntry (k : K) (v : V) : List (K × V) → List (K × V)
  | [] => [(k, v)]
  | e :: es =>
    if k < e.1 then (k, v) :: e :: es
    else if k = e.1 then (k, v) :: es
    else e :: insertEntry k v es

theorem key_of_mem_insertEntry {k k' : K} {v : V} {es : List (K × V)}
    (h : k' ∈ (insertEntry k v es).map Prod.fst) : k' = k ∨ k' ∈ es.map Prod.fst := by
  induction es with
  | nil => exact .inl (by simpa [insertEntry] using h)
  | cons e es ih =>
    unfold insertEntry at h
    split at h
    · simpa using h
    · split at h
      · next heq => exact .inr (by simpa [heq] using h)
      · cases List.mem_cons.mp h with
        | inl hfirst => exact .inr (List.mem_cons.mpr (.inl hfirst))
        | inr hrest => exact (ih hrest).imp_right (List.mem_cons_of_mem _)

theorem sorted_insertEntry (k : K) (v : V) {es : List (K × V)}
    (h : (es.map Prod.fst).Pairwise (· < ·)) :
    ((insertEntry k v es).map Prod.fst).Pairwise (· < ·) := by
  induction es with
  | nil => simp [insertEntry]
  | cons e es ih =>
    have hcons := List.pairwise_cons.mp h
    unfold insertEntry
    split
    · next hlt =>
      refine List.pairwise_cons.mpr ⟨?_, h⟩
      intro k' hk'
      cases List.mem_cons.mp hk' with
      | inl hfirst => exact hfirst ▸ hlt
      | inr hrest => exact hlt.trans (hcons.1 k' hrest)
    · next hge =>
      split
      · next heq => exact List.pairwise_cons.mpr ⟨heq ▸ hcons.1, hcons.2⟩
      · next hne =>
        have hgt : e.1 < k := lt_of_le_of_ne (not_lt.mp hge) (Ne.symm hne)
        refine List.pairwise_cons.mpr ⟨?_, ih hcons.2⟩
        intro k' hk'
        cases key_of_mem_insertEntry hk' with
        | inl hself => exact hself ▸ hgt
        | inr hrest => exact hcons.1 k' hrest

/-- A key above all others goes to the end. -/
theorem insertEntry_of_forall_lt {k : K} (v : V) {es : List (K × V)}
    (h : ∀ e ∈ es, e.1 < k) : insertEntry k v es = es ++ [(k, v)] := by
  induction es with
  | nil => rfl
  | cons e es ih =>
    have hlt := h e List.mem_cons_self
    rw [insertEntry, if_neg hlt.not_gt, if_neg hlt.ne',
      ih fun e' he' => h e' (List.mem_cons_of_mem e he'), List.cons_append]

def insert (m : BTreeMap K V) (k : K) (v : V) : BTreeMap K V :=
  ⟨insertEntry k v m.entries, sorted_insertEntry k v m.sorted⟩

/-- The entries inserted one after the other; the last value of a key stays. -/
def ofEntries (es : List (K × V)) : BTreeMap K V := es.foldl (fun m e => m.insert e.1 e.2) empty

theorem entries_foldl_insert (es : List (K × V)) :
    ∀ m : BTreeMap K V, ((m.entries ++ es).map Prod.fst).Pairwise (· < ·) →
      (es.foldl (fun m e => m.insert e.1 e.2) m).entries = m.entries ++ es := by
  induction es with
  | nil =>
    intro m _
    simp
  | cons e es ih =>
    intro m hsorted
    have hbelow : ∀ e' ∈ m.entries, e'.1 < e.1 := by
      intro e' he'
      rw [List.map_append, List.pairwise_append] at hsorted
      exact hsorted.2.2 e'.1 (List.mem_map_of_mem he') e.1 (by simp)
    have hinserted : (m.insert e.1 e.2).entries = m.entries ++ [e] :=
      insertEntry_of_forall_lt e.2 hbelow
    have happend : (m.insert e.1 e.2).entries ++ es = m.entries ++ e :: es := by
      rw [hinserted, List.append_assoc, List.singleton_append]
    rw [List.foldl_cons, ih _ (happend ▸ hsorted), happend]

theorem ofEntries_entries (m : BTreeMap K V) : ofEntries m.entries = m := by
  have hentries := entries_foldl_insert m.entries empty (by simpa [empty] using m.sorted)
  obtain ⟨es, hsorted⟩ := m
  rw [ofEntries]
  cases hfold : es.foldl (fun m e => m.insert e.1 e.2) (empty : BTreeMap K V) with
  | mk es' hsorted' =>
    rw [hfold] at hentries
    simpa [empty] using hentries

end BTreeMap

end Odorobo
