import Mathlib.Data.List.Sort
import Mathlib.Data.List.InsertIdx
import Mathlib.Data.Finset.Sort

/-! Vectors kept in strictly increasing order and searched by bisection. The
search is the slice search of the standard library: `size` halves, `base` is the
largest index known not to lie past the key. On a sorted vector the two
positional updates below are the deletion and the insertion of a set element. -/

namespace Odorobo.SortedVec

variable {α : Type} [LinearOrder α]

/-- One comparison of the bisection: move to `mid` unless the element there is
greater than the key. -/
def probe (xs : List α) (x : α) (base mid : Nat) : Nat :=
  match xs[mid]? with
  | some y => if x < y then base else mid
  | none => base

/-- The bisection loop; `fuel` only has to reach the initial `size`. -/
def searchLoop (xs : List α) (x : α) : (fuel size base : Nat) → Nat
  | 0, _, base => base
  | fuel + 1, size, base =>
    if size ≤ 1 then base
    else searchLoop xs x fuel (size - size / 2) (probe xs x base (base + size / 2))

/-- The verdict at the index where the loop stopped. -/
def verdict (xs : List α) (x : α) (base : Nat) : Except Nat Nat :=
  match xs[base]? with
  | none => .error 0
  | some y => if y = x then .ok base else if y < x then .error (base + 1) else .error base

/-- `binary_search`: the position of the key, or where it would be inserted. -/
def binarySearch (xs : List α) (x : α) : Except Nat Nat :=
  verdict xs x (searchLoop xs x xs.length xs.length 0)

/-- Remove the key where the search finds it. -/
def remove (xs : List α) (x : α) : List α :=
  match binarySearch xs x with
  | .ok i => xs.eraseIdx i
  | .error _ => xs

/-- Insert the key where the search says it belongs, unless it is there. -/
def insert (xs : List α) (x : α) : List α :=
  match binarySearch xs x with
  | .ok _ => xs
  | .error i => xs.insertIdx i x

/-- A position the search reports does hold the key, sorted or not. -/
theorem getElem?_of_verdict_ok {xs : List α} {x : α} {base i : Nat}
    (h : verdict xs x base = .ok i) : xs[i]? = some x := by
  unfold verdict at h
  split at h
  · simp at h
  · next y hy =>
    split at h
    · next heq =>
      simp only [Except.ok.injEq] at h
      rw [← h, hy, heq]
    · split at h <;> simp at h

theorem verdict_error_le {xs : List α} {x : α} {base i : Nat}
    (h : verdict xs x base = .error i) : i ≤ xs.length := by
  unfold verdict at h
  split at h
  · simp only [Except.error.injEq] at h
    omega
  · next y hy =>
    have hlt := (List.getElem?_eq_some_iff.mp hy).1
    split at h
    · simp at h
    · split at h <;> (simp only [Except.error.injEq] at h; omega)

theorem mem_insert_self (xs : List α) (x : α) : x ∈ insert xs x := by
  unfold insert
  split
  · next i h => exact List.mem_of_getElem? (getElem?_of_verdict_ok h)
  · next i h => exact (List.mem_insertIdx (verdict_error_le h)).mpr (Or.inl rfl)

theorem mem_insert_of_mem {xs : List α} {x y : α} (h : y ∈ xs) : y ∈ insert xs x := by
  unfold insert
  split
  · exact h
  · next i hi => exact (List.mem_insertIdx (verdict_error_le hi)).mpr (Or.inr h)

/-- Insertion adds nothing but the key. -/
theorem mem_of_mem_insert {xs : List α} {x y : α} (h : y ∈ insert xs x) : y = x ∨ y ∈ xs := by
  unfold insert at h
  split at h
  · exact Or.inr h
  · next i hi => exact (List.mem_insertIdx (verdict_error_le hi)).mp h

/-- Removal of one key keeps every other element. -/
theorem mem_remove_of_ne {xs : List α} {x y : α} (h : y ∈ xs) (hne : y ≠ x) :
    y ∈ remove xs x := by
  unfold remove
  split
  · next i hi =>
    have hx := getElem?_of_verdict_ok hi
    obtain ⟨j, hj⟩ := List.mem_iff_getElem?.mp h
    rw [List.mem_eraseIdx_iff_getElem?]
    refine ⟨j, ?_, hj⟩
    rintro rfl
    rw [hx] at hj
    simp only [Option.some.injEq] at hj
    exact hne hj.symm
  · exact h

theorem mem_of_mem_remove {xs : List α} {x y : α} (h : y ∈ remove xs x) : y ∈ xs := by
  unfold remove at h
  split at h
  · exact List.mem_of_mem_eraseIdx h
  · exact h

/-! From here on the vector is sorted. -/

/-- What the loop keeps: `base` does not lie past the key unless it is the
first index, and everything from `base + size` on does. -/
structure Brackets (xs : List α) (x : α) (size base : Nat) : Prop where
  nonempty : 1 ≤ size
  within : base + size ≤ xs.length
  low : base = 0 ∨ ∀ y, xs[base]? = some y → y ≤ x
  high : ∀ j y, base + size ≤ j → xs[j]? = some y → x < y

theorem getElem?_lt {xs : List α} (sorted : xs.Pairwise (· < ·)) {i j : Nat} {a b : α}
    (hij : i < j) (ha : xs[i]? = some a) (hb : xs[j]? = some b) : a < b := by
  obtain ⟨hi, rfl⟩ := List.getElem?_eq_some_iff.mp ha
  obtain ⟨hj, rfl⟩ := List.getElem?_eq_some_iff.mp hb
  exact List.pairwise_iff_getElem.mp sorted i j hi hj hij

theorem Brackets.probe {xs : List α} {x : α} {size base : Nat}
    (sorted : xs.Pairwise (· < ·)) (h : Brackets xs x size base) (two : 2 ≤ size) :
    Brackets xs x (size - size / 2) (probe xs x base (base + size / 2)) := by
  have hwithin := h.within
  have hmid : base + size / 2 < xs.length := by omega
  have hget := List.getElem?_eq_getElem hmid
  unfold SortedVec.probe
  rw [hget]
  dsimp only
  split
  · next hlt =>
    refine ⟨by omega, by omega, h.low, ?_⟩
    intro j y hj hy
    rcases Nat.lt_or_ge (base + size / 2) j with hgt | hle
    · exact lt_trans hlt (getElem?_lt sorted hgt hget hy)
    · have heq : j = base + size / 2 := by omega
      subst heq
      rw [hget] at hy
      simp only [Option.some.injEq] at hy
      exact hy ▸ hlt
  · next hle =>
    refine ⟨by omega, by omega, Or.inr ?_, ?_⟩
    · intro y hy
      rw [hget] at hy
      simp only [Option.some.injEq] at hy
      exact hy ▸ not_lt.mp hle
    · intro j y hj hy
      exact h.high j y (by omega) hy

theorem brackets_searchLoop {xs : List α} {x : α} (sorted : xs.Pairwise (· < ·))
    (fuel size base : Nat) (enough : size ≤ fuel) (h : Brackets xs x size base) :
    Brackets xs x 1 (searchLoop xs x fuel size base) := by
  induction fuel generalizing size base with
  | zero =>
    have := h.nonempty
    omega
  | succ fuel ih =>
    have hone := h.nonempty
    rw [searchLoop]
    split
    · next hsmall =>
      have : size = 1 := by omega
      exact this ▸ h
    · next hbig =>
      exact ih _ _ (by omega) (h.probe sorted (by omega))

/-- On a sorted vector a failed search separates the smaller elements from the
greater ones. -/
theorem binarySearch_error_spec {xs : List α} {x : α} (sorted : xs.Pairwise (· < ·)) {i : Nat}
    (h : binarySearch xs x = .error i) :
    (∀ j y, j < i → xs[j]? = some y → y < x) ∧ (∀ j y, i ≤ j → xs[j]? = some y → x < y) := by
  cases xs with
  | nil => simp
  | cons a as =>
    have start : Brackets (a :: as) x (a :: as).length 0 :=
      ⟨by simp, by simp, Or.inl rfl, fun j y hj hy => by
        have := (List.getElem?_eq_some_iff.mp hy).1
        omega⟩
    have stop := brackets_searchLoop sorted _ _ _ le_rfl start
    unfold binarySearch at h
    generalize searchLoop (a :: as) x (a :: as).length (a :: as).length 0 = base at h stop
    have hb : base < (a :: as).length := by
      have := stop.within
      omega
    have hget := List.getElem?_eq_getElem hb
    unfold verdict at h
    rw [hget] at h
    dsimp only at h
    split at h
    · simp at h
    · next hne =>
      split at h
      · next hlt =>
        simp only [Except.error.injEq] at h
        subst h
        refine ⟨fun j y hj hy => ?_, fun j y hj hy => stop.high j y hj hy⟩
        rcases Nat.lt_or_ge j base with hjb | hjb
        · exact lt_trans (getElem?_lt sorted hjb hy hget) hlt
        · have heq : j = base := by omega
          subst heq
          rw [hget] at hy
          simp only [Option.some.injEq] at hy
          exact hy ▸ hlt
      · next hnlt =>
        simp only [Except.error.injEq] at h
        subst h
        have hgt : x < (a :: as)[base] := lt_of_le_of_ne (not_lt.mp hnlt) (Ne.symm hne)
        refine ⟨fun j y hj hy => ?_, fun j y hj hy => ?_⟩
        · rcases stop.low with hzero | hlow
          · omega
          · exact absurd (hlow _ hget) (not_le.mpr hgt)
        · rcases Nat.lt_or_ge base j with hbj | hbj
          · exact lt_trans hgt (getElem?_lt sorted hbj hget hy)
          · have heq : j = base := by omega
            subst heq
            rw [hget] at hy
            simp only [Option.some.injEq] at hy
            exact hy ▸ hgt

theorem not_mem_of_binarySearch_error {xs : List α} {x : α} (sorted : xs.Pairwise (· < ·))
    {i : Nat} (h : binarySearch xs x = .error i) : x ∉ xs := by
  intro hmem
  obtain ⟨j, hj⟩ := List.mem_iff_getElem?.mp hmem
  obtain ⟨hlow, hhigh⟩ := binarySearch_error_spec sorted h
  rcases Nat.lt_or_ge j i with hji | hij
  · exact lt_irrefl x (hlow j x hji hj)
  · exact lt_irrefl x (hhigh j x hij hj)

omit [LinearOrder α] in
theorem insertIdx_eq_take_drop (xs : List α) (x : α) {i : Nat} (h : i ≤ xs.length) :
    xs.insertIdx i x = xs.take i ++ x :: xs.drop i := by
  induction xs generalizing i with
  | nil =>
    obtain rfl : i = 0 := by simpa using h
    simp
  | cons y ys ih =>
    cases i with
    | zero => simp
    | succ i => simp [ih (by simpa using h)]

theorem pairwise_insert {xs : List α} (sorted : xs.Pairwise (· < ·)) (x : α) :
    (insert xs x).Pairwise (· < ·) := by
  unfold insert
  split
  · exact sorted
  · next i hi =>
    obtain ⟨hlow, hhigh⟩ := binarySearch_error_spec sorted hi
    rw [insertIdx_eq_take_drop xs x (verdict_error_le hi)]
    have hbelow : ∀ a ∈ xs.take i, a < x := by
      intro a ha
      obtain ⟨j, hj⟩ := List.mem_iff_getElem?.mp ha
      rw [List.getElem?_take] at hj
      split at hj
      · next hji => exact hlow j a hji hj
      · simp at hj
    have habove : ∀ b ∈ xs.drop i, x < b := by
      intro b hb
      obtain ⟨j, hj⟩ := List.mem_iff_getElem?.mp hb
      rw [List.getElem?_drop] at hj
      exact hhigh (i + j) b (by omega) hj
    rw [List.pairwise_append, List.pairwise_cons]
    refine ⟨sorted.sublist (List.take_sublist i xs),
      ⟨habove, sorted.sublist (List.drop_sublist i xs)⟩, ?_⟩
    intro a ha b hb
    rcases List.mem_cons.mp hb with rfl | hb
    · exact hbelow a ha
    · exact lt_trans (hbelow a ha) (habove b hb)

theorem pairwise_remove {xs : List α} (sorted : xs.Pairwise (· < ·)) (x : α) :
    (remove xs x).Pairwise (· < ·) := by
  unfold remove
  split
  · exact sorted.sublist (List.eraseIdx_sublist ..)
  · exact sorted

theorem mem_insert {xs : List α} {x y : α} : y ∈ insert xs x ↔ y = x ∨ y ∈ xs := by
  constructor
  · exact mem_of_mem_insert
  · rintro (rfl | h)
    · exact mem_insert_self xs y
    · exact mem_insert_of_mem h

theorem mem_remove {xs : List α} (sorted : xs.Pairwise (· < ·)) {x y : α} :
    y ∈ remove xs x ↔ y ≠ x ∧ y ∈ xs := by
  constructor
  · intro h
    refine ⟨?_, mem_of_mem_remove h⟩
    rintro rfl
    unfold remove at h
    split at h
    · next i hi =>
      have hy := getElem?_of_verdict_ok hi
      rw [List.mem_eraseIdx_iff_getElem?] at h
      obtain ⟨j, hne, hj⟩ := h
      rcases Nat.lt_or_gt_of_ne hne with hlt | hgt
      · exact lt_irrefl y (getElem?_lt sorted hlt hj hy)
      · exact lt_irrefl y (getElem?_lt sorted hgt hy hj)
    · next i hi => exact not_mem_of_binarySearch_error sorted hi h
  · rintro ⟨hne, hmem⟩
    exact mem_remove_of_ne hmem hne

/-- `sort_unstable`; the elements it is used on are distinct, so stability does
not show. -/
def sort (xs : List α) : List α := xs.insertionSort (· ≤ ·)

@[simp] theorem mem_sort {xs : List α} {a : α} : a ∈ sort xs ↔ a ∈ xs :=
  (List.perm_insertionSort (· ≤ ·) xs).mem_iff

/-- The elements of a hash set, listed in one of the orders it may be iterated. -/
def elements (s : Finset α) : List α :=
  Quot.liftOn s.val sort fun _ _ h =>
    (((List.perm_insertionSort (· ≤ ·) _).trans h).trans
      (List.perm_insertionSort (· ≤ ·) _).symm).eq_of_pairwise
        (fun _ _ _ _ hab hba => le_antisymm hab hba)
        (List.pairwise_insertionSort (· ≤ ·) _) (List.pairwise_insertionSort (· ≤ ·) _)

@[simp] theorem mem_elements {s : Finset α} {a : α} : a ∈ elements s ↔ a ∈ s := by
  obtain ⟨⟨l⟩, _⟩ := s
  exact mem_sort

theorem pairwise_sort {xs : List α} (h : xs.Nodup) : (sort xs).Pairwise (· < ·) := by
  have hle : (sort xs).Pairwise (· ≤ ·) := List.pairwise_insertionSort (· ≤ ·) xs
  have hnd : (sort xs).Nodup := (List.perm_insertionSort (· ≤ ·) xs).nodup_iff.mpr h
  exact (hle.and hnd).imp fun ⟨hab, hne⟩ => lt_of_le_of_ne hab hne

theorem nodup_elements (s : Finset α) : (elements s).Nodup := by
  obtain ⟨⟨l⟩, hl⟩ := s
  exact (List.perm_insertionSort (· ≤ ·) l).nodup_iff.mpr hl

end Odorobo.SortedVec
