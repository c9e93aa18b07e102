import Mathlib.Data.List.Basic
import Mathlib.Data.List.Perm.Basic

/-! Lists whose elements belong to keys, and updates that concern one key. An
update local to a key leaves the elements of the others where they are and
depends on those of its own key alone, so updates local to different keys
commute up to the order of the elements. -/

namespace Odorobo.KeyedList

variable {α K : Type} [DecidableEq K] (key : α → K)

/-- The elements of one key, in order. -/
def part (a : K) (l : List α) : List α := l.filter fun x => key x = a

/-- The elements of all other keys, in order. -/
def rest (a : K) (l : List α) : List α := l.filter fun x => key x ≠ a

structure LocalTo (a : K) (f : List α → List α) : Prop where
  others : ∀ l, rest key a (f l) = rest key a l
  own : ∀ l, part key a (f l) = f (part key a l)

variable {key} {a b : K} {f g : List α → List α}

theorem part_rest (h : b ≠ a) (l : List α) : part key b (rest key a l) = part key b l := by
  unfold part rest
  rw [List.filter_filter]
  apply List.filter_congr
  intro x _
  by_cases hx : key x = b <;> simp [hx, h]

theorem part_eq_nil {l : List α} : part key a l = [] ↔ ∀ x ∈ l, key x ≠ a := by
  simp [part, List.filter_eq_nil_iff]

theorem part_part (l : List α) : part key a (part key a l) = part key a l := by
  unfold part
  rw [List.filter_filter]
  simp

theorem LocalTo.part_ne (h : LocalTo key a f) (hne : b ≠ a) (l : List α) :
    part key b (f l) = part key b l := by
  rw [← part_rest hne, h.others, part_rest hne]

theorem localTo_id (a : K) : LocalTo key a (fun l => l) := ⟨fun _ => rfl, fun _ => rfl⟩

theorem LocalTo.comp (hg : LocalTo key a g) (hf : LocalTo key a f) :
    LocalTo key a fun l => g (f l) where
  others l := by rw [hg.others, hf.others]
  own l := by rw [hg.own, hf.own]

theorem LocalTo.ite (p : Prop) [Decidable p] (hf : LocalTo key a f) (hg : LocalTo key a g) :
    LocalTo key a fun l => if p then f l else g l := by
  by_cases hp : p
  · simpa [hp] using hf
  · simpa [hp] using hg

/-- Rewriting or dropping elements of one key, which keep their key. -/
theorem localTo_filterMap {u : α → Option α} (others : ∀ x, key x ≠ a → u x = some x)
    (own : ∀ x y, key x = a → u x = some y → key y = a) :
    LocalTo key a (List.filterMap u) where
  others l := by
    induction l with
    | nil => rfl
    | cons x l ih =>
      unfold rest at ih ⊢
      by_cases hx : key x = a
      · cases hu : u x with
        | none => simpa [List.filterMap_cons, hu, hx] using ih
        | some y => simpa [List.filterMap_cons, hu, hx, own x y hx hu] using ih
      · simpa [List.filterMap_cons, others x hx, hx] using ih
  own l := by
    induction l with
    | nil => rfl
    | cons x l ih =>
      unfold part at ih ⊢
      by_cases hx : key x = a
      · cases hu : u x with
        | none => simpa [List.filterMap_cons, hu, hx] using ih
        | some y => simpa [List.filterMap_cons, hu, hx, own x y hx hu] using ih
      · simpa [List.filterMap_cons, others x hx, hx] using ih

theorem localTo_filter {p : α → Bool} (others : ∀ x, key x ≠ a → p x = true) :
    LocalTo key a (List.filter p) := by
  have hfilter : List.filter p = List.filterMap (Option.guard fun x => p x = true) := by
    funext l
    simp [List.filterMap_eq_filter]
  rw [hfilter]
  apply localTo_filterMap
  · intro x hx
    simp [Option.guard, others x hx]
  · intro x y hx hu
    have hxy : x = y := by
      simp only [Option.guard, Option.ite_none_right_eq_some] at hu
      exact Option.some.inj hu.2
    rw [← hxy]
    exact hx

/-- Appending an element of the key when it has none. -/
theorem localTo_push {x : α} (hx : key x = a) (p : Prop) [Decidable p] :
    LocalTo key a fun l => if p ∧ part key a l = [] then l ++ [x] else l where
  others l := by
    split
    · simp [rest, hx]
    · rfl
  own l := by
    rw [part_part]
    split
    · simp [part, hx]
    · rfl

variable [DecidableEq α]

theorem count_part (l : List α) (x : α) : (part key (key x) l).count x = l.count x :=
  List.count_filter (by simp)

theorem perm_of_parts {l l' : List α} (h : ∀ a, (part key a l).Perm (part key a l')) :
    l.Perm l' := by
  rw [List.perm_iff_count]
  intro x
  calc
    l.count x = (part key (key x) l).count x := (count_part l x).symm
    _ = (part key (key x) l').count x := (h (key x)).count_eq x
    _ = l'.count x := count_part l' x

/-- Lists that agree on all keys but one are compared at that key. -/
theorem perm_iff_part {l l' : List α} (h : ∀ b, b ≠ a → part key b l = part key b l') :
    l.Perm l' ↔ (part key a l).Perm (part key a l') := by
  constructor
  · intro hperm
    exact hperm.filter _
  · intro hown
    apply @perm_of_parts _ _ _ key
    intro b
    by_cases hb : b = a
    · rw [hb]
      exact hown
    · rw [h b hb]

theorem LocalTo.comm (hf : LocalTo key a f) (hg : LocalTo key b g) (hne : a ≠ b) (l : List α) :
    (f (g l)).Perm (g (f l)) := by
  apply @perm_of_parts _ _ _ key
  intro c
  by_cases hca : c = a
  · subst hca
    rw [hf.own, hg.part_ne hne, hg.part_ne hne, hf.own]
  · by_cases hcb : c = b
    · subst hcb
      rw [hf.part_ne hca, hg.own, hg.own, hf.part_ne hca]
    · rw [hf.part_ne hca, hg.part_ne hcb, hg.part_ne hcb, hf.part_ne hca]

end Odorobo.KeyedList
