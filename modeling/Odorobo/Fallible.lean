import Mathlib.Data.List.Forall2

/-! Computations that may fail, by what is known when they succeed. -/

namespace Odorobo.Fallible

variable {ε α β γ : Type}

theorem bind_eq_ok {x : Except ε α} {f : α → Except ε β} {b : β} :
    (x >>= f) = .ok b ↔ ∃ a, x = .ok a ∧ f a = .ok b := by
  cases x with
  | error e => simp [bind, Except.bind]
  | ok a => simp [bind, Except.bind]

theorem exists_of_forall₂ {r : α → β → Prop} {xs : List α} {ys : List β}
    (h : List.Forall₂ r xs ys) : ∀ x ∈ xs, ∃ y ∈ ys, r x y := by
  induction h with
  | nil => simp
  | @cons x y xs ys hfirst _ ih =>
    intro x' hx'
    cases List.mem_cons.mp hx' with
    | inl heq => exact ⟨y, List.mem_cons_self, heq ▸ hfirst⟩
    | inr hmem =>
      obtain ⟨y', hy', hr⟩ := ih x' hmem
      exact ⟨y', List.mem_cons_of_mem y hy', hr⟩

/-- A traversal succeeds item by item. -/
theorem mapM_eq_ok {f : α → Except ε β} {xs : List α} {ys : List β} :
    xs.mapM f = .ok ys ↔ List.Forall₂ (fun x y => f x = .ok y) xs ys := by
  induction xs generalizing ys with
  | nil => simp [pure, Except.pure, eq_comm]
  | cons x xs ih =>
    simp only [List.mapM_cons, bind_eq_ok, ih, List.forall₂_cons_left_iff]
    constructor
    · rintro ⟨first, hfirst, rest, hrest, heq⟩
      exact ⟨first, rest, hfirst, hrest, (Except.ok.inj heq).symm⟩
    · rintro ⟨first, rest, hfirst, hrest, rfl⟩
      exact ⟨first, hfirst, rest, hrest, rfl⟩

/-- Every result of a traversal that succeeds is the result of one of its items. -/
theorem mem_of_mapM_ok {f : α → Except ε β} {xs : List α} {ys : List β} (h : xs.mapM f = .ok ys) :
    ∀ y ∈ ys, ∃ x ∈ xs, f x = .ok y :=
  exists_of_forall₂ (mapM_eq_ok.mp h).flip

/-- What each result keeps of its item, the results keep of the items. -/
theorem map_of_mapM_ok {f : α → Except ε β} {xs : List α} {ys : List β} {key : α → γ} {kept : β → γ}
    (h : xs.mapM f = .ok ys) (hkept : ∀ x y, f x = .ok y → kept y = key x) :
    ys.map kept = xs.map key := by
  have hall := mapM_eq_ok.mp h
  rw [← List.forall₂_eq_eq_eq, List.forall₂_map_left_iff, List.forall₂_map_right_iff]
  exact (hall.imp fun x y hxy => hkept x y hxy).flip

/-- A traversal that leaves its own results alone does so as a whole. -/
theorem mapM_idem {f : α → Except ε α} {xs ys : List α} (hf : ∀ x y, f x = .ok y → f y = .ok y)
    (h : xs.mapM f = .ok ys) : ys.mapM f = .ok ys := by
  refine mapM_eq_ok.mpr (List.forall₂_same.mpr ?_)
  intro y hy
  obtain ⟨x, _, hxy⟩ := mem_of_mapM_ok h y hy
  exact hf x y hxy

end Odorobo.Fallible
