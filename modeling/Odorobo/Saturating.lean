import Mathlib.Data.Fin.Basic
import Mathlib.Data.List.Basic
import Mathlib.Algebra.BigOperators.Group.List.Basic
import Mathlib.Tactic.Ring

/-! Fixed-width unsigned and signed integers with saturating arithmetic. An
unsigned word of modulus `n` is `Fin n`; every operation is stated by its value,
so that later proofs reason in `Nat` and never meet a wrapped sum. -/

namespace Odorobo

abbrev U32 := Fin (2 ^ 32)
abbrev U64 := Fin (2 ^ 64)

instance neZeroU8 : NeZero (2 ^ 8) := ⟨by decide⟩
instance neZeroU32 : NeZero (2 ^ 32) := ⟨by decide⟩
instance neZeroU64 : NeZero (2 ^ 64) := ⟨by decide⟩

namespace Saturating

variable {n : Nat}

def add (a b : Fin n) : Fin n := ⟨min (a + b) (n - 1), by omega⟩

def sub (a b : Fin n) : Fin n := ⟨a - b, by omega⟩

def mul (a b : Fin n) : Fin n :=
  ⟨min (a * b) (n - 1), lt_of_le_of_lt (min_le_right _ _) (Nat.sub_lt a.pos Nat.one_pos)⟩

@[simp] theorem val_add (a b : Fin n) : (add a b).val = min (a.val + b.val) (n - 1) := rfl

@[simp] theorem val_sub (a b : Fin n) : (sub a b).val = a.val - b.val := rfl

@[simp] theorem val_mul (a b : Fin n) : (mul a b).val = min (a.val * b.val) (n - 1) := rfl

/-- The nearest word to a number. -/
def clamp [NeZero n] (x : Nat) : Fin n :=
  ⟨min x (n - 1), lt_of_le_of_lt (min_le_right _ _) (Nat.sub_lt (NeZero.pos n) Nat.one_pos)⟩

@[simp] theorem val_clamp [NeZero n] (x : Nat) : (clamp x : Fin n).val = min x (n - 1) := rfl

/-- Saturating sums cut off once, at the end. -/
theorem add_clamp [NeZero n] (x : Nat) (b : Fin n) : add (clamp x) b = clamp (x + b.val) := by
  apply Fin.ext
  simp only [val_add, val_clamp]
  omega

end Saturating

/-- A signed 64-bit integer. -/
abbrev I64 := { x : Int // -2 ^ 63 ≤ x ∧ x < 2 ^ 63 }

namespace I64

def min : I64 := ⟨-2 ^ 63, by omega⟩

def zero : I64 := ⟨0, by omega⟩

def saturatingAdd (a b : I64) : I64 :=
  ⟨max (-2 ^ 63) (Min.min (a.val + b.val) (2 ^ 63 - 1)), by omega⟩

theorem min_le (a : I64) : min.val ≤ a.val := a.property.1

end I64

end Odorobo
