import Mathlib.Algebra.Order.Field.Basic
import Mathlib.Data.Int.Log
import Mathlib.Data.Rat.Floor
import Mathlib.Tactic.Linarith

/-! Binary floating point by exact rationals: a finite datum is its value, and
every operation rounds the exact result once, to nearest with ties to even. The
sign of a zero is not kept, since no comparison sees it. Decimal literals follow
the grammar of the standard library's float parser. -/

namespace Odorobo

structure FloatFormat where
  precision : Nat
  maxExponent : Int

def binary32 : FloatFormat := ⟨24, 127⟩

def binary64 : FloatFormat := ⟨53, 1023⟩

inductive BinaryFloat (fmt : FloatFormat) where
  | nan
  | infinity (negative : Bool)
  | finite (value : ℚ)
  deriving DecidableEq

namespace BinaryFloat

variable {fmt : FloatFormat}

def roundTiesToEven (x : ℚ) : Int :=
  let low := ⌊x⌋
  let rest := x - low
  if rest < 1 / 2 then low
  else if 1 / 2 < rest then low + 1
  else if low % 2 = 0 then low
  else low + 1

/-- The exponent of the last place of the binade that holds `x`. -/
def lastPlace (fmt : FloatFormat) (x : ℚ) : Int :=
  max (Int.log 2 |x|) (1 - fmt.maxExponent) - (fmt.precision - 1)

def round (x : ℚ) : BinaryFloat fmt :=
  let ulp : ℚ := 2 ^ lastPlace fmt x
  let y : ℚ := roundTiesToEven (x / ulp) * ulp
  if 2 ^ (fmt.maxExponent + 1) ≤ |y| then infinity (decide (y < 0)) else finite y

def zero : BinaryFloat fmt := finite 0

def negInfinity : BinaryFloat fmt := infinity true

/-- The cast of an unsigned integer. -/
def ofNat (n : Nat) : BinaryFloat fmt := round n

def add : BinaryFloat fmt → BinaryFloat fmt → BinaryFloat fmt
  | nan, _ => nan
  | _, nan => nan
  | infinity s, infinity t => if s = t then infinity s else nan
  | infinity s, finite _ => infinity s
  | finite _, infinity t => infinity t
  | finite x, finite y => round (x + y)

def div : BinaryFloat fmt → BinaryFloat fmt → BinaryFloat fmt
  | nan, _ => nan
  | _, nan => nan
  | infinity _, infinity _ => nan
  | infinity s, finite y => infinity (xor s (decide (y < 0)))
  | finite _, infinity _ => finite 0
  | finite x, finite y =>
    if y = 0 then (if x = 0 then nan else infinity (decide (x < 0))) else round (x / y)

/-- IEEE comparison: a NaN is unordered with everything. -/
def partialCmp : BinaryFloat fmt → BinaryFloat fmt → Option Ordering
  | nan, _ => none
  | _, nan => none
  | infinity s, infinity t => some (if s = t then .eq else if s then .lt else .gt)
  | infinity s, finite _ => some (if s then .lt else .gt)
  | finite _, infinity t => some (if t then .gt else .lt)
  | finite x, finite y => some (if x < y then .lt else if x = y then .eq else .gt)

/-- Negative infinity is greater than no datum. -/
theorem partialCmp_negInfinity (x : BinaryFloat fmt) :
    partialCmp negInfinity x ≠ some .gt := by
  cases x with
  | nan => simp [negInfinity, partialCmp]
  | infinity t => cases t <;> simp [negInfinity, partialCmp]
  | finite y => simp [negInfinity, partialCmp]

/-! Bounds. A result stays finite as long as the exact one is well inside the
format, which is all a caller has to know about rounding. -/

theorem roundTiesToEven_eq (x : ℚ) :
    roundTiesToEven x = ⌊x⌋ ∨ roundTiesToEven x = ⌊x⌋ + 1 ∧ (1 : ℚ) / 2 ≤ x - ⌊x⌋ := by
  unfold roundTiesToEven
  dsimp only
  split
  · exact .inl rfl
  · next hlow =>
    split
    · exact .inr ⟨rfl, not_lt.mp hlow⟩
    · split
      · exact .inl rfl
      · exact .inr ⟨rfl, not_lt.mp hlow⟩

theorem floor_le_roundTiesToEven (x : ℚ) : ⌊x⌋ ≤ roundTiesToEven x := by
  cases roundTiesToEven_eq x with
  | inl h => exact h.ge
  | inr h => omega

theorem abs_roundTiesToEven_le (x : ℚ) : |(roundTiesToEven x : ℚ)| ≤ |x| + 1 := by
  have hlow := Int.floor_le x
  have hhigh := Int.lt_floor_add_one x
  have hnear : |(roundTiesToEven x : ℚ) - x| ≤ 1 := by
    cases roundTiesToEven_eq x with
    | inl h =>
      rw [h, abs_le]
      constructor <;> linarith
    | inr h =>
      rw [h.1, abs_le]
      push_cast
      constructor <;> linarith [h.2]
  have htri := abs_add_le ((roundTiesToEven x : ℚ) - x) x
  rw [sub_add_cancel] at htri
  linarith

/-- The finite data up to a bound. -/
def Within (bound : ℚ) (x : BinaryFloat fmt) : Prop := ∃ value, x = finite value ∧ |value| ≤ bound

section Bounds

variable (hprec : 1 ≤ fmt.precision) (hexp : 1 ≤ fmt.maxExponent)

include hprec hexp

theorem ulp_le (x : ℚ) :
    (2 : ℚ) ^ lastPlace fmt x ≤ max |x| 1 := by
  have hmono : lastPlace fmt x ≤ max (Int.log 2 |x|) 0 := by
    unfold lastPlace
    omega
  have hle : (2 : ℚ) ^ lastPlace fmt x ≤ 2 ^ max (Int.log 2 |x|) 0 :=
    zpow_le_zpow_right₀ (by norm_num) hmono
  apply hle.trans
  cases le_total (Int.log 2 |x|) 0 with
  | inl h =>
    rw [max_eq_right h, zpow_zero]
    exact le_max_right _ _
  | inr h =>
    rw [max_eq_left h]
    by_cases hx : x = 0
    · simp [hx]
    · exact (Int.zpow_log_le_self (by norm_num) (abs_pos.mpr hx)).trans (le_max_left _ _)

/-- Rounding moves a value by at most a last place. -/
theorem within_round {x bound : ℚ}
    (hone : 1 ≤ bound) (hx : |x| ≤ bound) (hbound : bound < 2 ^ fmt.maxExponent) :
    Within (2 * bound) (round x : BinaryFloat fmt) := by
  have hulp := ulp_le hprec hexp x
  have hpos : (0 : ℚ) < 2 ^ lastPlace fmt x := zpow_pos (by norm_num) _
  have hvalue : |(roundTiesToEven (x / 2 ^ lastPlace fmt x) : ℚ) * 2 ^ lastPlace fmt x| ≤
      2 * bound := by
    rw [abs_mul, abs_of_pos hpos]
    calc |(roundTiesToEven (x / 2 ^ lastPlace fmt x) : ℚ)| * 2 ^ lastPlace fmt x
        ≤ (|x / 2 ^ lastPlace fmt x| + 1) * 2 ^ lastPlace fmt x :=
          mul_le_mul_of_nonneg_right (abs_roundTiesToEven_le _) hpos.le
      _ = |x| + 2 ^ lastPlace fmt x := by
          rw [abs_div, abs_of_pos hpos, add_mul, div_mul_cancel₀ _ hpos.ne', one_mul]
      _ ≤ 2 * bound := by
          have := hulp.trans (max_le hx hone)
          linarith
  refine ⟨_, ?_, hvalue⟩
  unfold round
  dsimp only
  rw [if_neg]
  rw [zpow_add_one₀ (by norm_num)]
  linarith

/-- Rounding keeps a value in its binade, so one stays a lower bound. -/
theorem one_le_round {x value : ℚ}
    (hx : 1 ≤ x) (h : (round x : BinaryFloat fmt) = finite value) : 1 ≤ value := by
  have hpos : 0 < x := by linarith
  have hlog : 0 ≤ Int.log 2 x := by
    rw [Int.log_of_one_le_right 2 hx]
    exact Int.natCast_nonneg _
  have hplace : ((fmt.precision - 1 : ℕ) : ℤ) + lastPlace fmt x = Int.log 2 x := by
    unfold lastPlace
    rw [abs_of_pos hpos]
    omega
  have hulp : (0 : ℚ) < 2 ^ lastPlace fmt x := zpow_pos (by norm_num) _
  have hbinade : ((2 ^ (fmt.precision - 1) : ℤ) : ℚ) * 2 ^ lastPlace fmt x = 2 ^ Int.log 2 x := by
    rw [← hplace, zpow_add₀ (by norm_num)]
    push_cast
    rw [zpow_natCast]
  have hfloor : (2 ^ (fmt.precision - 1) : ℤ) ≤ ⌊x / 2 ^ lastPlace fmt x⌋ := by
    rw [Int.le_floor, le_div_iff₀ hulp, hbinade]
    exact Int.zpow_log_le_self (by norm_num) hpos
  have hvalue : value = (roundTiesToEven (x / 2 ^ lastPlace fmt x) : ℚ) * 2 ^ lastPlace fmt x := by
    unfold round at h
    dsimp only at h
    split at h
    · cases h
    · exact (BinaryFloat.finite.inj h).symm
  calc (1 : ℚ) ≤ 2 ^ Int.log 2 x := one_le_zpow₀ (by norm_num) hlog
    _ = ((2 ^ (fmt.precision - 1) : ℤ) : ℚ) * 2 ^ lastPlace fmt x := hbinade.symm
    _ ≤ (roundTiesToEven (x / 2 ^ lastPlace fmt x) : ℚ) * 2 ^ lastPlace fmt x := by
        apply mul_le_mul_of_nonneg_right _ hulp.le
        exact_mod_cast hfloor.trans (floor_le_roundTiesToEven _)
    _ = value := hvalue.symm

theorem within_ofNat {n : Nat} {bound : ℚ} (hone : 1 ≤ bound) (hn : (n : ℚ) ≤ bound)
    (hbound : bound < 2 ^ fmt.maxExponent) : Within (2 * bound) (ofNat n : BinaryFloat fmt) := by
  apply within_round hprec hexp hone _ hbound
  rw [abs_of_nonneg (Nat.cast_nonneg n)]
  exact hn

theorem within_add {x y : BinaryFloat fmt} {a b : ℚ} (hx : Within a x) (hy : Within b y)
    (hone : 1 ≤ a + b) (hbound : a + b < 2 ^ fmt.maxExponent) :
    Within (2 * (a + b)) (add x y) := by
  obtain ⟨u, rfl, hu⟩ := hx
  obtain ⟨v, rfl, hv⟩ := hy
  have hsum : |u + v| ≤ a + b := (abs_add_le u v).trans (add_le_add hu hv)
  exact within_round hprec hexp hone hsum hbound

/-- A divisor of at least one does not enlarge the dividend. -/
theorem within_div {x : BinaryFloat fmt} {a v : ℚ} (hx : Within a x) (hv : 1 ≤ v) (hone : 1 ≤ a)
    (hbound : a < 2 ^ fmt.maxExponent) : Within (2 * a) (div x (finite v)) := by
  obtain ⟨u, rfl, hu⟩ := hx
  have hpos : 0 < v := by linarith
  have hquotient : |u / v| ≤ a := by
    rw [abs_div, abs_of_pos hpos]
    exact (div_le_self (abs_nonneg u) hv).trans hu
  have hdiv : div (finite u) (finite v) = (round (u / v) : BinaryFloat fmt) := if_neg hpos.ne'
  rw [hdiv]
  exact within_round hprec hexp hone hquotient hbound

end Bounds

/-! Decimal literals. -/

def decimalValue (digits : List Char) : Nat :=
  digits.foldl (fun n c => 10 * n + (c.toNat - '0'.toNat)) 0

/-- An optional sign: whether it was a minus, and the rest. -/
def splitSign : List Char → Bool × List Char
  | '-' :: rest => (true, rest)
  | '+' :: rest => (false, rest)
  | rest => (false, rest)

/-- The exponent part, absent or `e` with an optional sign and digits. -/
def parseExponent : List Char → Option Int
  | [] => some 0
  | c :: rest =>
    if c = 'e' ∨ c = 'E' then
      let (negative, digits) := splitSign rest
      if digits ≠ [] ∧ digits.all Char.isDigit then
        some (if negative then -(decimalValue digits : Int) else decimalValue digits)
      else none
    else none

/-- Digits, an optional point with digits, an optional exponent. -/
def parseNumber (cs : List Char) : Option ℚ :=
  let whole := cs.takeWhile Char.isDigit
  let afterWhole := cs.dropWhile Char.isDigit
  let (fraction, afterFraction) := match afterWhole with
    | '.' :: rest => (rest.takeWhile Char.isDigit, rest.dropWhile Char.isDigit)
    | rest => ([], rest)
  if whole = [] ∧ fraction = [] then none
  else (parseExponent afterFraction).map fun e =>
    decimalValue (whole ++ fraction) * (10 : ℚ) ^ (e - (fraction.length : Int))

/-- `str::parse` for a float. -/
def parse (s : String) : Option (BinaryFloat fmt) :=
  let (negative, body) := splitSign s.toList
  let word := body.map Char.toLower
  if word = "inf".toList ∨ word = "infinity".toList then some (infinity negative)
  else if word = "nan".toList then some nan
  else (parseNumber body).map fun x => round (if negative then -x else x)

example : (parse "3.25" : Option (BinaryFloat binary64)) = some (finite (13 / 4)) := by
  decide +kernel

example : (parse "1.e-1" : Option (BinaryFloat binary64)) = parse ".1" := by
  decide +kernel

end BinaryFloat

end Odorobo
