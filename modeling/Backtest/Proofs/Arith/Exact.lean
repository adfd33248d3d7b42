import Backtest.Arith
import Backtest.Decimal.Notation
import Mathlib.Algebra.Order.Floor.Ring
import Mathlib.Data.Rat.Floor
import Mathlib.Algebra.Order.Archimedean.Real.Basic

namespace Backtest

namespace Arith

section Whole

variable {K : Type} [Field K] [LinearOrder K] [FloorRing K]

def truncate (a : K) : Int := if 0 ≤ a then ⌊a⌋ else -⌊-a⌋

/-- The nearest whole number, a half going away from zero. -/
def nearest (a : K) : Int := if 0 ≤ a then ⌊a + 1 / 2⌋ else -⌊-a + 1 / 2⌋

end Whole

/-- Arithmetic whose amounts stand for real numbers. Nothing is said of roots, logarithms, powers and
texts, for which an arithmetic may have no exact result. -/
class Exact (α : Type) [Arith α] where
  value : α → ℝ
  value_injective : Function.Injective value
  value_zero : value 0 = 0
  value_one : value 1 = 1
  value_add (a b : α) : value (a + b) = value a + value b
  value_sub (a b : α) : value (a - b) = value a - value b
  value_neg (a : α) : value (-a) = -value a
  value_mul (a b : α) : value (a * b) = value a * value b
  value_div (a b : α) : value (a / b) = value a / value b
  value_ofInt (n : Int) : value (Arith.ofInt n) = n
  value_ofScientific (digits : Nat) (below : Bool) (places : Nat) :
    value (OfScientific.ofScientific digits below places) =
      OfScientific.ofScientific digits below places
  value_floor (a : α) : value (Arith.floor a) = ⌊value a⌋
  value_round (a : α) : value (Arith.round a) = nearest (value a)
  whole_eq (lo hi : Int) (a : α) : Arith.whole lo hi a = max lo (min hi (truncate (value a)))
  lt_iff (a b : α) : a < b ↔ value a < value b
  le_iff (a b : α) : a ≤ b ↔ value a ≤ value b
  beq_iff (a b : α) : (a == b) = true ↔ a = b
  isFinite_eq (a : α) : Arith.isFinite a = true

open Exact (value)

theorem value_ofCount {α : Type} [Arith α] [Exact α] (n : Nat) : value (ofCount n : α) = n := by
  unfold ofCount
  rw [Exact.value_ofInt, Int.cast_natCast]

theorem value_foldl_add {α : Type} [Arith α] [Exact α] (start : α) (xs : List α) :
    value (xs.foldl (· + ·) start) = value start + (xs.map value).sum := by
  induction xs generalizing start with
  | nil => simp
  | cons x rest ih =>
    rw [List.foldl_cons, ih, Exact.value_add, List.map_cons, List.sum_cons, add_assoc]

theorem value_total {α : Type} [Arith α] [Exact α] (xs : List α) :
    value (total xs) = (xs.map value).sum := by
  unfold total
  rw [value_foldl_add, Exact.value_zero, zero_add]

theorem value_larger {α : Type} [Arith α] [Exact α] (a b : α) :
    value (larger a b) = max (value a) (value b) := by
  unfold larger
  rw [if_pos ((Exact.beq_iff a a).mpr rfl)]
  split
  next lt => exact (max_eq_right ((Exact.lt_iff a b).mp lt).le).symm
  next ge => exact (max_eq_left (not_lt.mp (mt (Exact.lt_iff a b).mpr ge))).symm

theorem value_smaller {α : Type} [Arith α] [Exact α] (a b : α) :
    value (smaller a b) = min (value a) (value b) := by
  unfold smaller
  rw [if_pos ((Exact.beq_iff a a).mpr rfl)]
  split
  next lt => exact (min_eq_right ((Exact.lt_iff b a).mp lt).le).symm
  next ge => exact (min_eq_left (not_lt.mp (mt (Exact.lt_iff b a).mpr ge))).symm

theorem value_magnitude {α : Type} [Arith α] [Exact α] (a : α) : value (magnitude a) = |value a| := by
  have negative := Exact.lt_iff a 0
  rw [Exact.value_zero] at negative
  unfold magnitude
  split
  next less =>
    rw [Exact.value_neg, abs_of_neg (negative.mp less)]
  next more =>
    rw [abs_of_nonneg (not_lt.mp (mt negative.mpr more))]
    split
    next zero => rw [(Exact.beq_iff a 0).mp zero]
    next => rfl

theorem truncate_cast (a : ℚ) : truncate (a : ℝ) = truncate a := by
  unfold truncate
  rw [← Rat.cast_neg, Rat.floor_cast, Rat.floor_cast]
  simp only [Rat.cast_nonneg]

theorem nearest_cast (a : ℚ) : nearest (a : ℝ) = nearest a := by
  have half : (1 / 2 : ℝ) = ((1 / 2 : ℚ) : ℝ) := by norm_num
  unfold nearest
  rw [← Rat.cast_neg, half, ← Rat.cast_add, ← Rat.cast_add, Rat.floor_cast, Rat.floor_cast]
  simp only [Rat.cast_nonneg]

/-- The arithmetic of rational numbers. Zero stands for roots, logarithms and powers, which lead out of
them. -/
instance : Arith ℚ where
  decLt := inferInstance
  decLe := inferInstance
  ofInt n := n
  isFinite _ := true
  floor a := ⌊a⌋
  round a := nearest a
  whole lo hi a := max lo (min hi (truncate a))
  sqrt _ := 0
  ln _ := 0
  pow _ _ := 0
  places a :=
    if 0 < a then ((List.range (a.den + 1)).find? (a.den ≤ a.num.toNat * 10 ^ ·)).getD 0 else 0
  fixedText n a :=
    (if a < 0 then "-" else "") ++
      Decimal.pointed (Decimal.Ratio.nearest ⟨a.num.natAbs * 10 ^ n, a.den⟩) n

instance : Exact ℚ where
  value a := a
  value_injective := Rat.cast_injective
  value_zero := Rat.cast_zero
  value_one := Rat.cast_one
  value_add := Rat.cast_add
  value_sub := Rat.cast_sub
  value_neg := Rat.cast_neg
  value_mul := Rat.cast_mul
  value_div := Rat.cast_div
  value_ofInt := Rat.cast_intCast
  value_ofScientific := Rat.cast_ofScientific
  value_floor a := by
    rw [Rat.floor_cast]
    exact Rat.cast_intCast _
  value_round a := by
    rw [nearest_cast]
    exact Rat.cast_intCast _
  whole_eq lo hi a := by
    rw [truncate_cast]
    rfl
  lt_iff a b := Rat.cast_lt.symm
  le_iff a b := Rat.cast_le.symm
  beq_iff a b := beq_iff_eq
  isFinite_eq _ := rfl

example : places (0.01 : ℚ) = 2 := by decide +kernel

end Arith
end Backtest
