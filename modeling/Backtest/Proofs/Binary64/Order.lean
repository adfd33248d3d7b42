import Backtest.Proofs.Binary64.Scale

namespace Backtest
namespace Binary64

open Float.Model
open Float.Model.UnpackedFloat

variable {x y : Float}

theorem compare_swap (a b : UnpackedFloat) : b.compare a = (a.compare b).map Ordering.swap := by
  have magnitudes (e e' : Int) (m m' : Nat) :
      (compare e' e).then (compare m' m) = ((compare e e').then (compare m m')).swap := by
    rw [Ordering.swap_then, Int.compare_swap, Nat.compare_swap]
  match a, b with
  | .notANumber, .notANumber | .notANumber, .infinity _ | .notANumber, .zero _
  | .notANumber, .finite .. | .infinity _, .notANumber | .zero _, .notANumber
  | .finite .., .notANumber => rfl
  | .infinity .positive, .infinity .positive | .infinity .positive, .infinity .negative
  | .infinity .negative, .infinity .positive | .infinity .negative, .infinity .negative => rfl
  | .infinity .positive, .zero _ | .infinity .positive, .finite .. | .infinity .negative, .zero _
  | .infinity .negative, .finite .. | .zero _, .infinity .positive | .zero _, .infinity .negative
  | .finite .., .infinity .positive | .finite .., .infinity .negative => rfl
  | .zero _, .zero _ | .zero _, .finite .positive .. | .zero _, .finite .negative ..
  | .finite .positive .., .zero _ | .finite .negative .., .zero _
  | .finite .negative .., .finite .positive .. | .finite .positive .., .finite .negative .. => rfl
  | .finite .positive m e _, .finite .positive m' e' _ => exact congrArg some (magnitudes e e' m m')
  | .finite .negative m e _, .finite .negative m' e' _ =>
    exact congrArg (some ∘ Ordering.swap) (magnitudes e e' m m')

theorem not_le_of_lt (h : x < y) : ¬ y ≤ x := by
  intro le
  have lt : ((unpacked x).compare (unpacked y) == some .lt) = true := of_decide_eq_true h
  have le : ((unpacked y).compare (unpacked x)).any (·.isLE) = true := of_decide_eq_true le
  rw [compare_swap, beq_iff_eq.mp lt] at le
  cases le

theorem lt_asymm (h : x < y) : ¬ y < x := by
  intro gt
  have lt : ((unpacked x).compare (unpacked y) == some .lt) = true := of_decide_eq_true h
  have gt : ((unpacked y).compare (unpacked x) == some .lt) = true := of_decide_eq_true gt
  rw [compare_swap, beq_iff_eq.mp lt] at gt
  cases gt

theorem one_le_wholePart (h : (1 : ℚ) ≤ mantissa x * 2 ^ exponent x) : 1 ≤ wholePart x := by
  unfold wholePart
  split
  next he =>
    obtain ⟨k, hk⟩ := Int.eq_ofNat_of_zero_le he
    rw [hk, zpow_natCast] at h
    rw [hk, Int.toNat_natCast, Nat.shiftLeft_eq]
    exact_mod_cast h
  next he =>
    obtain ⟨k, hk⟩ := Int.eq_ofNat_of_zero_le (a := -exponent x) (by omega)
    rw [← neg_neg (exponent x), hk, zpow_neg, zpow_natCast, ← div_eq_mul_inv, one_le_div (by positivity)]
      at h
    rw [hk, Int.toNat_natCast, Nat.shiftRight_eq_div_pow, Nat.one_le_div_iff (by positivity)]
    exact_mod_cast h

theorem unpacked_of_not_isFinite (number : isNaN x = false) (h : isFinite x = false) :
    unpacked x = .infinity (signOf x) := by
  have biased_eq : biased x = 2047 := by simpa [isFinite] using h
  have fraction_eq : fraction x = 0 := by simpa [isNaN, biased_eq] using number
  rw [unpacked_eq, if_pos biased_eq, if_pos fraction_eq]

theorem isNaN_of_beq_self (h : (x == x) = true) : isNaN x = false := by
  rw [isNaN, Bool.and_eq_false_iff, or_iff_not_imp_left]
  intro hb
  have biased_eq : biased x = 2047 := by simpa using hb
  by_contra hf
  have fraction_ne : fraction x ≠ 0 := by simpa using hf
  have undefined : unpacked x = .notANumber := by
    rw [unpacked_eq, if_pos biased_eq, if_neg fraction_ne]
  change (unpacked x).beq (unpacked x) = true at h
  rw [undefined] at h
  cases h

theorem one_le_whole {hi : Int} (hi1 : 1 ≤ hi) (number : isNaN x = false) (h : ¬ x < 1) :
    1 ≤ whole 0 hi x := by
  have one : isFinite (1 : Float) = true ∧ value (1 : Float) = 1 := ofNat_eq (n := 1) (by norm_num)
  have positive : isNegative x = false := by
    by_contra neg
    rw [Bool.not_eq_false] at neg
    apply h
    cases finite : isFinite x with
    | true =>
      rw [lt_iff finite one.1, one.2, value_of_isNegative finite neg]
      have : (0 : ℚ) ≤ mantissa x * 2 ^ exponent x := by positivity
      linarith
    | false =>
      have inf := unpacked_of_not_isFinite number finite
      rw [signOf, if_pos neg] at inf
      exact Below.lt (q := 0) (.inl inf) one.1 (by rw [one.2]; norm_num)
  unfold whole
  rw [number, positive, if_neg Bool.false_ne_true, if_neg Bool.false_ne_true]
  cases finite : isFinite x with
  | true =>
    rw [lt_iff finite one.1, one.2, not_lt, value_of_not_isNegative finite positive] at h
    have := one_le_wholePart h
    dsimp only
    rw [if_pos rfl]
    omega
  | false => exact hi1

end Binary64
end Backtest
