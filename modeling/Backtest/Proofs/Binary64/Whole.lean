import Backtest.Proofs.Arith.Exact
import Backtest.Proofs.Binary64.Operations

namespace Backtest
namespace Binary64

open Float.Model
open Float.Model.UnpackedFloat

variable {x : Float}

theorem value_eq (h : isFinite x = true) :
    value x = unit (signOf x) * (mantissa x * 2 ^ exponent x) := by
  unfold value
  rw [unpacked_eq, if_neg (bne_iff_ne.mp h)]
  split
  next h0 =>
    rw [h0, Nat.cast_zero, zero_mul, mul_zero]
    rfl
  next => rfl

theorem value_of_isNegative (h : isFinite x = true) (neg : isNegative x = true) :
    value x = -(mantissa x * 2 ^ exponent x) := by
  rw [value_eq h, signOf, if_pos neg, unit, neg_one_mul]

theorem value_of_not_isNegative (h : isFinite x = true) (pos : isNegative x = false) :
    value x = mantissa x * 2 ^ exponent x := by
  rw [value_eq h, signOf, if_neg (Bool.eq_false_iff.mp pos), unit, one_mul]

theorem ofWhole_eq {n : Nat} (hn : n < 2 ^ 53) :
    isFinite (ofWhole x n) = true ∧ value (ofWhole x n) = if isNegative x then -(n : ℚ) else n := by
  obtain ⟨finite, eq⟩ := ofNat_eq hn
  unfold ofWhole
  split
  next =>
    rw [value_neg finite, eq]
    exact ⟨isFinite_neg finite, rfl⟩
  next => exact ⟨finite, eq⟩

theorem split_of_hasFraction (h : hasFraction x = true) :
    ∃ k : Nat, exponent x = -(k + 1 : Nat) ∧ wholePart x = mantissa x / 2 ^ (k + 1) ∧
      mantissa x % 2 ^ (k + 1) ≠ 0 := by
  unfold hasFraction at h
  obtain ⟨neg, rest⟩ := (Bool.and_eq_true _ _).mp h
  obtain ⟨k, hk⟩ := Nat.exists_eq_succ_of_ne_zero (n := (-exponent x).toNat)
    (by have := of_decide_eq_true neg; omega)
  have he := of_decide_eq_true neg
  rw [bne_iff_ne, Nat.shiftLeft_eq, one_mul, hk] at rest
  refine ⟨k, by omega, ?_, rest⟩
  unfold wholePart
  rw [if_neg (by omega), Nat.shiftRight_eq_div_pow, hk]

theorem wholePart_lt (h : hasFraction x = true) : wholePart x + 1 < 2 ^ 53 := by
  obtain ⟨k, -, hw, -⟩ := split_of_hasFraction h
  have lt := (canonical x).mantissa_lt
  have two : 2 ≤ 2 ^ (k + 1) := Nat.le_self_pow (by omega) 2
  have : mantissa x / 2 ^ (k + 1) ≤ mantissa x / 2 := Nat.div_le_div_left two (by norm_num)
  omega

theorem magnitude_eq {k : Nat} (he : exponent x = -(k + 1 : Nat)) :
    (mantissa x : ℚ) * 2 ^ exponent x = mantissa x / (2 ^ (k + 1) : Nat) := by
  rw [he, zpow_neg, zpow_natCast, Nat.cast_pow, Nat.cast_ofNat, div_eq_mul_inv]

theorem value_of_not_hasFraction (finite : isFinite x = true) (h : hasFraction x = false) :
    ∃ n : Int, value x = n := by
  obtain ⟨n, hn⟩ : ∃ n : Nat, (mantissa x : ℚ) * 2 ^ exponent x = n := by
    by_cases he : exponent x < 0
    · unfold hasFraction at h
      rw [decide_eq_true he, Bool.true_and, bne_eq_false_iff_eq, Nat.shiftLeft_eq, one_mul] at h
      obtain ⟨n, hn⟩ := Nat.dvd_of_mod_eq_zero h
      refine ⟨n, ?_⟩
      have scale : (2 : ℚ) ^ ((-exponent x).toNat : Int) * 2 ^ exponent x = 1 := by
        rw [← zpow_add₀ two_ne_zero, show ((-exponent x).toNat : Int) + exponent x = 0 by omega,
          zpow_zero]
      rw [hn, Nat.cast_mul, Nat.cast_pow, Nat.cast_ofNat, mul_right_comm, ← zpow_natCast, scale,
        one_mul]
    · obtain ⟨k, hk⟩ := Int.eq_ofNat_of_zero_le (not_lt.mp he)
      refine ⟨mantissa x * 2 ^ k, ?_⟩
      rw [hk, zpow_natCast]
      push_cast
      rfl
  rw [value_eq finite, hn]
  cases signOf x with
  | negative => exact ⟨-n, by simp [unit]⟩
  | positive => exact ⟨n, by simp [unit]⟩

theorem floor_neg_div {m d : Nat} (hd : 0 < d) (hr : m % d ≠ 0) :
    ⌊-((m : ℚ) / d)⌋ = -((m / d + 1 : Nat) : Int) := by
  have pos : (0 : ℚ) < d := Nat.cast_pos.mpr hd
  have split := Nat.div_add_mod m d
  have lt := Nat.mod_lt m hd
  generalize m / d = w at *
  have lower : (d : ℚ) * w < m := by exact_mod_cast (by omega : d * w < m)
  have upper : (m : ℚ) ≤ d * w + d := by exact_mod_cast (by omega : m ≤ d * w + d)
  rw [Int.floor_eq_iff]
  push_cast
  constructor
  · rw [neg_le_neg_iff, div_le_iff₀ pos]
    linarith
  · rw [neg_add_rev, neg_add_cancel_comm, neg_lt_neg_iff, lt_div_iff₀ pos]
    linarith

theorem floor_eq (finite : isFinite x = true) :
    isFinite (floor x) = true ∧ value (floor x) = ⌊value x⌋ := by
  cases h : hasFraction x with
  | false =>
    obtain ⟨n, hn⟩ := value_of_not_hasFraction finite h
    have same : floor x = x := if_neg (by rw [h, Bool.and_false]; exact Bool.false_ne_true)
    rw [same, hn, Int.floor_intCast]
    exact ⟨finite, rfl⟩
  | true =>
    obtain ⟨k, he, hw, hr⟩ := split_of_hasFraction h
    have lt := wholePart_lt h
    have made : floor x = ofWhole x (if isNegative x then wholePart x + 1 else wholePart x) :=
      if_pos (by rw [h, finite]; rfl)
    rw [made]
    cases neg : isNegative x with
    | false =>
      obtain ⟨finite', eq⟩ := ofWhole_eq (x := x) (n := wholePart x) (by omega)
      rw [neg, if_neg Bool.false_ne_true] at eq
      rw [if_neg Bool.false_ne_true, value_of_not_isNegative finite neg, magnitude_eq he,
        Rat.floor_natCast_div_natCast, eq]
      refine ⟨finite', ?_⟩
      rw [hw]
      norm_cast
    | true =>
      obtain ⟨finite', eq⟩ := ofWhole_eq (x := x) (n := wholePart x + 1) lt
      rw [neg, if_pos rfl] at eq
      rw [if_pos rfl, value_of_isNegative finite neg, magnitude_eq he,
        floor_neg_div (by positivity) hr, eq, Int.cast_neg, Int.cast_natCast]
      refine ⟨finite', ?_⟩
      rw [hw]

/-- The nearest whole number to a quotient, by a division with a half added. -/
theorem nearest_div (m k : Nat) :
    ⌊(m : ℚ) / (2 ^ (k + 1) : Nat) + 1 / 2⌋ = ((m + 2 ^ k) / 2 ^ (k + 1) : Nat) := by
  have half : (m : ℚ) / (2 ^ (k + 1) : Nat) + 1 / 2 = (m + 2 ^ k : Nat) / (2 ^ (k + 1) : Nat) := by
    push_cast
    rw [pow_succ]
    field_simp
  rw [half, Rat.floor_natCast_div_natCast]
  norm_cast

theorem nearest_intCast (n : Int) : Arith.nearest (n : ℚ) = n := by
  unfold Arith.nearest
  split
  · rw [Int.floor_eq_iff]
    constructor <;> linarith
  · rw [← Int.cast_neg, neg_eq_iff_eq_neg, Int.floor_eq_iff]
    constructor <;> linarith

theorem abs_nearest_sub_le {q : ℚ} (hq : 0 ≤ q) : |(Arith.nearest q : ℚ) - q| ≤ 1 / 2 := by
  have lo := Int.floor_le (q + 1 / 2)
  have hi := Int.lt_floor_add_one (q + 1 / 2)
  rw [Arith.nearest, if_pos hq, abs_le]
  constructor <;> linarith

theorem nearest_nonneg {q : ℚ} (hq : 0 ≤ q) : (0 : ℚ) ≤ Arith.nearest q := by
  rw [Arith.nearest, if_pos hq]
  exact_mod_cast Int.floor_nonneg.mpr (by linarith)

theorem round_eq (finite : isFinite x = true) :
    isFinite (round x) = true ∧ value (round x) = Arith.nearest (value x) := by
  cases h : hasFraction x with
  | false =>
    obtain ⟨n, hn⟩ := value_of_not_hasFraction finite h
    have same : round x = x := if_neg (by rw [h, Bool.and_false]; exact Bool.false_ne_true)
    rw [same, hn, nearest_intCast]
    exact ⟨finite, rfl⟩
  | true =>
    obtain ⟨k, he, hw, hr⟩ := split_of_hasFraction h
    have lt := wholePart_lt h
    have made : round x = ofWhole x ((mantissa x + 2 ^ k) / 2 ^ (k + 1)) := by
      unfold round
      rw [if_pos (by rw [h, finite]; rfl), he, neg_neg, Int.toNat_natCast, Nat.add_sub_cancel,
        Nat.shiftLeft_eq, one_mul, Nat.shiftRight_eq_div_pow]
    have bound : (mantissa x + 2 ^ k) / 2 ^ (k + 1) < 2 ^ 53 := by
      have power : 2 ^ (k + 1) = 2 * 2 ^ k := pow_succ' 2 k
      have one : 1 ≤ 2 ^ k := Nat.one_le_two_pow
      have := (canonical x).mantissa_lt
      refine Nat.div_lt_of_lt_mul ?_
      rw [power]
      nlinarith
    obtain ⟨finite', eq⟩ := ofWhole_eq (x := x) bound
    rw [made]
    refine ⟨finite', eq.trans ?_⟩
    unfold Arith.nearest
    cases neg : isNegative x with
    | false =>
      rw [if_neg Bool.false_ne_true, value_of_not_isNegative finite neg, magnitude_eq he,
        if_pos (by positivity), nearest_div]
      norm_cast
    | true =>
      have below : ¬0 ≤ -((mantissa x : ℚ) / (2 ^ (k + 1) : Nat)) := by
        have pos : 0 < mantissa x := Nat.pos_of_ne_zero fun h0 => hr (by rw [h0, Nat.zero_mod])
        have : (0 : ℚ) < mantissa x / (2 ^ (k + 1) : Nat) := by positivity
        linarith
      rw [if_pos rfl, value_of_isNegative finite neg, magnitude_eq he, if_neg below, neg_neg,
        nearest_div]
      norm_cast

end Binary64
end Backtest
