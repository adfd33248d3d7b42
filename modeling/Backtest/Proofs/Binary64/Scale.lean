import Backtest.Proofs.Binary64.Whole

namespace Backtest
namespace Binary64

open Float.Model
open Float.Model.UnpackedFloat

section Near

variable {n : Nat} {q x y : ℚ}

theorem abs_rounded_sub_le_div (h : 2 ^ (-1022 : Int) ≤ q) : |rounded q - q| ≤ q / 2 ^ 53 := by
  have pos : 0 < q := lt_of_lt_of_le (by positivity) h
  have log : -1022 ≤ Int.log 2 q := (Int.zpow_le_iff_le_log (b := 2) (by norm_num) pos).mp h
  have normal : spacing q = Int.log 2 q - 52 := by
    unfold spacing
    omega
  have near := abs_rounded_sub_le q
  rw [abs_of_pos pos, normal] at near
  have := two_zpow_log_sub_le pos
  linarith

/-- Closeness up to `n` roundings. -/
def Near (n : Nat) (x y : ℚ) : Prop :=
  y * (1 - 1 / 2 ^ 53) ^ n ≤ x ∧ x ≤ y * (1 + 1 / 2 ^ 53) ^ n

theorem Near.refl (x : ℚ) : Near 0 x x := by simp [Near]

theorem Near.nonneg (h : Near n x y) (hy : 0 ≤ y) : 0 ≤ x :=
  (mul_nonneg hy (pow_nonneg (by norm_num) n)).trans h.1

theorem Near.mul_left (h : Near n x y) {c : ℚ} (hc : 0 ≤ c) : Near n (c * x) (c * y) := by
  obtain ⟨lo, hi⟩ := h
  constructor
  · rw [mul_assoc]
    exact mul_le_mul_of_nonneg_left lo hc
  · rw [mul_assoc]
    exact mul_le_mul_of_nonneg_left hi hc

theorem Near.abs_sub_le (h : Near n x y) (hy : 0 ≤ y) (hn : n ≤ 8) :
    |x - y| ≤ y * ((n + 1) / 2 ^ 53) := by
  obtain ⟨lo, hi⟩ := h
  have up : (1 + 1 / 2 ^ 53 : ℚ) ^ n ≤ 1 + (n + 1) / 2 ^ 53 := by
    interval_cases n <;> norm_num
  have down : 1 - (n + 1) / 2 ^ 53 ≤ (1 - 1 / 2 ^ 53 : ℚ) ^ n := by
    interval_cases n <;> norm_num
  rw [abs_le]
  constructor
  · linarith [mul_le_mul_of_nonneg_left down hy]
  · linarith [mul_le_mul_of_nonneg_left up hy]

theorem Near.rounded (h : Near n x y) (hn : n ≤ 8) (hy : 1 / 2 ^ 100 ≤ y) :
    Near (n + 1) (rounded x) y := by
  have normal : 2 ^ (-1022 : Int) ≤ x := by
    have pos : 0 ≤ y := le_trans (by norm_num) hy
    have near := (abs_le.mp (h.abs_sub_le pos hn)).1
    have small : ((n : ℚ) + 1) / 2 ^ 53 ≤ 1 / 2 := by
      have : (n : ℚ) ≤ 8 := by exact_mod_cast hn
      linarith
    have least : (2 : ℚ) ^ (-1022 : Int) ≤ 1 / 2 ^ 101 := by
      rw [one_div, ← zpow_natCast, ← zpow_neg]
      exact zpow_le_zpow_right₀ (by norm_num) (by norm_num)
    linarith [mul_le_mul_of_nonneg_left small pos]
  obtain ⟨lo, hi⟩ := h
  obtain ⟨down, up⟩ := abs_le.mp (abs_rounded_sub_le_div normal)
  constructor
  · calc y * (1 - 1 / 2 ^ 53) ^ (n + 1)
        = y * (1 - 1 / 2 ^ 53) ^ n * (1 - 1 / 2 ^ 53) := by ring
      _ ≤ x * (1 - 1 / 2 ^ 53) := mul_le_mul_of_nonneg_right lo (by norm_num)
      _ ≤ Binary64.rounded x := by linarith
  · calc Binary64.rounded x
        ≤ x * (1 + 1 / 2 ^ 53) := by linarith
      _ ≤ y * (1 + 1 / 2 ^ 53) ^ n * (1 + 1 / 2 ^ 53) := mul_le_mul_of_nonneg_right hi (by norm_num)
      _ = y * (1 + 1 / 2 ^ 53) ^ (n + 1) := by ring

end Near

section Decade

variable {x y : Float} {i j : Nat}

structure Decade (x : Float) (i : Nat) : Prop where
  finite : isFinite x = true
  value_eq : value x = 10 ^ i

theorem Decade.one : Decade (1 : Float) 0 := by
  have unpacked_one : unpacked (1 : Float) = .finite .positive (2 ^ 52) (-52) (by norm_num) := by rfl
  refine ⟨by decide +kernel, ?_⟩
  rw [value, unpacked_one, valueOf_positive]
  norm_num

theorem Decade.ten : Decade (10.0 : Float) 1 := by
  have unpacked_ten : unpacked (10.0 : Float) = .finite .positive 5629499534213120 (-49) (by norm_num) := by
    rfl
  refine ⟨by decide +kernel, ?_⟩
  rw [value, unpacked_ten, valueOf_positive]
  norm_num

theorem rounded_ten_pow (hi : i ≤ 22) : rounded (10 ^ i) = 10 ^ i := by
  have digits : 5 ^ i < 2 ^ 53 := lt_of_le_of_lt (Nat.pow_le_pow_right (by norm_num) hi) (by norm_num)
  have exact := rounded_exact (e := i) digits (by omega)
  have ten : (10 : ℚ) ^ i = (5 ^ i : Nat) * 2 ^ (i : Int) := by
    rw [zpow_natCast, Nat.cast_pow, ← mul_pow]
    norm_num
  rw [ten, exact]

theorem ten_pow_le (hi : i ≤ 22) : (10 : ℚ) ^ i ≤ 2 ^ 74 :=
  (pow_le_pow_right₀ (by norm_num) hi).trans (by norm_num)

theorem Decade.mul (hx : Decade x i) (hy : Decade y j) (h : i + j ≤ 22) : Decade (x * y) (i + j) := by
  have rounds := mul_roundsTo hx.finite hy.finite
  rw [hx.value_eq, hy.value_eq, ← pow_add] at rounds
  have small : |(10 : ℚ) ^ (i + j)| ≤ 2 ^ 1023 := by
    rw [abs_of_pos (by positivity)]
    exact (ten_pow_le h).trans (pow_le_pow_right₀ (by norm_num) (by norm_num))
  have finite := rounds.isFinite small
  exact ⟨finite, (rounds.value_eq finite).trans (rounded_ten_pow h)⟩

/-- The lowest digit of the exponent decides whether the base is multiplied in. -/
theorem Decade.digit (hx : Decade x i) (hy : Decade y j) {n : Nat} (h : i + j * n ≤ 22) :
    Decade (if n % 2 = 1 then x * y else x) (i + j * (n % 2)) := by
  rcases Nat.mod_two_eq_zero_or_one n with even | odd
  · rw [even, if_neg (by decide)]
    exact hx
  · have := Nat.mul_le_mul_left j (Nat.mod_le n 2)
    rw [odd] at this ⊢
    rw [if_pos rfl]
    rw [mul_one] at this ⊢
    exact hx.mul hy (by omega)

/-- The bound on the power holds of the squares as well, as the last one that is taken is used. -/
theorem Decade.scaleByPow {r a : Float} {n : Nat} (hr : Decade r i) (ha : Decade a j)
    (h : i + j * n ≤ 22) : Decade (Arith.scaleByPow r a n) (i + j * n) := by
  induction n using Nat.strong_induction_on generalizing r a i j with
  | _ n ih =>
    have low := hr.digit ha h
    have digits : j * n = j * (n % 2) + (j + j) * (n / 2) := by
      nth_rewrite 1 [← Nat.mod_add_div n 2]
      ring
    rw [Arith.scaleByPow]
    rw [digits] at h ⊢
    split
    next last =>
      rw [last, mul_zero, add_zero]
      exact low
    next more =>
      have square : j + j ≤ (j + j) * (n / 2) := Nat.le_mul_of_pos_right _ (Nat.pos_of_ne_zero more)
      rw [← add_assoc] at h ⊢
      exact ih (n / 2) (by omega) low (ha.mul ha (by omega)) h

theorem Decade.natPow {n : Nat} (hn : n ≤ 22) : Decade (Arith.natPow (10.0 : Float) n) n := by
  have := Decade.one.scaleByPow Decade.ten (n := n) (by omega)
  rwa [zero_add, one_mul] at this

end Decade

section Below

variable {x y : Float} {q : ℚ}

/-- A double that is not above a number. The negative infinity is above none. -/
def Below (x : Float) (q : ℚ) : Prop :=
  unpacked x = .infinity .negative ∨ isFinite x = true ∧ value x ≤ q

theorem value_zero : value (0 : Float) = 0 := by
  have unpacked_zero : unpacked (0 : Float) = .zero .positive := by rfl
  rw [value, unpacked_zero]
  rfl

theorem Below.of_le (hy : isFinite y = true) (h : x ≤ y) : Below x (value y) := by
  have le : ((unpacked x).compare (unpacked y)).any (·.isLE) = true := of_decide_eq_true h
  cases hx : isFinite x with
  | true => exact .inr ⟨hx, (le_iff hx hy).mp h⟩
  | false =>
    rw [isFinite_eq] at hx hy
    -- of the doubles that are not finite, only one compares as smaller than a finite one
    match hux : unpacked x, huy : unpacked y with
    | .infinity .negative, _ => exact .inl hux
    | .infinity .positive, .finite .. | .infinity .positive, .zero _ =>
      rw [hux, huy] at le
      cases le
    | .notANumber, _ =>
      rw [hux] at le
      cases le
    | .finite .., _ | .zero _, _ =>
      rw [hux] at hx
      cases hx
    | .infinity .positive, .infinity _ | .infinity .positive, .notANumber =>
      rw [huy] at hy
      cases hy

theorem Below.lt (h : Below x q) (hy : isFinite y = true) (lt : q < value y) : x < y := by
  rcases h with inf | ⟨finite, le⟩
  · refine decide_eq_true_iff.mpr ?_
    change ((unpacked x).compare (unpacked y) == some .lt) = true
    rw [isFinite_eq] at hy
    rw [inf]
    match unpacked y, hy with
    | .zero _, _ | .finite .., _ => rfl
  · exact (lt_iff finite hy).mpr (le.trans_lt lt)

theorem RoundsTo.not_above (h : RoundsTo x q) {b : ℚ} (le : rounded q ≤ b) (hb : b < 2 ^ 1024) :
    Below x b := by
  cases h with
  | finite finite eq => exact .inr ⟨finite, eq.trans_le le⟩
  | above _ large => exact absurd (large.trans le) (not_le.mpr hb)
  | below h _ => exact .inl h

theorem Below.div (h : Below x 0) (hy : isFinite y = true) (pos : 0 < value y) : Below (x / y) 0 := by
  rcases h with inf | ⟨finite, le⟩
  · left
    suffices UnpackedFloat.div Format.binary64 (unpacked x) (unpacked y) = .infinity .negative from
      congrArg (fun u => (Float.Model.pack u).unpack) this
    rw [inf]
    rw [isFinite_eq] at hy
    unfold value at pos
    match unpacked y, hy, pos with
    | .finite .positive .., _, _ => exact UnpackedFloat.div.eq_def ..
    | .finite .negative m e hm, _, pos =>
      have size : (0 : ℚ) < m * 2 ^ e := by positivity
      rw [valueOf_negative] at pos
      exact absurd pos (by linarith)
    | .zero _, _, pos => exact absurd pos (lt_irrefl _)
  · have rounds := div_roundsTo finite hy pos.ne'
    exact rounds.not_above (rounded_nonpos (div_nonpos_of_nonpos_of_nonneg le pos.le)) (by positivity)

theorem rounded_lt_one (h : q ≤ 1 / 2) : rounded q < 1 := by
  rcases le_total q 0 with neg | pos
  · exact (rounded_nonpos neg).trans_lt one_pos
  linarith [rounded_le pos]

theorem Below.add (h : Below x 0) (hy : isFinite y = true) (le : value y ≤ 1 / 2) :
    ∃ q < 1, Below (x + y) q := by
  rcases h with inf | ⟨finite, le'⟩
  · refine ⟨0, one_pos, .inl ?_⟩
    suffices UnpackedFloat.add Format.binary64 (unpacked x) (unpacked y) = .infinity .negative from
      congrArg (fun u => (Float.Model.pack u).unpack) this
    rw [inf]
    rw [isFinite_eq] at hy
    match unpacked y, hy with
    | .finite .., _ | .zero _, _ => exact UnpackedFloat.add.eq_def ..
  · have small : rounded (value x + value y) < 1 := rounded_lt_one (by linarith)
    refine ⟨_, small, (add_roundsTo finite hy).not_above le_rfl (small.trans ?_)⟩
    exact one_lt_pow₀ (by norm_num) (by norm_num)

theorem Below.floor (h : Below x q) : Below (floor x) ⌊q⌋ := by
  rcases h with inf | ⟨finite, le⟩
  · have infinite : isFinite x = false := by
      rw [isFinite_eq, inf]
      rfl
    left
    rwa [Binary64.floor, infinite, Bool.false_and, if_neg Bool.false_ne_true]
  · obtain ⟨finite', eq⟩ := floor_eq finite
    refine .inr ⟨finite', eq.trans_le ?_⟩
    exact_mod_cast Int.floor_le_floor le

end Below

end Binary64
end Backtest
