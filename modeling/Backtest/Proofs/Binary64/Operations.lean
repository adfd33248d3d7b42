import Backtest.Proofs.Binary64.Rounding

namespace Backtest
namespace Binary64

open Float.Model
open Float.Model.UnpackedFloat

section Result

variable {x : Float} {q : ℚ}

theorem RoundsTo.value_eq (h : RoundsTo x q) (finite : isFinite x = true) : value x = rounded q := by
  rw [isFinite_eq] at finite
  cases h with
  | finite _ eq => exact eq
  | above h _ | below h _ =>
    rw [h] at finite
    cases finite

theorem RoundsTo.isFinite (h : RoundsTo x q) (small : |q| ≤ 2 ^ 1023) : isFinite x = true := by
  obtain ⟨lo, hi⟩ := abs_le.mp (abs_rounded_sub_le_mul q)
  obtain ⟨above, below⟩ := abs_le.mp small
  have tiny : (1 : ℚ) / 2 ^ 1075 ≤ 1 := by
    rw [div_le_one (by positivity)]
    exact one_le_pow₀ (by norm_num)
  have four : (2 : ℚ) ^ 2 ≤ 2 ^ 1023 := pow_le_pow_right₀ (by norm_num) (by norm_num)
  have room : (2 : ℚ) ^ 1024 = 2 ^ 1023 * 2 := pow_succ 2 1023
  generalize (1 : ℚ) / 2 ^ 1075 = least at *
  cases h with
  | finite h _ => exact h
  | above _ beyond =>
    rw [room] at beyond
    generalize (2 : ℚ) ^ 1023 = most at beyond four small above below
    exfalso
    linarith only [lo, hi, tiny, small, above, below, four, beyond]
  | below _ beyond =>
    rw [room] at beyond
    generalize (2 : ℚ) ^ 1023 = most at beyond four small above below
    exfalso
    linarith only [lo, hi, tiny, small, above, below, four, beyond]

end Result

section Mul

theorem unit_mul (s s' : Sign) : unit (s * s') = unit s * unit s' := by
  cases s <;> cases s' <;> decide +kernel

theorem describes_exact (m : Nat) : Describes (.ofMantissaAndAccuracy m .exact) m := by
  simp [Describes, ExtendedMantissa.ofMantissaAndAccuracy, half]

/-- What a rounded mantissa stands for, the sign included. -/
theorem Begins.rounded {m : Nat} {e : Int} {acc : Accuracy} {v : ℚ} (h : Begins m e acc v)
    (s : Sign) :
    Shaped (roundWithAccuracy Format.binary64 s m e acc) ∧
      valueOf (roundWithAccuracy Format.binary64 s m e acc) = rounded (unit s * (v * 2 ^ e)) := by
  have hv := h.pos
  rw [rounded_unit_mul s (by positivity)]
  exact h.round s

theorem mul_shaped {a b : UnpackedFloat} (ha : Shaped a) (hb : Shaped b) :
    Shaped (UnpackedFloat.mul Format.binary64 a b) ∧
      valueOf (UnpackedFloat.mul Format.binary64 a b) = rounded (valueOf a * valueOf b) := by
  match a, b, ha, hb with
  | .zero _, .zero _, _, _ | .zero _, .finite .., _, _ =>
    refine ⟨trivial, ?_⟩
    rw [show valueOf (.zero _) = 0 from rfl, zero_mul, rounded_zero]
    rfl
  | .finite .., .zero _, _, _ =>
    refine ⟨trivial, ?_⟩
    rw [show valueOf (.zero _) = 0 from rfl, mul_zero, rounded_zero]
    rfl
  | .finite s m e hm, .finite s' m' e' hm', ha, hb =>
    have full : 2 ^ 52 ≤ m * m' ∨ e + e' ≤ -1074 := by
      have left : m ≤ m * m' := Nat.le_mul_of_pos_right m hm'
      have right : m' ≤ m * m' := Nat.le_mul_of_pos_left m' hm
      have := ha.full
      have := hb.full
      omega
    have begins := Begins.of_pos (Nat.mul_pos hm hm') (describes_exact (m * m')) full
    have product : unit (s * s') * (((m * m' : Nat) : ℚ) * 2 ^ (e + e')) =
        valueOf (.finite s m e hm) * valueOf (.finite s' m' e' hm') := by
      rw [unit_mul, zpow_add₀ two_ne_zero, Nat.cast_mul, valueOf, valueOf]
      ring
    rw [← product]
    exact begins.rounded (s * s')

variable {x y : Float}

theorem mul_roundsTo (hx : isFinite x = true) (hy : isFinite y = true) :
    RoundsTo (x * y) (value x * value y) :=
  roundsTo_pack (mul_shaped (shaped hx) (shaped hy)).1 (mul_shaped (shaped hx) (shaped hy)).2

end Mul

section Div

theorem unit_div (s s' : Sign) : unit (s / s') = unit s / unit s' := by
  cases s <;> cases s' <;> decide +kernel

theorem describes_quotient (n : Nat) {d : Nat} (hd : 0 < d) :
    Describes (.ofMantissaAndAccuracy (n / d) (accuracyOfFraction (n % d) d)) ((n : ℚ) / d) := by
  have pos : (0 : ℚ) < d := Nat.cast_pos.mpr hd
  have split : (n : ℚ) / d = (n / d : Nat) + (n % d : Nat) / d := by
    rw [div_eq_iff pos.ne', add_mul, div_mul_cancel₀ _ pos.ne']
    exact_mod_cast (Nat.div_add_mod' n d).symm
  have lt := Nat.mod_lt n hd
  rw [split]
  generalize n / d = m
  generalize n % d = r at lt
  have below : (r : ℚ) / d < 1 := (div_lt_one pos).mpr (by exact_mod_cast lt)
  unfold accuracyOfFraction
  by_cases h0 : r = 0
  · rw [if_pos h0, h0]
    simp [Describes, ExtendedMantissa.ofMantissaAndAccuracy, half]
  have above : (0 : ℚ) < r / d := div_pos (Nat.cast_pos.mpr (Nat.pos_of_ne_zero h0)) pos
  rw [if_neg h0]
  rcases lt_trichotomy (2 * r) d with h | h | h
  · have side : (r : ℚ) / d < 1 / 2 := by
      rw [div_lt_iff₀ pos]
      have : (2 * r : ℚ) < d := by exact_mod_cast h
      linarith
    rw [compare_lt_iff_lt.mpr h]
    simp [Describes, ExtendedMantissa.ofMantissaAndAccuracy, half]
    constructor <;> linarith
  · have side : (r : ℚ) / d = 1 / 2 := by
      rw [div_eq_iff pos.ne']
      have : (2 * r : ℚ) = d := by exact_mod_cast h
      linarith
    rw [compare_eq_iff_eq.mpr h]
    simp [Describes, ExtendedMantissa.ofMantissaAndAccuracy, half, side]
  · have side : 1 / 2 < (r : ℚ) / d := by
      rw [lt_div_iff₀ pos]
      have : (d : ℚ) < 2 * r := by exact_mod_cast h
      linarith
    rw [compare_gt_iff_gt.mpr h]
    simp [Describes, ExtendedMantissa.ofMantissaAndAccuracy, half]
    constructor <;> linarith

/-- The quotient of two mantissas is taken with enough digits. -/
theorem divCore_eq {m m' : Nat} (e e' : Int) (hm : 0 < m) (hm' : 0 < m') :
    ∃ (k : Nat) (d : Int), d + k = e - e' ∧ (2 ^ 52 ≤ m * 2 ^ k / m' ∨ d ≤ -1074) ∧
      divCore Format.binary64 m e m' e' =
        (m * 2 ^ k / m', d, accuracyOfFraction (m * 2 ^ k % m') m') := by
  have target : Format.binary64.targetExponent (totalExponent m e - totalExponent m' e') =
      max (m.log2 - m'.log2 + (e - e') - 53) (-1074) := by
    unfold Format.targetExponent totalExponent
    change max ((m.log2 : Int) + 1 + e - (m'.log2 + 1 + e') - 53) (-1074) = _
    congr 1
    omega
  unfold divCore
  dsimp only
  rw [target]
  generalize hd : min (e - e') (max ((m.log2 : Int) - m'.log2 + (e - e') - 53) (-1074)) = d
  obtain ⟨k, hk⟩ := Int.eq_ofNat_of_zero_le (show 0 ≤ e - e' - d by omega)
  rw [hk, Int.toNat_natCast, Nat.shiftLeft_eq]
  refine ⟨k, d, by omega, ?_, rfl⟩
  by_cases hmin : d ≤ -1074
  · exact .inr hmin
  have digits : m'.log2 + 53 ≤ m.log2 + k := by omega
  left
  rw [Nat.le_div_iff_mul_le hm']
  calc 2 ^ 52 * m'
      ≤ 2 ^ 52 * 2 ^ (m'.log2 + 1) := Nat.mul_le_mul_left _ Nat.lt_log2_self.le
    _ = 2 ^ (m'.log2 + 53) := by ring
    _ ≤ 2 ^ (m.log2 + k) := Nat.pow_le_pow_right (by norm_num) digits
    _ = 2 ^ m.log2 * 2 ^ k := pow_add _ _ _
    _ ≤ m * 2 ^ k := Nat.mul_le_mul_right _ (Nat.log2_self_le hm.ne')

theorem div_shaped {a b : UnpackedFloat} (ha : Shaped a) (hb : Shaped b) (hne : valueOf b ≠ 0) :
    Shaped (UnpackedFloat.div Format.binary64 a b) ∧
      valueOf (UnpackedFloat.div Format.binary64 a b) = rounded (valueOf a / valueOf b) := by
  match a, b, ha, hb, hne with
  | .zero _, .zero _, _, _, hne | .finite .., .zero _, _, _, hne => exact absurd rfl hne
  | .zero _, .finite .., _, _, _ =>
    refine ⟨trivial, ?_⟩
    rw [show valueOf (.zero _) = 0 from rfl, zero_div, rounded_zero]
    rfl
  | .finite s m e hm, .finite s' m' e' hm', ha, hb, _ =>
    obtain ⟨k, d, hk, full, core⟩ := divCore_eq e e' hm hm'
    have describes := describes_quotient (m * 2 ^ k) hm'
    have positive : (0 : ℚ) < (m * 2 ^ k : Nat) / m' := by positivity
    have begins : Begins (m * 2 ^ k / m') d (accuracyOfFraction (m * 2 ^ k % m') m')
        ((m * 2 ^ k : Nat) / m') := by
      rcases Nat.eq_zero_or_pos (m * 2 ^ k / m') with h0 | pos
      · rw [h0] at describes full ⊢
        exact .of_tiny describes positive (full.resolve_left (by norm_num))
      · exact .of_pos pos describes full
    have scale : (2 : ℚ) ^ k * 2 ^ d = 2 ^ e / 2 ^ e' := by
      rw [← zpow_natCast, ← zpow_add₀ two_ne_zero, ← zpow_sub₀ two_ne_zero, add_comm, hk]
    have quotient : unit (s / s') * (((m * 2 ^ k : Nat) : ℚ) / m' * 2 ^ d) =
        valueOf (.finite s m e hm) / valueOf (.finite s' m' e' hm') := by
      rw [unit_div, valueOf, valueOf, Nat.cast_mul, Nat.cast_pow, Nat.cast_ofNat,
        show (m : ℚ) * 2 ^ k / m' * 2 ^ d = m / m' * (2 ^ k * 2 ^ d) by ring, scale]
      ring
    have result : UnpackedFloat.div Format.binary64 (.finite s m e hm) (.finite s' m' e' hm') =
        roundWithAccuracy Format.binary64 (s / s') (m * 2 ^ k / m') d
          (accuracyOfFraction (m * 2 ^ k % m') m') := by
      rw [UnpackedFloat.div.eq_def]
      dsimp only
      rw [core]
    rw [result, ← quotient]
    exact begins.rounded (s / s')

variable {x y : Float}

theorem div_roundsTo (hx : isFinite x = true) (hy : isFinite y = true) (hne : value y ≠ 0) :
    RoundsTo (x / y) (value x / value y) :=
  roundsTo_pack (div_shaped (shaped hx) (shaped hy) hne).1 (div_shaped (shaped hx) (shaped hy) hne).2

end Div

section Add

theorem apply_cast (s : Sign) (n : Int) : ((s.apply n : Int) : ℚ) = unit s * n := by
  cases s <;> simp [Sign.apply, unit]

theorem rounded_valueOf {u : UnpackedFloat} (h : Shaped u) : rounded (valueOf u) = valueOf u := by
  match u, h with
  | .zero _, _ => exact rounded_zero
  | .finite s m e hm, h =>
    have exact := rounded_exact h.mantissa_lt h.exponent_ge
    rw [rounded_of_nonneg (by positivity)] at exact
    rw [valueOf, rounded_unit_mul s (by positivity), exact]

theorem round_shaped (s : Sign) {m : Nat} (hm : 0 < m) (e : Int) :
    Shaped (UnpackedFloat.round Format.binary64 s m e) ∧
      valueOf (UnpackedFloat.round Format.binary64 s m e) = rounded (unit s * (m * 2 ^ e)) := by
  unfold UnpackedFloat.round decreaseExponent
  dsimp only
  rw [targetExponent_eq]
  generalize hk : (e - max (m.log2 + e - 52) (-1074)).toNat = k
  rw [Nat.shiftLeft_eq]
  have full : 2 ^ 52 ≤ m * 2 ^ k ∨ e - k ≤ -1074 := by
    by_cases hmin : e - k ≤ -1074
    · exact .inr hmin
    left
    calc 2 ^ 52 ≤ 2 ^ (m.log2 + k) := Nat.pow_le_pow_right (by norm_num) (by omega)
      _ = 2 ^ m.log2 * 2 ^ k := pow_add _ _ _
      _ ≤ m * 2 ^ k := Nat.mul_le_mul_right _ (Nat.log2_self_le hm.ne')
  have begins := Begins.of_pos (by positivity) (describes_exact (m * 2 ^ k)) full
  have same : ((m * 2 ^ k : Nat) : ℚ) * 2 ^ (e - k) = m * 2 ^ e := by
    rw [Nat.cast_mul, Nat.cast_pow, Nat.cast_ofNat, mul_assoc, ← zpow_natCast, ← zpow_add₀ two_ne_zero,
      add_sub_cancel]
  rw [← same]
  exact begins.rounded s

theorem normalize_shaped (n e : Int) (s : Sign) :
    Shaped (UnpackedFloat.normalize Format.binary64 n e s) ∧
      valueOf (UnpackedFloat.normalize Format.binary64 n e s) = rounded (n * 2 ^ e) := by
  unfold UnpackedFloat.normalize
  rcases lt_trichotomy n 0 with h | rfl | h
  · rw [compare_lt_iff_lt.mpr h]
    dsimp only
    obtain ⟨m, hm⟩ := Int.eq_ofNat_of_zero_le (neg_nonneg.mpr h.le)
    have cast : (n : ℚ) = -m := by
      rw [← Int.cast_natCast, ← hm, Int.cast_neg, neg_neg]
    rw [hm, Int.toNat_natCast, cast, neg_mul]
    have := round_shaped .negative (m := m) (by omega) e
    rwa [unit, neg_one_mul] at this
  · refine ⟨trivial, ?_⟩
    rw [Int.cast_zero, zero_mul, rounded_zero]
    rfl
  · rw [compare_gt_iff_gt.mpr h]
    dsimp only
    obtain ⟨m, rfl⟩ := Int.eq_ofNat_of_zero_le h.le
    rw [Int.toNat_natCast, Int.cast_natCast]
    have := round_shaped .positive (m := m) (by omega) e
    rwa [unit, one_mul] at this

theorem decreaseExponent_value (s : Sign) (m : Nat) {e d : Int} (h : d ≤ e) :
    ((s.apply (decreaseExponent m e d).1 : Int) : ℚ) * 2 ^ d = unit s * (m * 2 ^ e) := by
  obtain ⟨k, hk⟩ := Int.eq_ofNat_of_zero_le (sub_nonneg.mpr h)
  unfold decreaseExponent
  dsimp only
  rw [hk, Int.toNat_natCast, apply_cast, Nat.shiftLeft_eq, show e = k + d by omega,
    zpow_add₀ two_ne_zero, zpow_natCast]
  push_cast
  ring

theorem add_shaped {a b : UnpackedFloat} (ha : Shaped a) (hb : Shaped b) :
    Shaped (UnpackedFloat.add Format.binary64 a b) ∧
      valueOf (UnpackedFloat.add Format.binary64 a b) = rounded (valueOf a + valueOf b) := by
  match a, b, ha, hb with
  | .zero s, .zero s', _, _ =>
    rw [show valueOf (.zero _) = 0 from rfl, show valueOf (.zero _) = 0 from rfl, add_zero,
      rounded_zero, UnpackedFloat.add.eq_def]
    dsimp only
    split <;> exact ⟨trivial, rfl⟩
  | .zero s, .finite s' m e hm, _, hb =>
    rw [show valueOf (.zero _) = 0 from rfl, zero_add, rounded_valueOf hb]
    exact ⟨hb, rfl⟩
  | .finite s m e hm, .zero s', ha, _ =>
    rw [show valueOf (.zero _) = 0 from rfl, add_zero, rounded_valueOf ha]
    exact ⟨ha, rfl⟩
  | .finite s m e hm, .finite s' m' e' hm', _, _ =>
    have sum : ((s.apply (decreaseExponent m e (min e e')).1 +
        s'.apply (decreaseExponent m' e' (min e e')).1 : Int) : ℚ) * 2 ^ min e e' =
        valueOf (.finite s m e hm) + valueOf (.finite s' m' e' hm') := by
      rw [Int.cast_add, add_mul, decreaseExponent_value s m (min_le_left _ _),
        decreaseExponent_value s' m' (min_le_right _ _)]
      rfl
    rw [← sum]
    exact normalize_shaped _ _ _

variable {x y : Float}

theorem add_roundsTo (hx : isFinite x = true) (hy : isFinite y = true) :
    RoundsTo (x + y) (value x + value y) :=
  roundsTo_pack (add_shaped (shaped hx) (shaped hy)).1 (add_shaped (shaped hx) (shaped hy)).2

end Add

section OfNat

theorem rounded_natCast {n : Nat} (hn : n < 2 ^ 53) : rounded n = n := by
  have exact := rounded_exact (e := 0) hn (by norm_num)
  rwa [zpow_zero, mul_one] at exact

theorem natCast_le_pow {n : Nat} (hn : n < 2 ^ 53) : |(n : ℚ)| ≤ 2 ^ 1023 := by
  rw [abs_of_nonneg (Nat.cast_nonneg n)]
  have small : (n : ℚ) ≤ 2 ^ 53 := by exact_mod_cast hn.le
  exact small.trans (pow_le_pow_right₀ (by norm_num) (by norm_num))

theorem toFloat_roundsTo {n : Nat} (hn : n < 2 ^ 53) : RoundsTo n.toUInt64.toFloat n := by
  have toNat : n.toUInt64.toNat = n := by
    rw [Nat.toUInt64_eq, UInt64.toNat_ofNat']
    exact Nat.mod_eq_of_lt (by omega)
  obtain ⟨shaped, eq⟩ := normalize_shaped n 0 .positive
  rw [zpow_zero, mul_one, Int.cast_natCast] at eq
  have model : n.toUInt64.toFloat =
      .ofModel (Float.Model.pack (UnpackedFloat.normalize Format.binary64 n 0 .positive)) := by
    change Float.ofModel (Float.Model.pack
      (UnpackedFloat.normalize Format.binary64 n.toUInt64.toNat 0 .positive)) = _
    rw [toNat]
  rw [model]
  exact roundsTo_pack shaped eq

theorem ofNat_eq {n : Nat} (hn : n < 2 ^ 53) :
    isFinite (Float.ofNat n) = true ∧ value (Float.ofNat n) = n := by
  have small : n < 2 ^ 53 ∧ 0 ≤ 22 := ⟨hn, by norm_num⟩
  have unfolded : Float.ofNat n = n.toUInt64.toFloat * Float.ofBits 0x3FF0000000000000 := by
    change Float.ofScientific n false 0 = _
    unfold Float.ofScientific
    rw [dif_pos small]
    rfl
  have hone : isFinite (Float.ofBits 0x3FF0000000000000) = true := by decide +kernel
  have one : value (Float.ofBits 0x3FF0000000000000) = 1 := by
    have : unpacked (Float.ofBits 0x3FF0000000000000) =
        .finite .positive (2 ^ 52) (-52) (by norm_num) := by rfl
    rw [value, this, valueOf_positive]
    norm_num
  have rounds := toFloat_roundsTo hn
  have finite := rounds.isFinite (natCast_le_pow hn)
  have product := mul_roundsTo finite hone
  rw [one, mul_one, rounds.value_eq finite, rounded_natCast hn] at product
  rw [unfolded]
  have finite' := product.isFinite (natCast_le_pow hn)
  exact ⟨finite', (product.value_eq finite').trans (rounded_natCast hn)⟩

end OfNat

end Binary64
end Backtest
