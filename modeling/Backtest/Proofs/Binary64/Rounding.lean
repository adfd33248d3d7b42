import Backtest.Proofs.Binary64.Value

namespace Backtest
namespace Binary64

open Float.Model
open Float.Model.UnpackedFloat

/-- The nearest whole number to one that is not negative, a half going to the even one. -/
def nearestEven (q : ℚ) : Nat :=
  if q - ⌊q⌋₊ < 1 / 2 then ⌊q⌋₊ else if 1 / 2 < q - ⌊q⌋₊ then ⌊q⌋₊ + 1 else ⌊q⌋₊ + ⌊q⌋₊ % 2

/-- The exponent of the spacing of doubles near a positive number. -/
def spacing (q : ℚ) : Int := max (Int.log 2 q - 52) (-1074)

def roundedMagnitude (q : ℚ) : ℚ := nearestEven (q / 2 ^ spacing q) * 2 ^ spacing q

/-- A number rounded to doubles, as if there were no largest one. -/
def rounded (q : ℚ) : ℚ := if q < 0 then -roundedMagnitude (-q) else roundedMagnitude q

inductive RoundsTo (x : Float) (q : ℚ) : Prop
  | finite (h : isFinite x = true) (eq : value x = rounded q)
  | above (h : unpacked x = .infinity .positive) (large : 2 ^ 1024 ≤ rounded q)
  | below (h : unpacked x = .infinity .negative) (large : rounded q ≤ -2 ^ 1024)

section Guard

def half (bit : Bool) : ℚ := if bit then 1 / 2 else 0

/-- A mantissa with its guard bits describes a number: exactly, or as one that lies strictly within the
half behind. -/
def Describes (em : ExtendedMantissa) (v : ℚ) : Prop :=
  if em.stickyBit then
    em.mantissa + half em.roundBit < v ∧ v < em.mantissa + half em.roundBit + 1 / 2
  else v = em.mantissa + half em.roundBit

variable {em : ExtendedMantissa} {v : ℚ}

theorem Describes.bounds (h : Describes em v) : em.mantissa ≤ v ∧ v < em.mantissa + 1 := by
  obtain ⟨m, r, s⟩ := em
  cases r <;> cases s <;> simp [Describes, half] at h <;> constructor <;> linarith

theorem Describes.shiftRightOne (h : Describes em v) : Describes em.shiftRightOne (v / 2) := by
  obtain ⟨m, r, s⟩ := em
  have low : (m : ℚ) = 2 * ((m / 2 : Nat) + half (m % 2 != 0)) := by
    have split : (m : ℚ) = (m % 2 : Nat) + 2 * (m / 2 : Nat) := by
      exact_mod_cast (Nat.mod_add_div m 2).symm
    rcases Nat.mod_two_eq_zero_or_one m with even | odd
    · rw [split, even]
      simp [half]
    · rw [split, odd]
      simp [half]
      ring
  unfold Describes ExtendedMantissa.shiftRightOne at *
  dsimp only at h ⊢
  generalize half (m % 2 != 0) = bit at low
  cases r <;> cases s <;> simp [half] at h ⊢
  · linarith
  all_goals constructor <;> linarith

theorem Describes.shiftRight (h : Describes em v) (n : Nat) : Describes (em >>> n) (v / 2 ^ n) := by
  change Describes (n.repeat ExtendedMantissa.shiftRightOne em) _
  induction n with
  | zero => simpa [Nat.repeat] using h
  | succ n ih =>
    rw [Nat.repeat, pow_succ, ← div_div]
    exact ih.shiftRightOne

theorem Describes.roundedMantissa (h : Describes em v) : em.roundedMantissa = nearestEven v := by
  obtain ⟨lo, hi⟩ := h.bounds
  have floor : ⌊v⌋₊ = em.mantissa := (Nat.floor_eq_iff ((Nat.cast_nonneg _).trans lo)).mpr ⟨lo, hi⟩
  unfold nearestEven
  rw [floor]
  obtain ⟨m, r, s⟩ := em
  cases r <;> cases s <;> simp [Describes, half] at h <;>
    simp only [ExtendedMantissa.roundedMantissa, ExtendedMantissa.accuracy,
      Accuracy.roundToNearestEven]
  · rw [if_pos (by linarith)]
  · rw [if_pos (by linarith)]
  · rw [if_neg (by linarith), if_neg (by linarith)]
  · rw [if_neg (by linarith), if_pos (by linarith)]

end Guard

section Spacing

variable {q : ℚ}

theorem floor_le_nearestEven (q : ℚ) : ⌊q⌋₊ ≤ nearestEven q := by
  unfold nearestEven
  split_ifs <;> omega

theorem nearestEven_le_floor_add_one (q : ℚ) : nearestEven q ≤ ⌊q⌋₊ + 1 := by
  unfold nearestEven
  split_ifs <;> omega

theorem lt_two_zpow (q : ℚ) : q / 2 ^ spacing q < 2 ^ 53 := by
  rw [div_lt_iff₀ (by positivity), ← zpow_natCast, ← zpow_add₀ (by norm_num)]
  refine (Int.lt_zpow_succ_log_self (b := 2) (by norm_num) q).trans_le ?_
  refine zpow_le_zpow_right₀ (by norm_num) ?_
  unfold spacing
  omega

/-- Numbers have 53 digits at their spacing, except the least ones. -/
theorem two_zpow_le (hq : 0 < q) : 2 ^ 52 ≤ q / 2 ^ spacing q ∨ spacing q = -1074 := by
  by_cases h : spacing q = -1074
  · exact .inr h
  left
  rw [le_div_iff₀ (by positivity), ← zpow_natCast, ← zpow_add₀ (by norm_num)]
  have log : ((52 : Nat) : Int) + spacing q = Int.log 2 q := by
    unfold spacing at h ⊢
    omega
  rw [log]
  exact Int.zpow_log_le_self (b := 2) (by norm_num) hq

theorem log_mul_zpow {m : Nat} {v : ℚ} (hm : 0 < m) (lo : m ≤ v) (hi : v < m + 1) (e : Int) :
    Int.log 2 (v * 2 ^ e) = m.log2 + e := by
  have hv : 0 < v := (Nat.cast_pos.mpr hm).trans_le lo
  have below : (2 : ℚ) ^ m.log2 ≤ v := by
    refine le_trans ?_ lo
    exact_mod_cast Nat.log2_self_le hm.ne'
  have above : v < (2 : ℚ) ^ (m.log2 + 1) := by
    refine hi.trans_le ?_
    exact_mod_cast Nat.lt_log2_self
  have pos : 0 < v * 2 ^ e := by positivity
  have scale : (0 : ℚ) < 2 ^ e := by positivity
  have atLeast := (Int.zpow_le_iff_le_log (b := 2) (by norm_num) (x := m.log2 + e) pos).mp (by
    rw [Nat.cast_ofNat, zpow_add₀ (by norm_num), zpow_natCast]
    exact mul_le_mul_of_nonneg_right below scale.le)
  have atMost := (Int.lt_zpow_iff_log_lt (b := 2) (by norm_num) (x := (m.log2 + 1 : Nat) + e) pos).mp (by
    rw [Nat.cast_ofNat, zpow_add₀ (by norm_num), zpow_natCast]
    exact mul_lt_mul_of_pos_right above scale)
  push_cast at atMost
  omega

theorem targetExponent_eq (m : Nat) (e : Int) :
    Format.binary64.targetExponent (totalExponent m e) = max (m.log2 + e - 52) (-1074) := by
  unfold Format.targetExponent totalExponent
  change max ((m.log2 : Int) + 1 + e - 53) (-1074) = _
  congr 1
  omega

end Spacing

section Shift

theorem shift_exact {r : Nat} {t : Int} (hr : r < 2 ^ 53) (ht : -1074 ≤ t) :
    shiftToTargetExponent Format.binary64 r t .exact = (⟨r, false, false⟩, t) := by
  have log : r.log2 ≤ 52 := by
    by_cases h : r = 0
    · rw [h]
      decide
    · have := (Nat.log2_lt h).mpr hr
      omega
  have none : (Format.binary64.targetExponent (totalExponent r t) - t).toNat = 0 := by
    rw [targetExponent_eq]
    omega
  unfold shiftToTargetExponent shiftToExponent
  dsimp only
  rw [none, Nat.cast_zero, add_zero]
  rfl

theorem shift_exact_full {t : Int} (ht : -1074 ≤ t) :
    shiftToTargetExponent Format.binary64 (2 ^ 53) t .exact = (⟨2 ^ 52, false, false⟩, t + 1) := by
  have one : (Format.binary64.targetExponent (totalExponent (2 ^ 53) t) - t).toNat = 1 := by
    rw [targetExponent_eq, Nat.log2_two_pow]
    omega
  unfold shiftToTargetExponent shiftToExponent
  dsimp only
  rw [one]
  rfl

variable {m : Nat} {e : Int} {acc : Accuracy} {v : ℚ}

/-- A mantissa is the beginning of a number, at an exponent that is not above the spacing. -/
structure Begins (m : Nat) (e : Int) (acc : Accuracy) (v : ℚ) : Prop where
  describes : Describes (.ofMantissaAndAccuracy m acc) v
  pos : 0 < v
  target : Format.binary64.targetExponent (totalExponent m e) = spacing (v * 2 ^ e)
  fine : e ≤ spacing (v * 2 ^ e)

theorem ofMantissaAndAccuracy_mantissa (m : Nat) (acc : Accuracy) :
    (ExtendedMantissa.ofMantissaAndAccuracy m acc).mantissa = m := by
  rcases acc with - | (_ | _ | _) <;> rfl

theorem Begins.of_pos (hm : 0 < m) (h : Describes (.ofMantissaAndAccuracy m acc) v)
    (full : 2 ^ 52 ≤ m ∨ e ≤ -1074) : Begins m e acc v := by
  obtain ⟨lo, hi⟩ := h.bounds
  rw [ofMantissaAndAccuracy_mantissa] at lo hi
  have log := log_mul_zpow hm lo hi e
  have hlog : 2 ^ 52 ≤ m → 52 ≤ m.log2 := (Nat.le_log2 hm.ne').mpr
  refine ⟨h, (Nat.cast_pos.mpr hm).trans_le lo, ?_, ?_⟩
  · rw [targetExponent_eq, spacing, log]
  · unfold spacing
    omega

/-- A number of which no digit is at an exponent in reach. -/
theorem Begins.of_tiny (h : Describes (.ofMantissaAndAccuracy 0 acc) v) (pos : 0 < v)
    (he : e ≤ -1074) : Begins 0 e acc v := by
  obtain ⟨-, hi⟩ := h.bounds
  rw [ofMantissaAndAccuracy_mantissa, Nat.cast_zero, zero_add] at hi
  have below : Int.log 2 (v * 2 ^ e) < e :=
    (Int.lt_zpow_iff_log_lt (b := 2) (by norm_num) (by positivity)).mp (by
      rw [Nat.cast_ofNat]
      exact mul_lt_of_lt_one_left (by positivity) hi)
  refine ⟨h, pos, ?_, ?_⟩
  · rw [targetExponent_eq, spacing, Nat.log2_zero]
    omega
  · unfold spacing
    omega

theorem Begins.shift (h : Begins m e acc v) :
    (shiftToTargetExponent Format.binary64 m e acc).2 = spacing (v * 2 ^ e) ∧
      (shiftToTargetExponent Format.binary64 m e acc).1.roundedMantissa =
        nearestEven (v * 2 ^ e / 2 ^ spacing (v * 2 ^ e)) := by
  unfold shiftToTargetExponent shiftToExponent
  dsimp only
  rw [h.target]
  obtain ⟨k, hk⟩ := Int.eq_ofNat_of_zero_le (sub_nonneg.mpr h.fine)
  rw [hk, Int.toNat_natCast]
  refine ⟨by omega, ?_⟩
  rw [(h.describes.shiftRight k).roundedMantissa, show spacing (v * 2 ^ e) = e + k by omega,
    zpow_add₀ (by norm_num), zpow_natCast, mul_comm ((2 : ℚ) ^ e), ← div_div,
    mul_div_right_comm, mul_div_cancel_right₀ _ (zpow_ne_zero e two_ne_zero)]

/-- Rounding to the format: the first shift rounds, and the second one brings back a mantissa that has
overflowed. -/
theorem Begins.round (h : Begins m e acc v) (s : Sign) :
    Shaped (roundWithAccuracy Format.binary64 s m e acc) ∧
      valueOf (roundWithAccuracy Format.binary64 s m e acc) =
        unit s * roundedMagnitude (v * 2 ^ e) := by
  have hv := h.pos
  have hq : 0 < v * 2 ^ e := by positivity
  obtain ⟨hexp, hround⟩ := h.shift
  unfold roundWithAccuracy roundedMagnitude
  dsimp only
  rw [hexp, hround]
  clear h hexp hround
  generalize v * 2 ^ e = q at *
  have hge : -1074 ≤ spacing q := le_max_right _ _
  -- a mantissa may round up to `2 ^ 53`, which has one digit too many
  have upper : nearestEven (q / 2 ^ spacing q) ≤ 2 ^ 53 := by
    have floor : ⌊q / 2 ^ spacing q⌋₊ < 2 ^ 53 := (Nat.floor_lt (by positivity)).mpr (by
      exact_mod_cast lt_two_zpow q)
    have := nearestEven_le_floor_add_one (q / 2 ^ spacing q)
    omega
  have lower : 2 ^ 52 ≤ nearestEven (q / 2 ^ spacing q) ∨ spacing q = -1074 := by
    refine (two_zpow_le hq).imp_left fun h => ?_
    have floor : 2 ^ 52 ≤ ⌊q / 2 ^ spacing q⌋₊ := Nat.le_floor (by exact_mod_cast h)
    exact floor.trans (floor_le_nearestEven _)
  generalize nearestEven (q / 2 ^ spacing q) = r at *
  rcases Nat.lt_or_eq_of_le upper with hr | rfl
  · rw [shift_exact hr hge]
    dsimp only
    split
    next h0 =>
      refine ⟨trivial, ?_⟩
      rw [h0]
      simp [valueOf]
    next => exact ⟨⟨hr, hge, lower⟩, rfl⟩
  · rw [shift_exact_full hge, dif_neg (by norm_num)]
    refine ⟨⟨by norm_num, by omega, .inl le_rfl⟩, ?_⟩
    change unit s * (((2 ^ 52 : Nat) : ℚ) * 2 ^ (spacing q + 1)) = _
    rw [zpow_add_one₀ (by norm_num)]
    push_cast
    ring

end Shift

section Rounded

variable {q : ℚ}

theorem nearestEven_natCast (n : Nat) : nearestEven (n : ℚ) = n := by
  unfold nearestEven
  rw [Nat.floor_natCast, if_pos (by norm_num)]

theorem abs_nearestEven_sub_le (hq : 0 ≤ q) : |(nearestEven q : ℚ) - q| ≤ 1 / 2 := by
  have lo := Nat.floor_le hq
  have hi := Nat.lt_floor_add_one q
  have even : ⌊q⌋₊ % 2 ≤ 1 := by omega
  have even' : ((⌊q⌋₊ % 2 : Nat) : ℚ) ≤ 1 := by exact_mod_cast even
  have pos : (0 : ℚ) ≤ (⌊q⌋₊ % 2 : Nat) := Nat.cast_nonneg _
  unfold nearestEven
  rw [abs_le]
  split_ifs with below above
  · constructor <;> linarith
  · push_cast
    constructor <;> linarith
  · have half : q - ⌊q⌋₊ = 1 / 2 := le_antisymm (not_lt.mp above) (not_lt.mp below)
    rw [Nat.cast_add]
    constructor <;> linarith

theorem rounded_neg (q : ℚ) : rounded (-q) = -rounded q := by
  unfold rounded
  rcases lt_trichotomy q 0 with h | rfl | h
  · rw [if_neg (by linarith), if_pos h, neg_neg]
  · simp [roundedMagnitude, nearestEven]
  · rw [if_pos (by linarith), if_neg (by linarith), neg_neg]

theorem rounded_of_nonneg (h : 0 ≤ q) : rounded q = roundedMagnitude q := if_neg (not_lt.mpr h)

theorem rounded_unit_mul (s : Sign) (h : 0 ≤ q) : rounded (unit s * q) = unit s * roundedMagnitude q := by
  cases s with
  | positive => rw [unit, one_mul, one_mul, rounded_of_nonneg h]
  | negative => rw [unit, neg_one_mul, neg_one_mul, rounded_neg, rounded_of_nonneg h]

theorem rounded_nonneg (h : 0 ≤ q) : 0 ≤ rounded q := by
  rw [rounded_of_nonneg h]
  unfold roundedMagnitude
  positivity

theorem rounded_nonpos (h : q ≤ 0) : rounded q ≤ 0 := by
  have := rounded_nonneg (neg_nonneg.mpr h)
  rw [rounded_neg] at this
  linarith

theorem rounded_zero : rounded 0 = 0 := by simp [rounded, roundedMagnitude, nearestEven]

theorem rounded_exact {n : Nat} {e : Int} (hn : n < 2 ^ 53) (he : -1074 ≤ e) :
    rounded (n * 2 ^ e) = n * 2 ^ e := by
  rcases Nat.eq_zero_or_pos n with rfl | pos
  · simp [rounded_zero]
  have log : Int.log 2 ((n : ℚ) * 2 ^ e) = n.log2 + e := log_mul_zpow pos le_rfl (lt_add_one _) e
  have fine : spacing ((n : ℚ) * 2 ^ e) ≤ e := by
    have := (Nat.log2_lt pos.ne').mpr hn
    unfold spacing
    omega
  obtain ⟨k, hk⟩ := Int.eq_ofNat_of_zero_le (sub_nonneg.mpr fine)
  rw [rounded_of_nonneg (by positivity)]
  unfold roundedMagnitude
  generalize spacing ((n : ℚ) * 2 ^ e) = t at *
  have whole : (n : ℚ) * 2 ^ e / 2 ^ t = (n * 2 ^ k : Nat) := by
    rw [mul_div_assoc, ← zpow_sub₀ two_ne_zero, hk, zpow_natCast]
    push_cast
    rfl
  rw [whole, nearestEven_natCast, ← whole, div_mul_cancel₀ _ (zpow_ne_zero t two_ne_zero)]

theorem abs_rounded_sub_le (q : ℚ) : |rounded q - q| ≤ 2 ^ spacing |q| / 2 := by
  have magnitude {q : ℚ} (h : 0 ≤ q) : |roundedMagnitude q - q| ≤ 2 ^ spacing q / 2 := by
    have scale : (0 : ℚ) < 2 ^ spacing q := by positivity
    have near := abs_nearestEven_sub_le (q := q / 2 ^ spacing q) (by positivity)
    have split : roundedMagnitude q - q =
        (nearestEven (q / 2 ^ spacing q) - q / 2 ^ spacing q) * 2 ^ spacing q := by
      unfold roundedMagnitude
      field_simp
    rw [split, abs_mul, abs_of_pos scale]
    linarith [mul_le_mul_of_nonneg_right near scale.le]
  rcases le_total 0 q with h | h
  · rw [rounded_of_nonneg h, abs_of_nonneg h]
    exact magnitude h
  · have neg := magnitude (neg_nonneg.mpr h)
    rw [← rounded_of_nonneg (neg_nonneg.mpr h), rounded_neg, ← abs_neg] at neg
    rw [abs_of_nonpos h]
    convert neg using 2
    ring

theorem two_zpow_log_sub_le (hq : 0 < q) : (2 : ℚ) ^ (Int.log 2 q - 52) ≤ q / 2 ^ 52 := by
  have log := Int.zpow_log_le_self (b := 2) (by norm_num) hq
  rw [Nat.cast_ofNat] at log
  rw [zpow_sub₀ two_ne_zero]
  exact div_le_div_of_nonneg_right log (by positivity)

/-- Rounding changes a number by a factor close to one, or by next to nothing. -/
theorem abs_rounded_sub_le_mul (q : ℚ) : |rounded q - q| ≤ |q| / 2 ^ 53 + 1 / 2 ^ 1075 := by
  rcases eq_or_ne q 0 with rfl | h
  · rw [rounded_zero, sub_self, abs_zero]
    positivity
  have pos : 0 < |q| := abs_pos.mpr h
  refine (abs_rounded_sub_le q).trans ?_
  have relative := two_zpow_log_sub_le pos
  have least : (2 : ℚ) ^ (-1074 : Int) = 1 / 2 ^ 1074 := by
    rw [zpow_neg, one_div]
    rfl
  have sum : (2 : ℚ) ^ spacing |q| ≤ |q| / 2 ^ 52 + 1 / 2 ^ 1074 := by
    unfold spacing
    rcases max_cases (Int.log 2 |q| - 52) (-1074 : Int) with ⟨eq, -⟩ | ⟨eq, -⟩
    · rw [eq]
      exact relative.trans (le_add_of_nonneg_right (by positivity))
    · rw [eq, least]
      exact le_add_of_nonneg_left (by positivity)
  calc (2 : ℚ) ^ spacing |q| / 2
      ≤ (|q| / 2 ^ 52 + 1 / 2 ^ 1074) / 2 := div_le_div_of_nonneg_right sum (by norm_num)
    _ = |q| / 2 ^ 53 + 1 / 2 ^ 1075 := by
      rw [show (2 : ℚ) ^ 1075 = 2 ^ 1074 * 2 from pow_succ 2 1074]
      generalize (2 : ℚ) ^ 1074 = scale
      ring

theorem rounded_le (hq : 0 ≤ q) : rounded q ≤ q * (1 + 1 / 2 ^ 53) + 1 / 2 ^ 100 := by
  have near := (abs_le.mp (abs_rounded_sub_le_mul q)).2
  have least : (1 : ℚ) / 2 ^ 1075 ≤ 1 / 2 ^ 100 :=
    one_div_le_one_div_of_le (by positivity) (pow_le_pow_right₀ (by norm_num) (by norm_num))
  rw [abs_of_nonneg hq] at near
  generalize (1 : ℚ) / 2 ^ 1075 = tiny at *
  linarith

end Rounded

section Pack

theorem roundsTo_pack {u : UnpackedFloat} {q : ℚ} (shaped : Shaped u) (eq : valueOf u = rounded q) :
    RoundsTo (.ofModel (Float.Model.pack u)) q := by
  match u, shaped with
  | .zero s, _ =>
    have hu : unpacked (.ofModel (Float.Model.pack (.zero s))) = .zero s := unpack_pack_zero s
    refine .finite ?_ ?_
    · rw [isFinite_eq, hu]
      rfl
    · rw [value, hu, eq]
  | .finite s m e hm, shaped =>
    have hu : unpacked (.ofModel (Float.Model.pack (.finite s m e hm))) = _ :=
      unpack_pack_finite hm shaped
    by_cases he : e ≤ 971
    · rw [if_pos he] at hu
      refine .finite ?_ ?_
      · rw [isFinite_eq, hu]
        rfl
      · rw [value, hu, eq]
    · rw [if_neg he] at hu
      have large : (2 : ℚ) ^ 1024 ≤ m * 2 ^ e := by
        have full : (2 : ℚ) ^ 52 ≤ m := by exact_mod_cast shaped.full.resolve_right (by omega)
        calc (2 : ℚ) ^ 1024
            = 2 ^ 52 * 2 ^ ((972 : Nat) : Int) := by rw [zpow_natCast, ← pow_add]
          _ ≤ (m : ℚ) * 2 ^ e := by
            gcongr
            · norm_num
            · omega
      cases s with
      | positive =>
        rw [valueOf_positive] at eq
        exact .above hu (eq ▸ large)
      | negative =>
        rw [valueOf_negative] at eq
        exact .below hu (eq ▸ neg_le_neg large)

end Pack

end Binary64
end Backtest
