import Mathlib
import Backtest.Arith.Double

namespace Backtest
namespace Binary64

open Float.Model
open Float.Model.UnpackedFloat

def unpacked (x : Float) : UnpackedFloat := x.toModel.unpack

def unit : Sign → ℚ
  | .negative => -1
  | .positive => 1

/-- The number that an unpacked double stands for; zero for what is not finite. -/
def valueOf : UnpackedFloat → ℚ
  | .finite s m e _ => unit s * (m * 2 ^ e)
  | _ => 0

def value (x : Float) : ℚ := valueOf (unpacked x)

/-- A mantissa and an exponent as doubles have them, but for a bound on the exponent. -/
structure Canonical (m : Nat) (e : Int) : Prop where
  mantissa_lt : m < 2 ^ 53
  exponent_ge : -1074 ≤ e
  full : 2 ^ 52 ≤ m ∨ e = -1074

section Bits

theorem toNat_unpackMantissa (b : BitVec 64) :
    (@unpackMantissa Format.binary64 b).toNat = b.toNat % 2 ^ 52 := by
  rw [unpackMantissa_def, BitVec.extractLsb'_toNat]
  rfl

theorem toNat_unpackExponent (b : BitVec 64) :
    (@unpackExponent Format.binary64 b).toNat = b.toNat / 2 ^ 52 % 2 ^ 11 := by
  rw [unpackExponent_def, BitVec.extractLsb'_toNat, Nat.shiftRight_eq_div_pow]

theorem toNat_unpackSign (b : BitVec 64) :
    (@unpackSign Format.binary64 b).toNat = b.toNat / 2 ^ 63 := by
  rw [unpackSign_def, BitVec.extractLsb'_toNat, Nat.shiftRight_eq_div_pow]
  have : b.toNat / 2 ^ 63 < 2 := Nat.div_lt_of_lt_mul b.isLt
  exact Nat.mod_eq_of_lt this

theorem fraction_eq (x : Float) : fraction x = x.toBits.toNat % 2 ^ 52 := by
  unfold fraction
  rw [UInt64.toNat_and]
  exact Nat.and_two_pow_sub_one_eq_mod _ 52

theorem biased_eq (x : Float) : biased x = x.toBits.toNat / 2 ^ 52 % 2 ^ 11 := by
  unfold biased
  rw [UInt64.toNat_and, UInt64.toNat_shiftRight, Nat.shiftRight_eq_div_pow]
  exact Nat.and_two_pow_sub_one_eq_mod _ 11

theorem isNegative_eq (x : Float) : isNegative x = decide (x.toBits.toNat / 2 ^ 63 = 1) := by
  unfold isNegative
  rw [Bool.eq_iff_iff, beq_iff_eq, decide_eq_true_iff, ← UInt64.toNat_inj, UInt64.toNat_shiftRight,
    Nat.shiftRight_eq_div_pow]
  rfl

def signOf (x : Float) : Sign := if isNegative x then .negative else .positive

theorem ofBitVec_unpackSign (x : Float) :
    Sign.ofBitVec (@unpackSign Format.binary64 x.toBits.toBitVec) = signOf x := by
  have toNat := toNat_unpackSign x.toBits.toBitVec
  rw [UInt64.toNat_toBitVec] at toNat
  unfold Sign.ofBitVec signOf
  rw [isNegative_eq, ← toNat]
  generalize @unpackSign Format.binary64 x.toBits.toBitVec = sign
  have hlt := sign.isLt
  by_cases h : sign = 0#1
  · subst h
    rfl
  · have one : sign.toNat = 1 := by
      have : sign.toNat ≠ 0 := fun h0 => h (BitVec.eq_of_toNat_eq h0)
      omega
    rw [if_neg h, one]
    rfl

theorem finite_congr {s s' : Sign} {m m' : Nat} {e e' : Int} {hm : 0 < m} {hm' : 0 < m'}
    (hs : s = s') (h : m = m') (he : e = e') :
    UnpackedFloat.finite s m e hm = .finite s' m' e' hm' := by
  subst hs h he
  rfl

theorem unpacked_eq (x : Float) :
    unpacked x =
      if biased x = 2047 then
        if fraction x = 0 then .infinity (signOf x) else .notANumber
      else if h : mantissa x = 0 then .zero (signOf x)
      else .finite (signOf x) (mantissa x) (exponent x) (Nat.pos_of_ne_zero h) := by
  have toNat : x.toBits.toBitVec.toNat = x.toBits.toNat := UInt64.toNat_toBitVec _
  have hf : (@unpackMantissa Format.binary64 x.toBits.toBitVec).toNat = fraction x := by
    rw [toNat_unpackMantissa, toNat, fraction_eq]
  have hb : (@unpackExponent Format.binary64 x.toBits.toBitVec).toNat = biased x := by
    rw [toNat_unpackExponent, toNat, biased_eq]
  have ones : @unpackExponent Format.binary64 x.toBits.toBitVec = -1#11 ↔ biased x = 2047 := by
    rw [← hb]
    exact BitVec.toNat_inj.symm
  have none : @unpackExponent Format.binary64 x.toBits.toBitVec = 0#11 ↔ biased x = 0 := by
    rw [← hb]
    exact BitVec.toNat_inj.symm
  have empty : @unpackMantissa Format.binary64 x.toBits.toBitVec = 0#52 ↔ fraction x = 0 := by
    rw [← hf]
    exact BitVec.toNat_inj.symm
  have implicit : (1#1 ++ @unpackMantissa Format.binary64 x.toBits.toBitVec).toNat =
      0x10000000000000 + fraction x := by
    rw [BitVec.toNat_append, ← Nat.shiftLeft_add_eq_or_of_lt (BitVec.isLt _), hf]
    rfl
  change UnpackedFloat.unpack Format.binary64 x.toBits.toBitVec = _
  unfold UnpackedFloat.unpack
  dsimp only
  rw [ofBitVec_unpackSign x]
  split
  next h =>
    rw [if_pos (ones.mp h)]
    exact if_congr empty rfl rfl
  next h =>
    rw [if_neg (mt ones.mpr h)]
    split
    next h =>
      have hm : mantissa x = fraction x := if_pos (none.mp h)
      split
      next h => rw [dif_pos (hm.trans (empty.mp h))]
      next h =>
        rw [dif_neg fun h0 => h (empty.mpr (hm.symm.trans h0))]
        refine finite_congr rfl (hf.trans hm.symm) ?_
        rw [hb, exponent, none.mp ‹_›]
        rfl
    next h =>
      have normal := mt none.mpr h
      have hm : mantissa x = 0x10000000000000 + fraction x := if_neg normal
      rw [dif_neg (by omega)]
      refine finite_congr rfl (implicit.trans hm.symm) ?_
      rw [hb, exponent, max_eq_left (by omega)]
      rfl

theorem isFinite_eq (x : Float) : isFinite x = (unpacked x).isFinite := by
  rw [unpacked_eq, isFinite]
  split
  next h => 
    rw [h]
    split <;> rfl
  next h =>
    rw [bne_iff_ne.mpr h]
    split <;> rfl

theorem canonical (x : Float) : Canonical (mantissa x) (exponent x) := by
  have hf : fraction x < 2 ^ 52 := by
    rw [fraction_eq]
    exact Nat.mod_lt _ (by decide)
  refine ⟨?_, ?_, ?_⟩
  · unfold mantissa
    split <;> omega
  · unfold exponent
    omega
  · unfold mantissa exponent
    split <;> omega

theorem exponent_le {x : Float} (h : isFinite x = true) : exponent x ≤ 971 := by
  have hb : biased x < 2 ^ 11 := by
    rw [biased_eq]
    exact Nat.mod_lt _ (by decide)
  have : biased x ≠ 2047 := bne_iff_ne.mp h
  unfold exponent
  omega

theorem unpack_packComponents (s : Sign) (b : BitVec 11) (f : BitVec 52) :
    UnpackedFloat.unpack Format.binary64 (packComponents Format.binary64 s b f) =
      if b = -1#11 then if f = 0#52 then .infinity s else .notANumber
      else if b = 0#11 then
        if h : f = 0#52 then .zero s
        else .finite s f.toNat (-1074)
          (Nat.pos_of_ne_zero fun h0 => h (BitVec.eq_of_toNat_eq h0))
      else .finite s (0x10000000000000 + f.toNat) (b.toNat - 1075) (by omega) := by
  have implicit : (1#1 ++ f).toNat = 0x10000000000000 + f.toNat := by
    rw [BitVec.toNat_append, ← Nat.shiftLeft_add_eq_or_of_lt f.isLt]
    rfl
  unfold UnpackedFloat.unpack
  simp only [unpackMantissa_packComponents, unpackExponent_packComponents,
    unpackSign_packComponents, Sign.ofBitVec_toBitVec]
  refine if_congr Iff.rfl rfl ?_
  split
  next h =>
    refine dite_congr rfl (fun _ => rfl) fun _ => finite_congr rfl rfl ?_
    rw [h]
    rfl
  next => exact finite_congr rfl implicit rfl

theorem pack_finite {s : Sign} {m : Nat} {e : Int} (hm : 0 < m) :
    UnpackedFloat.pack Format.binary64 (.finite s m e hm) =
      if 2047 ≤ (e + 1075).toNat then packedInfinity Format.binary64 s
      else if m.log2 = 52 then
        packComponents Format.binary64 s (BitVec.ofNat 11 (e + 1075).toNat) (BitVec.ofNat 52 m)
      else packComponents Format.binary64 s 0#11 (BitVec.ofNat 52 m) := by
  have field : (e + (Format.binary64.exponentBias : Nat) +
      (Format.binary64.mantissaBitsWithoutImplicit : Nat)).toNat = (e + 1075).toNat := by
    change (e + 1023 + 52).toNat = _
    omega
  unfold UnpackedFloat.pack
  dsimp only
  rw [field]
  refine if_congr ?_ rfl (if_congr ?_ rfl rfl)
  · exact Nat.add_le_add_iff_right (m := 2047) (n := 1)
  · change m.log2 + 1 = 1 + 52 ↔ _
    omega

/-- A canonical double survives packing, unless its exponent is too large. -/
theorem unpack_pack_finite {s : Sign} {m : Nat} {e : Int} (hm : 0 < m) (h : Canonical m e) :
    (Float.Model.pack (.finite s m e hm)).unpack =
      if e ≤ 971 then .finite s m e hm else .infinity s := by
  obtain ⟨hlt, hge, hfull⟩ := h
  change UnpackedFloat.unpack Format.binary64 (UnpackedFloat.pack Format.binary64 _) = _
  rw [pack_finite]
  by_cases large : 972 ≤ e
  · rw [if_pos (by omega), if_neg (by omega)]
    exact unpack_packComponents s (-1#11) 0#52
  rw [if_neg (by omega), if_pos (c := e ≤ 971) (by omega)]
  have log : m.log2 = 52 ↔ 2 ^ 52 ≤ m := by
    rw [Nat.log2_eq_iff hm.ne']
    omega
  split
  next normal =>
    have field : (BitVec.ofNat 11 (e + 1075).toNat).toNat = (e + 1075).toNat := by
      rw [BitVec.toNat_ofNat]
      omega
    rw [unpack_packComponents, if_neg fun h0 => ?_, if_neg fun h0 => ?_]
    · refine finite_congr rfl ?_ ?_
      · rw [BitVec.toNat_ofNat]
        have := log.mp normal
        omega
      · rw [field]
        omega
    · have := congrArg BitVec.toNat h0
      rw [field] at this
      change _ = 0 at this
      omega
    · have := congrArg BitVec.toNat h0
      rw [field] at this
      change _ = 2047 at this
      omega
  next subnormal =>
    have small : m < 2 ^ 52 := not_le.mp (mt log.mpr subnormal)
    have mantissa : (BitVec.ofNat 52 m).toNat = m := by
      rw [BitVec.toNat_ofNat]
      exact Nat.mod_eq_of_lt small
    rw [unpack_packComponents, if_neg (by decide), if_pos rfl, dif_neg fun h0 => ?_]
    · exact finite_congr rfl mantissa (hfull.resolve_left (by omega)).symm
    · have := congrArg BitVec.toNat h0
      rw [mantissa] at this
      change _ = 0 at this
      omega

end Bits

section Order

theorem Canonical.lt_of_exponent_lt {m m' : Nat} {e e' : Int} (h : Canonical m e)
    (h' : Canonical m' e') (he : e < e') : (m : ℚ) * 2 ^ e < m' * 2 ^ e' := by
  have full : 2 ^ 52 ≤ m' := h'.full.resolve_right fun h0 => by
    have := h.exponent_ge
    omega
  calc (m : ℚ) * 2 ^ e
      < 2 ^ 53 * 2 ^ e := by
        gcongr
        exact_mod_cast h.mantissa_lt
    _ = 2 ^ 52 * 2 ^ (e + 1) := by
        rw [zpow_add_one₀ (by norm_num)]
        ring
    _ ≤ m' * 2 ^ e' := by
        gcongr
        · exact_mod_cast full
        · norm_num
        · omega

theorem Canonical.compare_eq {m m' : Nat} {e e' : Int} (h : Canonical m e) (h' : Canonical m' e') :
    (compare e e').then (compare m m') = compare ((m : ℚ) * 2 ^ e) (m' * 2 ^ e') := by
  rcases lt_trichotomy e e' with he | rfl | he
  · rw [compare_lt_iff_lt.mpr he, compare_lt_iff_lt.mpr (h.lt_of_exponent_lt h' he)]
    rfl
  · have scale : (0 : ℚ) < 2 ^ e := by positivity
    rw [compare_eq_iff_eq.mpr rfl, ← cmp_eq_compare, ← cmp_eq_compare, cmp_mul_pos_right scale,
      Nat.strictMono_cast.cmp_map_eq]
    rfl
  · rw [compare_gt_iff_gt.mpr he, compare_gt_iff_gt.mpr (h'.lt_of_exponent_lt h he)]
    rfl

def Shaped : UnpackedFloat → Prop
  | .zero _ => True
  | .finite _ m e _ => Canonical m e
  | _ => False

theorem shaped {x : Float} (h : isFinite x = true) : Shaped (unpacked x) := by
  rw [unpacked_eq, if_neg (bne_iff_ne.mp h)]
  split
  · trivial
  · exact canonical x

theorem valueOf_negative {m : Nat} {e : Int} (hm : 0 < m) :
    valueOf (.finite .negative m e hm) = -(m * 2 ^ e) := neg_one_mul _

theorem valueOf_positive {m : Nat} {e : Int} (hm : 0 < m) :
    valueOf (.finite .positive m e hm) = m * 2 ^ e := one_mul _

theorem compare_neg (x y : ℚ) : compare (-x) (-y) = (compare x y).swap := by
  rw [← cmp_eq_compare, ← cmp_eq_compare, cmp_swap]
  exact StrictAnti.cmp_map_eq (fun _ _ => neg_lt_neg) x y

theorem compare_unpacked {a b : UnpackedFloat} (ha : Shaped a) (hb : Shaped b) :
    a.compare b = some (compare (valueOf a) (valueOf b)) := by
  have size {m : Nat} (e : Int) (hm : 0 < m) : (0 : ℚ) < m * 2 ^ e := by positivity
  match a, b, ha, hb with
  | .zero _, .zero _, _, _ => exact congrArg some (compare_eq_iff_eq.mpr rfl).symm
  | .zero _, .finite .negative m e hm, _, _ =>
    rw [valueOf_negative]
    exact congrArg some (compare_gt_iff_gt.mpr (neg_lt_zero.mpr (size e hm))).symm
  | .zero _, .finite .positive m e hm, _, _ =>
    rw [valueOf_positive]
    exact congrArg some (compare_lt_iff_lt.mpr (size e hm)).symm
  | .finite .negative m e hm, .zero _, _, _ =>
    rw [valueOf_negative]
    exact congrArg some (compare_lt_iff_lt.mpr (neg_lt_zero.mpr (size e hm))).symm
  | .finite .positive m e hm, .zero _, _, _ =>
    rw [valueOf_positive]
    exact congrArg some (compare_gt_iff_gt.mpr (size e hm)).symm
  | .finite .negative m e hm, .finite .negative m' e' hm', ha, hb =>
    rw [valueOf_negative, valueOf_negative, compare_neg, ← ha.compare_eq hb]
    rfl
  | .finite .negative m e hm, .finite .positive m' e' hm', _, _ =>
    rw [valueOf_negative, valueOf_positive]
    have below := (neg_lt_zero.mpr (size e hm)).trans (size e' hm')
    exact congrArg some (compare_lt_iff_lt.mpr below).symm
  | .finite .positive m e hm, .finite .negative m' e' hm', _, _ =>
    rw [valueOf_negative, valueOf_positive]
    have below := (neg_lt_zero.mpr (size e' hm')).trans (size e hm)
    exact congrArg some (compare_gt_iff_gt.mpr below).symm
  | .finite .positive m e hm, .finite .positive m' e' hm', ha, hb =>
    rw [valueOf_positive, valueOf_positive, ← ha.compare_eq hb]
    rfl

variable {x y : Float}

theorem lt_iff (hx : isFinite x = true) (hy : isFinite y = true) : x < y ↔ value x < value y := by
  refine decide_eq_true_iff.trans ?_
  change ((unpacked x).compare (unpacked y) == some .lt) = true ↔ _
  rw [compare_unpacked (shaped hx) (shaped hy), beq_iff_eq, Option.some.injEq, compare_lt_iff_lt]
  rfl

theorem le_iff (hx : isFinite x = true) (hy : isFinite y = true) : x ≤ y ↔ value x ≤ value y := by
  refine decide_eq_true_iff.trans ?_
  change ((unpacked x).compare (unpacked y)).any (·.isLE) = true ↔ _
  rw [compare_unpacked (shaped hx) (shaped hy), Option.any_some, ← compare_le_iff_le,
    Ordering.isLE_iff_ne_gt]
  rfl

theorem beq_self (h : isFinite x = true) : (x == x) = true := by
  change ((unpacked x).compare (unpacked x) == some .eq) = true
  rw [compare_unpacked (shaped h) (shaped h), beq_iff_eq, Option.some.injEq, compare_eq_iff_eq]

theorem unpack_pack_zero (s : Sign) : (Float.Model.pack (.zero s)).unpack = .zero s :=
  unpack_packComponents s 0#11 0#52

theorem unpacked_neg (h : isFinite x = true) : unpacked (-x) = (unpacked x).neg := by
  change (Float.Model.pack (unpacked x).neg).unpack = _
  rw [unpacked_eq, if_neg (bne_iff_ne.mp h)]
  split
  next => exact unpack_pack_zero _
  next => exact (unpack_pack_finite _ (canonical x)).trans (if_pos (exponent_le h))

theorem isFinite_neg (h : isFinite x = true) : isFinite (-x) = true := by
  rw [isFinite_eq] at h ⊢
  rw [unpacked_neg (by rwa [isFinite_eq])]
  cases hx : unpacked x <;> rw [hx] at h <;> first | rfl | cases h

theorem value_neg (h : isFinite x = true) : value (-x) = -value x := by
  unfold value
  rw [unpacked_neg h]
  match unpacked x with
  | .finite .negative .. | .finite .positive .. => simp [valueOf, UnpackedFloat.neg, unit]
  | .infinity _ | .notANumber | .zero _ => rfl

end Order

end Binary64
end Backtest
