import Backtest.Proofs.Binary64.Order

namespace Backtest
namespace Binary64

open Float.Model
open Float.Model.UnpackedFloat

section Monotone

variable {q r : ℚ}

theorem nearestEven_mono (h : q ≤ r) : nearestEven q ≤ nearestEven r := by
  rcases (Nat.floor_mono h).lt_or_eq with lt | eq
  · calc nearestEven q ≤ ⌊q⌋₊ + 1 := nearestEven_le_floor_add_one q
      _ ≤ ⌊r⌋₊ := lt
      _ ≤ nearestEven r := floor_le_nearestEven r
  · have even : ⌊r⌋₊ % 2 ≤ 1 := by omega
    unfold nearestEven
    rw [eq]
    split_ifs <;> first | omega | (exfalso; linarith)

theorem roundedMagnitude_mono (hq : 0 ≤ q) (h : q ≤ r) :
    roundedMagnitude q ≤ roundedMagnitude r := by
  rcases hq.eq_or_lt with rfl | pos
  · rw [← rounded_of_nonneg le_rfl, rounded_zero, ← rounded_of_nonneg h]
    exact rounded_nonneg h
  have wider : spacing q ≤ spacing r := by
    have := Int.log_mono_right (b := 2) pos h
    unfold spacing
    omega
  rcases wider.eq_or_lt with same | wider
  · unfold roundedMagnitude
    rw [same]
    have scaled := div_le_div_of_nonneg_right h (by positivity : (0 : ℚ) ≤ 2 ^ spacing r)
    exact mul_le_mul_of_nonneg_right (Nat.cast_le.mpr (nearestEven_mono scaled)) (by positivity)
  · -- the larger number has all its digits at a spacing that is at least twice as wide
    have digits : nearestEven (q / 2 ^ spacing q) ≤ 2 ^ 53 := by
      have := lt_two_zpow q
      have : ⌊q / 2 ^ spacing q⌋₊ < 2 ^ 53 := (Nat.floor_lt (by positivity)).mpr (by exact_mod_cast this)
      exact (nearestEven_le_floor_add_one _).trans this
    have full : 2 ^ 52 ≤ nearestEven (r / 2 ^ spacing r) := by
      have least : spacing r ≠ -1074 := by
        have : -1074 ≤ spacing q := le_max_right _ _
        omega
      have := (two_zpow_le (pos.trans_le h)).resolve_right least
      exact (Nat.le_floor (by exact_mod_cast this)).trans (floor_le_nearestEven _)
    calc roundedMagnitude q
        ≤ 2 ^ 53 * 2 ^ spacing q :=
          mul_le_mul_of_nonneg_right (by exact_mod_cast digits) (by positivity)
      _ = 2 ^ 52 * 2 ^ (spacing q + 1) := by
          rw [zpow_add_one₀ two_ne_zero]
          ring
      _ ≤ 2 ^ 52 * 2 ^ spacing r :=
          mul_le_mul_of_nonneg_left (zpow_le_zpow_right₀ one_le_two wider) (by positivity)
      _ ≤ roundedMagnitude r :=
          mul_le_mul_of_nonneg_right (by exact_mod_cast full) (by positivity)

theorem rounded_mono (h : q ≤ r) : rounded q ≤ rounded r := by
  rcases le_total 0 q with hq | hq
  · rw [rounded_of_nonneg hq, rounded_of_nonneg (hq.trans h)]
    exact roundedMagnitude_mono hq h
  rcases le_total 0 r with hr | hr
  · exact (rounded_nonpos hq).trans (rounded_nonneg hr)
  · have magnitudes := roundedMagnitude_mono (neg_nonneg.mpr hr) (neg_le_neg h)
    rw [← rounded_of_nonneg (neg_nonneg.mpr hr), ← rounded_of_nonneg (neg_nonneg.mpr hq), rounded_neg,
      rounded_neg] at magnitudes
    exact neg_le_neg_iff.mp magnitudes

end Monotone

section Place

variable {x y : Float}

/-- Where an unpacked double stands on the line. An undefined one stands nowhere, and zero is put for
that. -/
noncomputable def placeOf : UnpackedFloat → EReal
  | .infinity .positive => ⊤
  | .infinity .negative => ⊥
  | u => ((valueOf u : ℝ) : EReal)

noncomputable def place (x : Float) : EReal := placeOf (unpacked x)

theorem placeOf_shaped {u : UnpackedFloat} (h : Shaped u) : placeOf u = ((valueOf u : ℝ) : EReal) := by
  match u, h with
  | .zero _, _ | .finite .., _ => rfl

theorem unpacked_cases (defined : unpacked x ≠ .notANumber) :
    unpacked x = .infinity .positive ∨ unpacked x = .infinity .negative ∨ isFinite x = true := by
  rw [isFinite_eq]
  match h : unpacked x with
  | .notANumber => exact absurd h defined
  | .infinity .positive => exact .inl rfl
  | .infinity .negative => exact .inr (.inl rfl)
  | .zero _ | .finite .. => exact .inr (.inr rfl)

theorem top_compare {u : UnpackedFloat} (h : Shaped u) :
    (UnpackedFloat.infinity .positive).compare u = some .gt := by
  match u, h with
  | .zero _, _ | .finite .., _ => rfl

theorem bot_compare {u : UnpackedFloat} (h : Shaped u) :
    (UnpackedFloat.infinity .negative).compare u = some .lt := by
  match u, h with
  | .zero _, _ | .finite .., _ => rfl

theorem compare_place (hx : unpacked x ≠ .notANumber) (hy : unpacked y ≠ .notANumber) :
    (unpacked x).compare (unpacked y) = some (compare (place x) (place y)) := by
  unfold place
  rcases unpacked_cases hx with hx | hx | hx <;> rcases unpacked_cases hy with hy | hy | hy
  · rw [hx, hy]
    exact congrArg some (compare_eq_iff_eq.mpr rfl).symm
  · rw [hx, hy]
    exact congrArg some (compare_gt_iff_gt.mpr bot_lt_top).symm
  · rw [hx, top_compare (shaped hy), placeOf_shaped (shaped hy)]
    exact congrArg some (compare_gt_iff_gt.mpr (EReal.coe_lt_top _)).symm
  · rw [hx, hy]
    exact congrArg some (compare_lt_iff_lt.mpr bot_lt_top).symm
  · rw [hx, hy]
    exact congrArg some (compare_eq_iff_eq.mpr rfl).symm
  · rw [hx, bot_compare (shaped hy), placeOf_shaped (shaped hy)]
    exact congrArg some (compare_lt_iff_lt.mpr (EReal.bot_lt_coe _)).symm
  · rw [hy, compare_swap, top_compare (shaped hx), placeOf_shaped (shaped hx)]
    exact congrArg some (compare_lt_iff_lt.mpr (EReal.coe_lt_top _)).symm
  · rw [hy, compare_swap, bot_compare (shaped hx), placeOf_shaped (shaped hx)]
    exact congrArg some (compare_gt_iff_gt.mpr (EReal.bot_lt_coe _)).symm
  · have order : StrictMono fun q : ℚ => ((q : ℝ) : EReal) :=
      EReal.coe_strictMono.comp Rat.cast_strictMono
    rw [compare_unpacked (shaped hx) (shaped hy), placeOf_shaped (shaped hx),
      placeOf_shaped (shaped hy), ← cmp_eq_compare, ← cmp_eq_compare, order.cmp_map_eq]

theorem le_self_iff : x ≤ x ↔ unpacked x ≠ .notANumber := by
  refine decide_eq_true_iff.trans ?_
  change ((unpacked x).compare (unpacked x)).any (·.isLE) = true ↔ _
  by_cases h : unpacked x = .notANumber
  · simp only [h, ne_eq, not_true, iff_false]
    exact Bool.false_ne_true
  · rw [compare_place h h, compare_eq_iff_eq.mpr rfl]
    exact iff_of_true rfl h

theorem defined_of_compare (h : (unpacked x).compare (unpacked y) ≠ none) :
    unpacked x ≠ .notANumber ∧ unpacked y ≠ .notANumber := by
  refine ⟨fun hx => h ?_, fun hy => h ?_⟩
  · rw [hx]
    rfl
  · rw [hy, compare_swap]
    rfl

theorem lt_iff_place : x < y ↔ x ≤ x ∧ y ≤ y ∧ place x < place y := by
  rw [le_self_iff, le_self_iff]
  refine decide_eq_true_iff.trans ?_
  change ((unpacked x).compare (unpacked y) == some .lt) = true ↔ _
  rw [beq_iff_eq]
  constructor
  · intro lt
    obtain ⟨hx, hy⟩ := defined_of_compare (x := x) (y := y) (by rw [lt]; nofun)
    rw [compare_place hx hy, Option.some.injEq, compare_lt_iff_lt] at lt
    exact ⟨hx, hy, lt⟩
  · rintro ⟨hx, hy, lt⟩
    rw [compare_place hx hy, compare_lt_iff_lt.mpr lt]

theorem le_iff_place : x ≤ y ↔ x ≤ x ∧ y ≤ y ∧ place x ≤ place y := by
  rw [le_self_iff, le_self_iff]
  refine decide_eq_true_iff.trans ?_
  change ((unpacked x).compare (unpacked y)).any (·.isLE) = true ↔ _
  constructor
  · intro le
    obtain ⟨hx, hy⟩ := defined_of_compare (x := x) (y := y)
      (fun none => by rw [none] at le; cases le)
    rw [compare_place hx hy, Option.any_some] at le
    exact ⟨hx, hy, compare_le_iff_le.mp (Ordering.isLE_iff_ne_gt.mp le)⟩
  · rintro ⟨hx, hy, le⟩
    rw [compare_place hx hy, Option.any_some]
    exact Ordering.isLE_iff_ne_gt.mpr (compare_le_iff_le.mpr le)

theorem beq_self_iff : (x == x) = true ↔ x ≤ x := by
  rw [le_self_iff]
  change ((unpacked x).compare (unpacked x) == some .eq) = true ↔ _
  rw [beq_iff_eq]
  constructor
  · intro eq
    exact (defined_of_compare (x := x) (y := x) (by rw [eq]; nofun)).1
  · intro defined
    rw [compare_place defined defined, compare_eq_iff_eq.mpr rfl]

theorem place_of_isFinite (h : isFinite x = true) : place x = ((value x : ℝ) : EReal) :=
  placeOf_shaped (shaped h)

theorem abs_value_lt (h : isFinite x = true) : |value x| < 2 ^ 1024 := by
  have size : |value x| = mantissa x * 2 ^ exponent x := by
    have : (0 : ℚ) ≤ mantissa x * 2 ^ exponent x := by positivity
    rw [value_eq h, abs_mul, abs_of_nonneg this]
    cases signOf x <;> simp [unit]
  have digits : (mantissa x : ℚ) < 2 ^ 53 := by exact_mod_cast (canonical x).mantissa_lt
  calc |value x| = mantissa x * 2 ^ exponent x := size
    _ < 2 ^ 53 * 2 ^ exponent x := mul_lt_mul_of_pos_right digits (by positivity)
    _ ≤ 2 ^ 53 * 2 ^ ((971 : Nat) : Int) :=
        mul_le_mul_of_nonneg_left (zpow_le_zpow_right₀ one_le_two (exponent_le h)) (by positivity)
    _ = 2 ^ 1024 := by rw [zpow_natCast, ← pow_add]

theorem rounded_value (h : isFinite x = true) : rounded (value x) = value x :=
  rounded_valueOf (shaped h)

variable {q : ℚ}

theorem RoundsTo.defined (h : RoundsTo x q) : x ≤ x := by
  rw [le_self_iff]
  cases h with
  | finite finite _ =>
    intro undefined
    rw [isFinite_eq, undefined] at finite
    cases finite
  | above h _ | below h _ =>
    rw [h]
    nofun

/-- Rounding leads past no double. -/
theorem RoundsTo.place_le (h : RoundsTo x q) (hy : Binary64.isFinite y = true) (le : q ≤ value y) :
    place x ≤ place y := by
  have bound : rounded q ≤ value y := (rounded_mono le).trans_eq (rounded_value hy)
  rw [place_of_isFinite hy]
  cases h with
  | finite hx eq =>
    rw [place_of_isFinite hx, eq]
    exact_mod_cast bound
  | above _ large => exact absurd ((abs_lt.mp (abs_value_lt hy)).2) (not_lt.mpr (large.trans bound))
  | below h _ =>
    rw [place, h]
    exact bot_le

theorem RoundsTo.le_place (h : RoundsTo x q) (hy : Binary64.isFinite y = true) (le : value y ≤ q) :
    place y ≤ place x := by
  have bound : value y ≤ rounded q := (rounded_value hy).symm.trans_le (rounded_mono le)
  rw [place_of_isFinite hy]
  cases h with
  | finite hx eq =>
    rw [place_of_isFinite hx, eq]
    exact_mod_cast bound
  | above h _ =>
    rw [place, h]
    exact le_top
  | below _ large => exact absurd ((abs_lt.mp (abs_value_lt hy)).1) (not_lt.mpr (bound.trans large))

end Place

section Sum

variable {x y d : Float}

theorem add_cases (defined : x + y ≤ x + y) :
    (∃ s, (unpacked x = .infinity s ∨ unpacked y = .infinity s) ∧ unpacked (x + y) = .infinity s) ∨
      isFinite x = true ∧ isFinite y = true := by
  rw [le_self_iff] at defined
  rw [isFinite_eq, isFinite_eq]
  have sum {u : UnpackedFloat} (h : UnpackedFloat.add Format.binary64 (unpacked x) (unpacked y) = u) :
      unpacked (x + y) = (Float.Model.pack u).unpack :=
    congrArg (fun u => (Float.Model.pack u).unpack) h
  have infinite (s : Sign) : (Float.Model.pack (.infinity s)).unpack = .infinity s := by
    cases s <;> rfl
  have sense : UnpackedFloat.add Format.binary64 (unpacked x) (unpacked y) ≠ .notANumber :=
    fun h => defined (sum h)
  match hx : unpacked x, hy : unpacked y with
  | .notANumber, _ => exact absurd (by rw [hx]; rfl) sense
  | .infinity _, .notANumber | .zero _, .notANumber | .finite .., .notANumber =>
    exact absurd (by rw [hx, hy]; rfl) sense
  | .infinity .positive, .infinity .negative | .infinity .negative, .infinity .positive =>
    exact absurd (by rw [hx, hy]; rfl) sense
  | .infinity .positive, .infinity .positive | .infinity .negative, .infinity .negative =>
    exact .inl ⟨_, .inl rfl, (sum (by rw [hx, hy]; rfl)).trans (infinite _)⟩
  | .infinity s, .zero _ | .infinity s, .finite .. =>
    exact .inl ⟨s, .inl rfl, (sum (by rw [hx, hy]; rfl)).trans (infinite s)⟩
  | .zero _, .infinity s | .finite .., .infinity s =>
    exact .inl ⟨s, .inr rfl, (sum (by rw [hx, hy]; rfl)).trans (infinite s)⟩
  | .zero _, .zero _ | .zero _, .finite .. | .finite .., .zero _ | .finite .., .finite .. =>
    exact .inr ⟨rfl, rfl⟩

theorem place_top (h : unpacked x = .infinity .positive) : place x = ⊤ := by
  rw [place, h]
  rfl

theorem place_bot (h : unpacked x = .infinity .negative) : place x = ⊥ := by
  rw [place, h]
  rfl

/-- Adding what is not above zero leads to nothing above, as long as the sum is defined. -/
theorem add_place_le (defined : x + y ≤ x + y) (hy : place y ≤ 0) : place (x + y) ≤ place x := by
  rcases add_cases defined with ⟨s, part, sum⟩ | ⟨hx, finite⟩
  · cases s with
    | negative => exact (place_bot sum).trans_le bot_le
    | positive =>
      rcases part with part | part
      · exact le_top.trans_eq (place_top part).symm
      · exact absurd hy (by simp [place_top part])
  · rw [place_of_isFinite finite] at hy
    have nonpos : value y ≤ 0 := by exact_mod_cast hy
    exact (add_roundsTo hx finite).place_le hx (by linarith)

theorem le_add_place (defined : x + y ≤ x + y) (hy : 0 ≤ place y) : place x ≤ place (x + y) := by
  rcases add_cases defined with ⟨s, part, sum⟩ | ⟨hx, finite⟩
  · cases s with
    | positive => exact le_top.trans_eq (place_top sum).symm
    | negative =>
      rcases part with part | part
      · exact (place_bot part).trans_le bot_le
      · exact absurd hy (by simp [place_bot part])
  · rw [place_of_isFinite finite] at hy
    have nonneg : 0 ≤ value y := by exact_mod_cast hy
    exact (add_roundsTo hx finite).le_place hx (by linarith)

theorem isFinite_zero : isFinite (0 : Float) = true := by rfl

theorem place_zero : place (0 : Float) = 0 := by
  rw [place_of_isFinite isFinite_zero, value_zero, Rat.cast_zero, EReal.coe_zero]

theorem isFinite_one : isFinite (1 : Float) = true := (ofNat_eq (n := 1) (by norm_num)).1

theorem value_one : value (1 : Float) = 1 := (ofNat_eq (n := 1) (by norm_num)).2

theorem cases_of_not_neg (h : ¬ d < 0) :
    unpacked d = .notANumber ∨ unpacked d = .infinity .positive ∨
      isFinite d = true ∧ 0 ≤ value d := by
  by_cases undefined : unpacked d = .notANumber
  · exact .inl undefined
  rcases unpacked_cases undefined with top | bot | finite
  · exact .inr (.inl top)
  · refine absurd (lt_iff_place.mpr ⟨le_self_iff.mpr undefined, by decide +kernel, ?_⟩) h
    rw [place_bot bot, place_zero]
    exact EReal.bot_lt_zero
  · rw [lt_iff finite isFinite_zero, value_zero, not_lt] at h
    exact .inr (.inr ⟨finite, h⟩)

theorem place_of_undefined (h : unpacked d = .notANumber) : place d = 0 := by
  rw [place, h]
  exact (congrArg Real.toEReal Rat.cast_zero).trans EReal.coe_zero

theorem unpacked_mul {u : UnpackedFloat} (h : unpacked d = u) :
    unpacked (x * d) =
      (Float.Model.pack (UnpackedFloat.mul Format.binary64 (unpacked x) u)).unpack := by
  rw [← h]
  rfl

theorem neg_one_mul_place (h : ¬ d < 0) : place (-1 * d) ≤ 0 := by
  rcases cases_of_not_neg h with undefined | top | ⟨finite, nonneg⟩
  · exact (place_of_undefined ((unpacked_mul undefined).trans rfl)).le
  · exact (place_bot ((unpacked_mul top).trans rfl)).trans_le bot_le
  · have rounds := mul_roundsTo (isFinite_neg isFinite_one) finite
    refine (rounds.place_le isFinite_zero ?_).trans_eq place_zero
    rw [value_neg isFinite_one, value_one, value_zero]
    linarith

theorem neg_neg_one_mul_place (h : ¬ d < 0) : 0 ≤ place (- -1 * d) := by
  rcases cases_of_not_neg h with undefined | top | ⟨finite, nonneg⟩
  · exact (place_of_undefined ((unpacked_mul undefined).trans rfl)).ge
  · exact le_top.trans_eq (place_top ((unpacked_mul top).trans rfl)).symm
  · have rounds := mul_roundsTo (isFinite_neg (isFinite_neg isFinite_one)) finite
    refine place_zero.symm.trans_le (rounds.le_place isFinite_zero ?_)
    rw [value_neg (isFinite_neg isFinite_one), value_neg isFinite_one, value_one, value_zero]
    linarith

theorem defined_of_add (h : x + y ≤ x + y) : x ≤ x := by
  rw [le_self_iff] at h ⊢
  intro undefined
  apply h
  change (Float.Model.pack (UnpackedFloat.add Format.binary64 (unpacked x) (unpacked y))).unpack = _
  have sum : UnpackedFloat.add Format.binary64 .notANumber (unpacked y) = .notANumber :=
    UnpackedFloat.add.eq_def ..
  rw [undefined, sum]
  rfl

theorem lower_le (h : ¬ d < 0) (defined : x + -1 * d ≤ x + -1 * d) : x + -1 * d ≤ x :=
  le_iff_place.mpr ⟨defined, defined_of_add defined, add_place_le defined (neg_one_mul_place h)⟩

theorem le_raise (h : ¬ d < 0) (defined : x + - -1 * d ≤ x + - -1 * d) : x ≤ x + - -1 * d :=
  le_iff_place.mpr ⟨defined_of_add defined, defined, le_add_place defined (neg_neg_one_mul_place h)⟩

theorem defined_add (hx : isFinite x = true ∨ unpacked x = .infinity .positive)
    (hy : isFinite y = true ∨ unpacked y = .infinity .positive) : x + y ≤ x + y := by
  have top (h : UnpackedFloat.add Format.binary64 (unpacked x) (unpacked y) = .infinity .positive) :
      x + y ≤ x + y := by
    rw [le_self_iff]
    change (Float.Model.pack (UnpackedFloat.add Format.binary64 (unpacked x) (unpacked y))).unpack ≠ _
    rw [h]
    nofun
  rcases hx with finite | hx
  · rcases hy with finite' | hy
    · exact (add_roundsTo finite finite').defined
    · apply top
      rw [isFinite_eq] at finite
      rw [hy]
      match unpacked x, finite with
      | .zero _, _ | .finite .., _ => rfl
  · apply top
    rw [hx]
    rcases hy with finite' | hy
    · rw [isFinite_eq] at finite'
      match unpacked y, finite' with
      | .zero _, _ | .finite .., _ => rfl
    · rw [hy]
      rfl

/-- Nothing lies above a sum and below its first part, if the second is not negative. -/
theorem le_add_or_le {z : Float} (hy : 0 ≤ y) (hx : x ≤ x) (hz : z ≤ z) : z ≤ x + y ∨ x ≤ z := by
  obtain ⟨-, hy', nonneg⟩ := le_iff_place.mp hy
  rw [place_zero] at nonneg
  by_cases bot : unpacked x = .infinity .negative
  · exact .inr (le_iff_place.mpr ⟨hx, hz, (place_bot bot).trans_le bot_le⟩)
  have left : isFinite x = true ∨ unpacked x = .infinity .positive :=
    (unpacked_cases (le_self_iff.mp hx)).elim .inr fun h => .inl (h.resolve_left bot)
  have right : isFinite y = true ∨ unpacked y = .infinity .positive := by
    refine (unpacked_cases (le_self_iff.mp hy')).elim .inr fun h => .inl (h.resolve_left fun bot => ?_)
    rw [place_bot bot] at nonneg
    exact absurd nonneg (by simp)
  have defined := defined_add left right
  rcases le_total (place x) (place z) with above | below
  · exact .inr (le_iff_place.mpr ⟨hx, hz, above⟩)
  · exact .inl (le_iff_place.mpr ⟨hz, defined, below.trans (le_add_place defined nonneg)⟩)

end Sum

end Binary64
end Backtest
