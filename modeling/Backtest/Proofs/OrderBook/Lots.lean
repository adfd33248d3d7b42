import Backtest.OrderBook.Actions
import Backtest.Proofs.Binary64.Scale

namespace Backtest

open Binary64

section Numbers

variable {b L s t c : ℚ} {K u p : Nat}

theorem unit_le (hu : 0 < u) (hp : p ≤ 22) : 1 / 2 ^ 74 ≤ (u : ℚ) / 10 ^ p := by
  have one : (1 : ℚ) ≤ u := by exact_mod_cast hu
  exact div_le_div₀ (Nat.cast_nonneg u) one (by positivity) (ten_pow_le hp)

theorem near_step (hu : 0 < u) (hp : p ≤ 22) : Near 1 (rounded (u / 10 ^ p)) (u / 10 ^ p) :=
  (Near.refl _).rounded (by norm_num) (le_trans (by norm_num) (unit_le hu hp))

theorem near_units (hu : 0 < u) (hp : p ≤ 22) (hK : 0 < K) :
    Near 3 (rounded (rounded (K * rounded (u / 10 ^ p)) * 10 ^ p)) (K * u : Nat) := by
  have one : (1 : ℚ) ≤ K := by exact_mod_cast hK
  have least : 1 / 2 ^ 74 ≤ (K : ℚ) * (u / 10 ^ p) :=
    (unit_le hu hp).trans (le_mul_of_one_le_left (by positivity) one)
  have product := (near_step hu hp).mul_left (Nat.cast_nonneg K)
  have steps := product.rounded (by norm_num) (le_trans (by norm_num) least)
  have scaled := steps.mul_left (c := 10 ^ p) (by positivity)
  have units : (10 : ℚ) ^ p * (K * (u / 10 ^ p)) = (K * u : Nat) := by
    push_cast
    field_simp
  rw [units, mul_comm] at scaled
  refine scaled.rounded (by norm_num) (le_trans (by norm_num : (1 : ℚ) / 2 ^ 100 ≤ 1) ?_)
  exact_mod_cast Nat.mul_pos hK hu

/-- The second rounding gives back a whole number of fifteen digits, and does little to a larger one. -/
theorem nearest_units {n : Nat} (h : Near 3 b n) :
    (n < 10 ^ 15 → Arith.nearest b = n) ∧ |(Arith.nearest b : ℚ) - n| ≤ n / 2 ^ 49 := by
  have nonneg : (0 : ℚ) ≤ n := Nat.cast_nonneg n
  obtain ⟨lo, hi⟩ := abs_le.mp (h.abs_sub_le nonneg (by norm_num))
  have hb := h.nonneg nonneg
  have exact : n < 10 ^ 15 → Arith.nearest b = n := by
    intro digits
    have small : (n : ℚ) < 10 ^ 15 := by exact_mod_cast digits
    rw [Arith.nearest, if_pos hb, Int.floor_eq_iff, Int.cast_natCast]
    constructor <;> linarith
  refine ⟨exact, ?_⟩
  by_cases digits : n < 10 ^ 15
  · rw [exact digits, Int.cast_natCast, sub_self, abs_zero]
    positivity
  · have large : (10 : ℚ) ^ 15 ≤ n := by exact_mod_cast not_lt.mp digits
    obtain ⟨down, up⟩ := abs_le.mp (abs_nearest_sub_le hb)
    rw [abs_le]
    constructor <;> linarith

/-- Lots rounded to their decimals: close to the whole number of steps, and not below one step. -/
theorem rounded_units (hu : 0 < u) (digits : u < 10 ^ 15) (hp : p ≤ 22) (hK : 0 < K)
    (h : Near 3 b (K * u : Nat)) :
    rounded (u / 10 ^ p) ≤ rounded (Arith.nearest b / 10 ^ p) ∧
      |rounded (Arith.nearest b / 10 ^ p) - K * rounded (u / 10 ^ p)| ≤
        K * rounded (u / 10 ^ p) / 2 ^ 48 := by
  obtain ⟨exact, close⟩ := nearest_units h
  have one : (1 : ℚ) ≤ K := by exact_mod_cast hK
  have least := unit_le hu hp
  have step := near_step hu hp
  have unitPos : (0 : ℚ) ≤ u / 10 ^ p := by positivity
  have stepPos : 0 ≤ rounded (u / 10 ^ p) := rounded_nonneg unitPos
  have product := (step.mul_left (Nat.cast_nonneg K)).abs_sub_le (by positivity) (by norm_num)
  have units : ((K * u : Nat) : ℚ) / 10 ^ p = K * (u / 10 ^ p) := by
    push_cast
    ring
  have second : |(Arith.nearest b : ℚ) / 10 ^ p - K * (u / 10 ^ p)| ≤ K * (u / 10 ^ p) / 2 ^ 49 := by
    rw [← units, ← sub_div, abs_div, abs_of_pos (show (0 : ℚ) < 10 ^ p by positivity), div_right_comm]
    exact div_le_div_of_nonneg_right close (by positivity)
  have size : 1 / 2 ^ 74 ≤ (K : ℚ) * (u / 10 ^ p) := least.trans (le_mul_of_one_le_left unitPos one)
  obtain ⟨down, up⟩ := abs_le.mp second
  have third := (Near.refl ((Arith.nearest b : ℚ) / 10 ^ p)).rounded (by norm_num) (by linarith)
  have last := third.abs_sub_le (by linarith) (by norm_num)
  -- both sides are close to `K` steps without any rounding
  have whole : |rounded (Arith.nearest b / 10 ^ p) - K * rounded (u / 10 ^ p)| ≤
      K * rounded (u / 10 ^ p) / 2 ^ 48 := by
    obtain ⟨down', up'⟩ := abs_le.mp product
    obtain ⟨down'', up''⟩ := abs_le.mp last
    push_cast at *
    rw [abs_le]
    constructor <;> linarith
  refine ⟨?_, whole⟩
  -- the error would matter for a single step only, and that one has few enough digits
  rcases Nat.eq_or_lt_of_le hK with rfl | more
  · rw [exact (by simpa using digits)]
    simp
  · have two : (2 : ℚ) ≤ K := by exact_mod_cast more
    have twice := mul_le_mul_of_nonneg_right two stepPos
    linarith [(abs_le.mp whole).1]

/-- The whole steps asked for, times the step, are not more than was asked for with a billionth of a step
forgiven. -/
theorem steps_le (hL : 0 ≤ L) (hs : 0 < s) (hc : 0 ≤ c) (hc' : c ≤ (1 + 1 / 2 ^ 53) / 10 ^ 9) :
    rounded (rounded (L / s) + c) * s ≤ (L + s / 10 ^ 9) * (1 + 1 / 2 ^ 51) := by
  have quotient : 0 ≤ L / s := by positivity
  have first := rounded_le quotient
  have second := rounded_le (add_nonneg (rounded_nonneg quotient) hc)
  have bound : rounded (rounded (L / s) + c) ≤ (L / s + 1 / 10 ^ 9) * (1 + 1 / 2 ^ 51) := by
    linarith
  have back : L / s * s = L := div_mul_cancel₀ L hs.ne'
  calc rounded (rounded (L / s) + c) * s
      ≤ (L / s + 1 / 10 ^ 9) * (1 + 1 / 2 ^ 51) * s := mul_le_mul_of_nonneg_right bound hs.le
    _ = (L / s * s + s / 10 ^ 9) * (1 + 1 / 2 ^ 51) := by ring
    _ = (L + s / 10 ^ 9) * (1 + 1 / 2 ^ 51) := by rw [back]

end Numbers

/-- A step that is a whole number of units in the last of the decimals that it is rounded to. -/
structure DecimalStep (step : Float) (units : Nat) : Prop where
  pos : 0 < units
  digits : units < 10 ^ 15
  places_le : Arith.places step ≤ 22
  eq : step = Float.ofNat units / Arith.natPow 10.0 (Arith.places step)

/-- Lots that answer a request in whole steps. -/
structure DealtLots (requested step lots : Float) : Prop where
  requested_finite : isFinite requested = true
  finite : isFinite lots = true
  step_le : step ≤ lots
  whole : ∃ k : Nat, 0 < k ∧ |value lots - k * value step| ≤ k * value step / 2 ^ 48
  le_requested : value lots ≤ (value requested + value step / 10 ^ 9) * (1 + 1 / 2 ^ 47)

section Steps

variable {lots step : Float} {u : Nat}

theorem DecimalStep.step_eq (h : DecimalStep step u) :
    isFinite step = true ∧ value step = rounded (u / 10 ^ Arith.places step) := by
  have factor := Decade.natPow h.places_le
  have digits : u < 2 ^ 53 := h.digits.trans (by norm_num)
  obtain ⟨finite, eq⟩ := ofNat_eq digits
  have rounds := div_roundsTo finite factor.finite (by
    rw [factor.value_eq]
    positivity)
  rw [← h.eq, eq, factor.value_eq] at rounds
  have small : |(u : ℚ) / 10 ^ Arith.places step| ≤ 2 ^ 1023 := by
    rw [abs_of_nonneg (by positivity)]
    exact (div_le_self (Nat.cast_nonneg u) (one_le_pow₀ (by norm_num))).trans
      ((le_abs_self _).trans (natCast_le_pow digits))
  have finite' := rounds.isFinite small
  exact ⟨finite', rounds.value_eq finite'⟩

theorem DecimalStep.value_bounds (h : DecimalStep step u) :
    1 / 2 ^ 75 ≤ value step ∧ value step ≤ 2 ^ 54 := by
  have least := unit_le h.pos h.places_le
  have pos : (0 : ℚ) ≤ u / 10 ^ Arith.places step := by positivity
  have most : (u : ℚ) / 10 ^ Arith.places step ≤ 10 ^ 15 :=
    (div_le_self (Nat.cast_nonneg u) (one_le_pow₀ (by norm_num))).trans (by exact_mod_cast h.digits.le)
  obtain ⟨down, up⟩ := abs_le.mp ((near_step h.pos h.places_le).abs_sub_le pos (by norm_num))
  rw [h.step_eq.2]
  push_cast at *
  constructor <;> linarith

theorem billionth : isFinite (1e-9 : Float) = true ∧ 0 ≤ value (1e-9 : Float) ∧
    value (1e-9 : Float) ≤ (1 + 1 / 2 ^ 53) / 10 ^ 9 := by
  have fields : unpacked (1e-9 : Float) = .finite .positive 4835703278458517 (-82) (by norm_num) := by rfl
  rw [value, fields, valueOf_positive]
  refine ⟨by decide +kernel, ?_, ?_⟩ <;> norm_num

theorem one_eq : isFinite (1 : Float) = true ∧ value (1 : Float) = 1 :=
  ⟨Decade.one.finite, Decade.one.value_eq.trans (pow_zero 10)⟩

theorem roundLots_eq (h : DecimalStep step u) :
    roundLots lots step =
      if floor (lots / step + 1e-9) < 1 then 0
      else round (floor (lots / step + 1e-9) * step * Arith.natPow 10.0 (Arith.places step)) /
        Arith.natPow 10.0 (Arith.places step) := by
  have pos : ¬step ≤ 0 := by
    intro le
    have zero : isFinite (0 : Float) = true := by decide +kernel
    have := (le_iff h.step_eq.1 zero).mp le
    rw [value_zero] at this
    have least := h.value_bounds.1
    have : (0 : ℚ) < 1 / 2 ^ 75 := by positivity
    linarith
  exact if_neg pos

theorem roundLots_of_below (h : DecimalStep step u) (below : Below lots 0) : roundLots lots step = 0 := by
  have pos : 0 < value step := lt_of_lt_of_le (by positivity) h.value_bounds.1
  obtain ⟨finite, -, small⟩ := billionth
  obtain ⟨q, lt, sum⟩ := (below.div h.step_eq.1 pos).add finite (small.trans (by norm_num))
  have none : floor (lots / step + 1e-9) < 1 := by
    refine sum.floor.lt one_eq.1 ?_
    rw [one_eq.2]
    have : ⌊q⌋ < 1 := Int.floor_lt.mpr (by exact_mod_cast lt)
    exact_mod_cast this
  rw [roundLots_eq h, if_pos none]

/-- How large a request may be for its lots to be computed without overflow, as a power of two. -/
def requestRange : ℚ := 2 ^ 931

theorem requestRange_ge : 2 ^ 60 ≤ requestRange := pow_le_pow_right₀ (by norm_num) (by norm_num)

theorem moderate_of_roundsTo {x : Float} {q : ℚ} (h : RoundsTo x q) (nonneg : 0 ≤ q)
    (le : q ≤ requestRange * 2 ^ 92) :
    isFinite x = true ∧ value x = rounded q ∧ value x ≤ 2 * q + 1 := by
  have small : |q| ≤ 2 ^ 1023 := by
    rw [abs_of_nonneg nonneg]
    exact le.trans_eq (pow_add (2 : ℚ) 931 92).symm
  have finite := h.isFinite small
  have eq := h.value_eq finite
  refine ⟨finite, eq, ?_⟩
  rw [eq]
  linarith [rounded_le nonneg]

theorem steps_eq (h : DecimalStep step u) (finite : isFinite lots = true) (pos : 0 < value lots)
    (le : value lots ≤ requestRange) (enough : ¬floor (lots / step + 1e-9) < 1) :
    isFinite (floor (lots / step + 1e-9)) = true ∧
      ∃ K : Nat, 0 < K ∧ value (floor (lots / step + 1e-9)) = K ∧
        K * value step ≤ (value lots + value step / 10 ^ 9) * (1 + 1 / 2 ^ 51) := by
  obtain ⟨stepFinite, -⟩ := h.step_eq
  obtain ⟨least, -⟩ := h.value_bounds
  obtain ⟨partFinite, partPos, part⟩ := billionth
  have stepPos : 0 < value step := lt_of_lt_of_le (by positivity) least
  have range := requestRange_ge
  have quotient : value lots / value step ≤ requestRange * 2 ^ 75 := by
    rw [div_le_iff₀ stepPos]
    have := mul_le_mul_of_nonneg_left least (by linarith : 0 ≤ requestRange * 2 ^ 75)
    linarith
  obtain ⟨finite₁, eq₁, le₁⟩ := moderate_of_roundsTo (div_roundsTo finite stepFinite stepPos.ne')
    (by positivity) (by linarith)
  have nonneg : 0 ≤ value (lots / step) := by
    rw [eq₁]
    exact rounded_nonneg (by positivity)
  obtain ⟨finite₂, eq₂, -⟩ := moderate_of_roundsTo (add_roundsTo finite₁ partFinite)
    (add_nonneg nonneg partPos) (by linarith)
  obtain ⟨finite₃, eq₃⟩ := floor_eq finite₂
  refine ⟨finite₃, ?_⟩
  rw [lt_iff finite₃ one_eq.1, one_eq.2, eq₃, not_lt] at enough
  have one : (1 : Int) ≤ ⌊value (lots / step + 1e-9)⌋ := by exact_mod_cast enough
  obtain ⟨K, hK⟩ := Int.eq_ofNat_of_zero_le (zero_le_one.trans one)
  have below : (K : ℚ) ≤ value (lots / step + 1e-9) := by
    have := Int.floor_le (value (lots / step + 1e-9))
    rwa [hK] at this
  refine ⟨K, by omega, by rw [eq₃, hK]; rfl, ?_⟩
  calc (K : ℚ) * value step
      ≤ value (lots / step + 1e-9) * value step := mul_le_mul_of_nonneg_right below stepPos.le
    _ ≤ _ := by
      rw [eq₂, eq₁]
      exact steps_le pos.le stepPos partPos part

theorem scaled_eq (h : DecimalStep step u) {steps : Float} {K : Nat} (hK : 0 < K)
    (finite : isFinite steps = true) (eq : value steps = K)
    (le : K * value step ≤ requestRange * 4) :
    isFinite (steps * step * Arith.natPow 10.0 (Arith.places step)) = true ∧
      Near 3 (value (steps * step * Arith.natPow 10.0 (Arith.places step))) (K * u : Nat) ∧
      value (steps * step * Arith.natPow 10.0 (Arith.places step)) ≤ requestRange * 2 ^ 80 := by
  obtain ⟨stepFinite, stepEq⟩ := h.step_eq
  have least := h.value_bounds.1
  have factor := Decade.natPow h.places_le
  have range := requestRange_ge
  generalize Arith.natPow 10.0 (Arith.places step) = scale at *
  obtain ⟨finite₁, eq₁, le₁⟩ := moderate_of_roundsTo (mul_roundsTo finite stepFinite)
    (by rw [eq]; positivity) (by rw [eq]; linarith)
  rw [eq] at eq₁ le₁
  have product : 0 ≤ value (steps * step) := by
    rw [eq₁]
    exact rounded_nonneg (by positivity)
  have scaled := mul_le_mul_of_nonneg_left (ten_pow_le h.places_le) product
  obtain ⟨finite₂, eq₂, le₂⟩ := moderate_of_roundsTo (mul_roundsTo finite₁ factor.finite)
    (by rw [factor.value_eq]; positivity) (by rw [factor.value_eq]; linarith)
  rw [factor.value_eq] at eq₂ le₂
  have close := near_units h.pos h.places_le hK
  rw [← stepEq, ← eq₁, ← eq₂] at close
  exact ⟨finite₂, close, by linarith⟩

theorem roundLots_dealt (h : DecimalStep step u) (finite : isFinite lots = true) (pos : 0 < value lots)
    (le : value lots ≤ requestRange) (enough : ¬floor (lots / step + 1e-9) < 1) :
    DealtLots lots step (roundLots lots step) := by
  obtain ⟨stepFinite, stepEq⟩ := h.step_eq
  obtain ⟨least, most⟩ := h.value_bounds
  have factor := Decade.natPow h.places_le
  have range := requestRange_ge
  have asked : 0 ≤ value lots + value step / 10 ^ 9 := by positivity
  obtain ⟨floorFinite, K, hK, floorEq, stepsLe⟩ := steps_eq h finite pos le enough
  obtain ⟨finite₂, close, le₂⟩ := scaled_eq h hK floorFinite floorEq (by linarith)
  rw [roundLots_eq h, if_neg enough]
  generalize floor (lots / step + 1e-9) * step * Arith.natPow 10.0 (Arith.places step) = scaled at *
  generalize Arith.natPow 10.0 (Arith.places step) = scale at *
  have nonneg : 0 ≤ value scaled := close.nonneg (Nat.cast_nonneg _)
  obtain ⟨finite₃, eq₃⟩ := round_eq finite₂
  have wholePos := nearest_nonneg nonneg
  have wholeLe := (abs_le.mp (abs_nearest_sub_le nonneg)).2
  have share := div_le_self wholePos (one_le_pow₀ (by norm_num : (1 : ℚ) ≤ 10) (n := Arith.places step))
  obtain ⟨finite₄, eq₄, -⟩ := moderate_of_roundsTo
    (div_roundsTo finite₃ factor.finite (by rw [factor.value_eq]; positivity))
    (by rw [eq₃, factor.value_eq]; positivity) (by rw [eq₃, factor.value_eq]; linarith)
  obtain ⟨atLeast, near⟩ := rounded_units h.pos h.digits h.places_le hK close
  rw [eq₃, factor.value_eq] at eq₄
  rw [← eq₄, ← stepEq] at atLeast near
  exact {
    requested_finite := finite
    finite := finite₄
    step_le := (le_iff stepFinite finite₄).mpr atLeast
    whole := ⟨K, hK, near⟩
    le_requested := by linarith [(abs_le.mp near).2] }

theorem roundLots_spec (h : DecimalStep step u) (moderate : lots ≤ 1e280) :
    roundLots lots step = 0 ∨ DealtLots lots step (roundLots lots step) := by
  have limit : isFinite (1e280 : Float) = true := by decide +kernel
  have range : value (1e280 : Float) ≤ requestRange := by
    have sign : isNegative (1e280 : Float) = false := by decide +kernel
    have exponent_eq : exponent (1e280 : Float) = ((878 : Nat) : Int) := by decide +kernel
    have lt := (canonical (1e280 : Float)).mantissa_lt
    rw [value_of_not_isNegative limit sign, exponent_eq, zpow_natCast]
    calc (mantissa 1e280 : ℚ) * 2 ^ 878
        ≤ 2 ^ 53 * 2 ^ 878 := mul_le_mul_of_nonneg_right (by exact_mod_cast lt.le) (by positivity)
      _ = requestRange := (pow_add 2 53 878).symm
  by_cases enough : floor (lots / step + 1e-9) < 1
  · left
    rw [roundLots_eq h, if_pos enough]
  rcases Below.of_le limit moderate with inf | ⟨finite, le⟩
  · exact .inl (roundLots_of_below h (.inl inf))
  · rcases le_or_gt (value lots) 0 with none | pos
    · exact .inl (roundLots_of_below h (.inr ⟨finite, none⟩))
    · exact .inr (roundLots_dealt h finite pos (le.trans range) enough)

end Steps

namespace OrderBook

section Place

variable {α : Type} [Arith α] {b : OrderBook α} {kind : OrderKind} {r : Instruction α} {q : Quote α}

/-- What a request comes to: a full book, nothing, or one more order with the lots that it rounds to. -/
theorem place_cases (b : OrderBook α) (kind : OrderKind) (r : Instruction α) (q : Quote α) :
    b.place kind r q = .error (.tooManyOrders b.instanceId b.orderLimit) ∨
      b.place kind r q = .ok (b, none) ∨
      ¬roundLots r.lots b.account.minLot ≤ 0 ∧
        ∃ placed o, b.place kind r q = .ok (placed, some o.ticket) ∧
          placed.openOrders = b.openOrders ++ [o] ∧ o.lots = roundLots r.lots b.account.minLot := by
  unfold place
  dsimp only
  split
  next => exact .inr (.inl rfl)
  next lotted =>
    split
    next => exact .inl rfl
    next =>
      cases entryPrice? kind r q with
      | none => exact .inr (.inl rfl)
      | some price => exact .inr (.inr ⟨lotted, _, b.newOrder kind r q _ price, rfl, rfl, rfl⟩)

theorem place_market (market : kind = .buy ∨ kind = .sell)
    (lotted : ¬roundLots r.lots b.account.minLot ≤ 0) (room : b.openOrders.length < b.orderLimit) :
    ∃ placed o, b.place kind r q = .ok (placed, some o.ticket) ∧
      placed.openOrders = b.openOrders ++ [o] ∧ o.lots = roundLots r.lots b.account.minLot := by
  unfold place
  dsimp only
  rw [if_neg lotted, if_neg (not_le.mpr room)]
  rcases market with rfl | rfl
  · exact ⟨_, b.newOrder .buy r q _ q.ask, rfl, rfl, rfl⟩
  · exact ⟨_, b.newOrder .sell r q _ q.bid, rfl, rfl, rfl⟩

end Place

section Deals

variable {b : OrderBook Float} {units : Nat} {r : Instruction Float}

/-- What enters a book whose step is whole in its decimals is dealt in whole steps, whatever is asked for,
up to a size at which the lots would overflow. -/
theorem place_deals (decimal : DecimalStep b.account.minLot units) (moderate : r.lots ≤ 1e280)
    (kind : OrderKind) (q : Quote Float) :
    b.place kind r q = .error (.tooManyOrders b.instanceId b.orderLimit) ∨
      b.place kind r q = .ok (b, none) ∨
      ∃ placed o, b.place kind r q = .ok (placed, some o.ticket) ∧
        placed.openOrders = b.openOrders ++ [o] ∧ DealtLots r.lots b.account.minLot o.lots := by
  rcases place_cases b kind r q with full | refused | ⟨lotted, placed, o, eq, orders, lots⟩
  · exact .inl full
  · exact .inr (.inl refused)
  · rcases roundLots_spec decimal moderate with none | dealt
    · exact absurd (by rw [none]; decide +kernel) lotted
    · exact .inr (.inr ⟨placed, o, eq, orders, lots ▸ dealt⟩)

end Deals

section Sample

def stepBook (step : Float) : OrderBook Float :=
  .empty 1 { Account.standard with minLot := step } 10000.0 5

def lotsRequest (lots : Float) : Instruction Float := .ofList [0, 0, lots]

def evenQuote : Quote Float := ⟨0, 1.0, 1.0, 1.0, none⟩

theorem stepBook_places (step lots : Float) (lotted : ¬roundLots lots step ≤ 0) :
    ∃ placed o, (stepBook step).place .buy (lotsRequest lots) evenQuote = .ok (placed, some o.ticket) ∧
      placed.openOrders = [o] ∧ o.lots = roundLots lots step :=
  place_market (.inl rfl) lotted (Nat.zero_lt_succ 4)

theorem hundredth_decimal : DecimalStep 0.01 1 :=
  ⟨by decide, by decide, by decide +kernel, by decide +kernel⟩

theorem stepBook_deals :
    DecimalStep (stepBook 0.01).account.minLot 1 ∧ (lotsRequest 0.237).lots ≤ 1e280 ∧
      ∃ (placed : OrderBook Float) (o : Order Float),
        (stepBook 0.01).place .buy (lotsRequest 0.237) evenQuote = .ok (placed, some o.ticket) ∧
          DealtLots 0.237 0.01 o.lots := by
  have moderate : (0.237 : Float) ≤ 1e280 := by decide +kernel
  refine ⟨hundredth_decimal, moderate, ?_⟩
  obtain ⟨placed, o, eq, -, -⟩ := stepBook_places 0.01 0.237 (by decide +kernel)
  rcases place_deals (b := stepBook 0.01) (r := lotsRequest 0.237) hundredth_decimal moderate .buy
    evenQuote with full | refused | ⟨placed', o', eq', -, dealt⟩
  · rw [eq] at full
    cases full
  · rw [eq] at refused
    cases refused
  · exact ⟨placed', o', eq', dealt⟩

/-- A quarter has two decimals and is rounded to one. And what is not finite passes every check. -/
theorem stepBook_deals_more :
    (∃ placed o, (stepBook 0.25).place .buy (lotsRequest 0.25) evenQuote = .ok (placed, some o.ticket) ∧
      placed.openOrders = [o] ∧ ¬DealtLots 0.25 0.25 o.lots) ∧
    (∃ placed o, (stepBook 0.25).place .buy (lotsRequest (0.0 / 0.0)) evenQuote =
      .ok (placed, some o.ticket) ∧ placed.openOrders = [o] ∧ isFinite o.lots = false) ∧
    ∃ placed o, (stepBook 0.25).place .buy (lotsRequest infinity) evenQuote =
      .ok (placed, some o.ticket) ∧ placed.openOrders = [o] ∧ isFinite o.lots = false := by
  refine ⟨?_, ?_, ?_⟩
  · obtain ⟨placed, o, eq, orders, lots⟩ := stepBook_places 0.25 0.25 (by decide +kernel)
    refine ⟨placed, o, eq, orders, ?_⟩
    intro dealt
    have quarter : unpacked (0.25 : Float) = .finite .positive (2 ^ 52) (-54) (by norm_num) := by rfl
    have rounds : roundLots (0.25 : Float) 0.25 = 0.3 := by decide +kernel
    have above : unpacked (0.3 : Float) = .finite .positive 5404319552844595 (-54) (by norm_num) := by
      rfl
    have le := dealt.le_requested
    rw [lots, rounds, value, value, above, quarter, valueOf_positive, valueOf_positive] at le
    norm_num at le
  · obtain ⟨placed, o, eq, orders, lots⟩ := stepBook_places 0.25 (0.0 / 0.0) (by decide +kernel)
    exact ⟨placed, o, eq, orders, by rw [lots]; decide +kernel⟩
  · obtain ⟨placed, o, eq, orders, lots⟩ := stepBook_places 0.25 infinity (by decide +kernel)
    exact ⟨placed, o, eq, orders, by rw [lots]; decide +kernel⟩

end Sample

end OrderBook
end Backtest
