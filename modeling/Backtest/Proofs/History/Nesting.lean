import Backtest.Proofs.History.Summary

namespace Backtest

variable {α : Type} [Arith α]

namespace Bar

/-- A bar as it is but for its volume. -/
def unweighed (b : Bar α) : Bar α := { b with volume := 0 }

/-- A view of bars that does not show how the bars which were taken in had been grouped. -/
structure Associative {γ : Type} (view : Bar α → γ) : Prop where
  time_eq {a a' : Bar α} : view a = view a' → a.time = a'.time
  congr {a a' : Bar α} (b : Bar α) : view a = view a' → view (a.absorb b) = view (a'.absorb b)
  assoc (a b c : Bar α) : view (a.absorb (b.absorb c)) = view ((a.absorb b).absorb c)

/-- Prices are the same in any grouping, whether or not sums of volumes are. -/
theorem associative_unweighed [Arith.Linear α] : Associative (unweighed (α := α)) where
  time_eq h := by
    have time := congrArg Bar.time h
    exact time
  congr b h := by
    have high := congrArg Bar.high h
    have low := congrArg Bar.low h
    simp only [unweighed, Bar.mk.injEq] at h high low
    simp only [unweighed, absorb, h.1, h.2.1, high, low]
  assoc a b c := by
    simp only [unweighed, absorb, Arith.larger_assoc, Arith.smaller_assoc]

/-- In exact arithmetic all of a bar is the same in any grouping. -/
theorem associative_id [Arith.Exact α] : Associative (id : Bar α → Bar α) where
  time_eq h := congrArg Bar.time h
  congr b h := congrArg (absorb · b) h
  assoc a b c := by
    have volume : a.volume + (b.volume + c.volume) = a.volume + b.volume + c.volume := by
      apply Arith.Exact.value_injective
      simp only [Arith.Exact.value_add, add_assoc]
    simp only [id, absorb, Arith.larger_assoc, Arith.smaller_assoc, volume]

end Bar

namespace Series

theorem spanStart_spanStart {fine period : Int} (hp : 0 < fine) (nested : fine ∣ period) (time : Int) :
    spanStart period (spanStart fine time) = spanStart period time := by
  obtain ⟨k, rfl⟩ := nested
  unfold spanStart
  rw [Int.mul_comm (time / fine), Int.mul_ediv_mul_of_pos _ _ hp,
    Int.ediv_ediv_of_nonneg (Int.le_of_lt hp)]

theorem addToSpans_join {period : Int} {out : Series α} {init : List (Bar α)} {last b : Bar α}
    (hout : out.toList = init ++ [last]) (same : last.time = spanStart period b.time) :
    (addToSpans period out b).toList = init ++ [last.absorb b] := by
  have back : out.back? = some last := by rw [← Array.getLast?_toList, hout, List.getLast?_concat]
  unfold addToSpans
  simp [back, same, hout]

theorem addToSpans_open {period : Int} {out : Series α} {b : Bar α}
    (new : ∀ last ∈ out.toList.getLast?, last.time ≠ spanStart period b.time) :
    (addToSpans period out b).toList =
      out.toList ++ [{ b with time := spanStart period b.time }] := by
  rw [Array.getLast?_toList] at new
  unfold addToSpans
  dsimp only
  split
  next last back => rw [if_neg (new last back), Array.toList_push]
  next => rw [Array.toList_push]

section View

variable {γ : Type} {view : Bar α → γ} {period : Int} {out out' : Series α} {b : Bar α}

theorem addToSpans_congr (assoc : Bar.Associative view)
    (alike : out.toList.map view = out'.toList.map view) {time : Int}
    (same : spanStart period time = spanStart period b.time) :
    (addToSpans period out { b with time := time }).toList.map view =
      (addToSpans period out' b).toList.map view := by
  rcases List.eq_nil_or_concat out.toList with hout | ⟨init, last, hout⟩
  · have hout' : out'.toList = [] := List.map_eq_nil_iff.mp (by rw [← alike, hout, List.map_nil])
    rw [addToSpans_open (by simp [hout]), addToSpans_open (by simp [hout']), hout, hout']
    dsimp only
    rw [same]
  · rw [List.concat_eq_append] at hout
    rw [hout, List.map_append] at alike
    obtain ⟨init', ends, hout', inits, lasts⟩ := List.append_eq_map_iff.mp alike
    obtain ⟨last', rest, rfl, hlast, hrest⟩ := List.map_eq_cons_iff.mp lasts
    obtain rfl := List.map_eq_nil_iff.mp hrest
    have times := assoc.time_eq hlast
    by_cases joins : last.time = spanStart period b.time
    · rw [addToSpans_join hout (joins.trans same.symm), addToSpans_join hout' (times.trans joins),
        List.map_append, List.map_append, inits]
      exact congrArg (_ ++ [·]) (assoc.congr b hlast.symm)
    · rw [addToSpans_open (by simpa [hout, same] using joins),
        addToSpans_open (by simpa [hout', times] using joins), hout, hout', List.map_append,
        List.map_append, List.map_append, List.map_append, inits, lasts]
      dsimp only
      rw [same]

/-- Two bars of one span may be put together before they are added. -/
theorem addToSpans_absorb (assoc : Bar.Associative view) {last : Bar α}
    (same : spanStart period last.time = spanStart period b.time) :
    (addToSpans period out (last.absorb b)).toList.map view =
      (addToSpans period (addToSpans period out last) b).toList.map view := by
  by_cases joins : ∃ init x, out.toList = init ++ [x] ∧ x.time = spanStart period last.time
  · obtain ⟨init, x, hout, hx⟩ := joins
    have once : (addToSpans period out (last.absorb b)).toList = init ++ [x.absorb (last.absorb b)] :=
      addToSpans_join hout hx
    have twice := addToSpans_join (b := b) (addToSpans_join hout hx) (hx.trans same)
    rw [once, twice, List.map_append, List.map_append]
    exact congrArg (_ ++ [·]) (assoc.assoc x last b)
  · have new : ∀ x ∈ out.toList.getLast?, x.time ≠ spanStart period last.time := by
      intro x hx joined
      exact joins ⟨_, x, (List.dropLast_append_getLast? x hx).symm, joined⟩
    have once : (addToSpans period out (last.absorb b)).toList = out.toList ++
        [{ last.absorb b with time := spanStart period last.time }] := addToSpans_open new
    rw [once, addToSpans_join (b := b) (addToSpans_open new) same]
    rfl

/-- Bars that have been put together by spans, and then by longer ones, are as if they had been put
together by the longer ones at once. -/
theorem foldl_addToSpans_nested (assoc : Bar.Associative view) {fine : Int} (hp : 0 < fine)
    (nested : fine ∣ period) (bars : List (Bar α)) :
    ((bars.foldl (addToSpans fine) #[]).toList.foldl (addToSpans period) #[]).toList.map view =
      (bars.foldl (addToSpans period) #[]).toList.map view := by
  induction bars using List.reverseRecOn with
  | nil => rfl
  | append_singleton bars b ih =>
    have within := spanStart_spanStart hp nested b.time
    rw [List.foldl_append, List.foldl_append]
    dsimp only [List.foldl_cons, List.foldl_nil]
    rcases addToSpans_cases fine (bars.foldl (addToSpans fine) #[]) b with
      ⟨init, last, hfine, htime, hnew⟩ | hnew
    · -- the last fine bar grew: its span of the longer period is that of `b`
      rw [hfine, List.foldl_append] at ih
      rw [hnew, List.foldl_append]
      dsimp only [List.foldl_cons, List.foldl_nil] at ih ⊢
      rw [addToSpans_absorb assoc (htime ▸ within)]
      exact addToSpans_congr assoc ih rfl
    · rw [hnew, List.foldl_append]
      exact addToSpans_congr assoc ih within

end View

/-- Two stages lead to the view that one stage leads to. -/
theorem resample_view {γ : Type} {view : Bar α → γ} (assoc : Bar.Associative view)
    {base mid target : Nat} (positive : 0 < base) (finer : base ≤ mid) (coarser : mid ≤ target)
    (multiple : mid ∣ target) {s between twice once : Series α}
    (first : s.resample base mid = .ok between) (second : between.resample mid target = .ok twice)
    (direct : s.resample base target = .ok once) :
    twice.toList.map view = once.toList.map view := by
  rcases Nat.eq_or_lt_of_le finer with rfl | finer
  · cases (resample_self positive s).symm.trans first
    cases second.symm.trans direct
    rfl
  rcases Nat.eq_or_lt_of_le coarser with rfl | coarser
  · cases (resample_self (by omega) between).symm.trans second
    cases first.symm.trans direct
    rfl
  cases (resample_of_lt positive finer s).symm.trans first
  cases (resample_of_lt (by omega) coarser _).symm.trans second
  cases (resample_of_lt positive (by omega) s).symm.trans direct
  have nested : ((mid * 60 : Nat) : Int) ∣ (target * 60 : Nat) :=
    Int.natCast_dvd_natCast.mpr (Nat.mul_dvd_mul_right multiple 60)
  simp only [← Array.foldl_toList]
  exact foldl_addToSpans_nested assoc (by omega) nested s.toList

/-- A history that becomes coarser in two stages, the second timeframe a multiple of the first, has the
bars that it has if it becomes as coarse at once, the two trivial stages included. Only the volumes may
have been rounded differently, and in exact arithmetic they are the same. Without a base timeframe no
stage is possible. -/
theorem resample_resample [Arith.Linear α] {base mid target : Nat} (finer : base ≤ mid)
    (coarser : mid ≤ target) (multiple : mid ∣ target) (s : Series α) :
    (0 < base → ∃ between twice once, s.resample base mid = .ok between ∧
      between.resample mid target = .ok twice ∧ s.resample base target = .ok once ∧
      twice.map Bar.unweighed = once.map Bar.unweighed ∧ ∀ [Arith.Exact α], twice = once) ∧
    (base = 0 → s.resample base mid = .error (.invalidTimeframe base mid) ∧
      s.resample base target = .error (.invalidTimeframe base target)) := by
  constructor
  · intro positive
    obtain ⟨between, first⟩ := exists_resample positive finer s
    obtain ⟨twice, second⟩ := exists_resample (by omega : 0 < mid) coarser between
    obtain ⟨once, direct⟩ := exists_resample positive (finer.trans coarser) s
    refine ⟨between, twice, once, first, second, direct, Array.ext' ?_, Array.ext' ?_⟩
    · rw [Array.toList_map, Array.toList_map]
      exact resample_view Bar.associative_unweighed positive finer coarser multiple first second direct
    · have same := resample_view Bar.associative_id positive finer coarser multiple first second direct
      rwa [List.map_id, List.map_id] at same
  · rintro rfl
    exact ⟨resample_zero mid s, resample_zero target s⟩

/-- Five bars, by way of four of five minutes, make two of a quarter of an hour. -/
theorem unevenBars_resample_resample :
    (∃ between twice once, (unevenBars Float).resample 2 5 = .ok between ∧
      between.resample 5 15 = .ok twice ∧ (unevenBars Float).resample 2 15 = .ok once ∧
      twice.map Bar.unweighed = once.map Bar.unweighed ∧ once.toList.map Bar.time = [-900, 0]) ∧
    ∃ between once, (unevenBars ℚ).resample 2 5 = .ok between ∧
      between.resample 5 15 = .ok once ∧ (unevenBars ℚ).resample 2 15 = .ok once := by
  constructor
  · obtain ⟨between, twice, once, first, second, direct, same, -⟩ :=
      (resample_resample (by decide : 2 ≤ 5) (by decide : 5 ≤ 15) (by decide)
        (unevenBars Float)).1 (by decide)
    refine ⟨between, twice, once, first, second, direct, same, ?_⟩
    cases (resample_of_lt (by decide) (by decide) _).symm.trans direct
    decide +kernel
  · obtain ⟨between, twice, once, first, second, direct, -, same⟩ :=
      (resample_resample (by decide : 2 ≤ 5) (by decide : 5 ≤ 15) (by decide)
        (unevenBars ℚ)).1 (by decide)
    exact ⟨between, once, first, same ▸ second, direct⟩

end Series
end Backtest
