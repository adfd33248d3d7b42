import Mathlib.Data.List.Forall2
import Mathlib.Data.List.Sort
import Backtest.Proofs.History.Increasing

namespace Backtest
namespace Series

variable {α : Type} {all all' : List (Series α)} {s : Series α} {time : Int}

/-- The bars of a series at the times that every one of some series holds. -/
def sharedBars (all : List (Series α)) (s : Series α) : Series α :=
  s.filter fun b => decide (∀ o ∈ all, b.time ∈ o.toList.map Bar.time)

theorem contains_times : s.times.contains time = true ↔ time ∈ s.toList.map Bar.time := by
  unfold times
  rw [Std.HashSet.contains_ofList, List.contains_iff_mem]

/-- What is retained through some series are the times that each of them holds. -/
theorem mem_retained {common : Std.TreeSet Int} {others : List (Series α)} :
    time ∈ retained common others ↔ time ∈ common ∧ ∀ o ∈ others, time ∈ o.toList.map Bar.time := by
  unfold retained
  induction others generalizing common with
  | nil => simp
  | cons s others ih =>
    rw [List.foldl_cons, ih, Std.TreeSet.mem_filter]
    simp only [Std.TreeSet.get_eq, contains_times, exists_prop, List.forall_mem_cons, and_assoc]

theorem contains_retained {first : Series α} {others : List (Series α)} :
    (retained (Std.TreeSet.ofList (first.toList.map Bar.time)) others).contains time = true ↔
      ∀ o ∈ first :: others, time ∈ o.toList.map Bar.time := by
  rw [← Std.TreeSet.mem_iff_contains, mem_retained, Std.TreeSet.mem_ofList, List.contains_iff_mem,
    List.forall_mem_cons]

theorem mem_sharedBars {b : Bar α} :
    b ∈ (sharedBars all s).toList ↔ b ∈ s.toList ∧ ∀ o ∈ all, b.time ∈ o.toList.map Bar.time := by
  unfold sharedBars
  rw [Array.toList_filter, List.mem_filter, decide_eq_true_eq]

theorem mem_times_sharedBars :
    time ∈ (sharedBars all s).toList.map Bar.time ↔
      time ∈ s.toList.map Bar.time ∧ ∀ o ∈ all, time ∈ o.toList.map Bar.time := by
  rw [List.mem_map, List.mem_map]
  constructor
  · rintro ⟨b, hb, rfl⟩
    obtain ⟨hs, shared⟩ := mem_sharedBars.mp hb
    exact ⟨⟨b, hs, rfl⟩, shared⟩
  · rintro ⟨⟨b, hs, rfl⟩, shared⟩
    exact ⟨b, mem_sharedBars.mpr ⟨hs, shared⟩, rfl⟩

theorem sharedBars_congr
    (h : ∀ b ∈ s.toList, (∀ o ∈ all, b.time ∈ o.toList.map Bar.time) ↔
      ∀ o ∈ all', b.time ∈ o.toList.map Bar.time) :
    sharedBars all s = sharedBars all' s := by
  unfold sharedBars
  apply Array.ext'
  rw [Array.toList_filter, Array.toList_filter]
  exact List.filter_congr fun b hb => decide_eq_decide.mpr (h b hb)

/-- A series is cut to the times of some series and then of others as it is to those of all. -/
theorem sharedBars_sharedBars (all all' : List (Series α)) (s : Series α) :
    sharedBars all' (sharedBars all s) = sharedBars (all ++ all') s := by
  unfold sharedBars
  rw [Array.filter_filter]
  refine congrArg (Array.filter · s) (funext fun b => ?_)
  rw [← Bool.decide_and, decide_eq_decide, List.forall_mem_append, and_comm]

theorem sharedBars_eq_self (h : ∀ o ∈ all, ∀ b ∈ s.toList, b.time ∈ o.toList.map Bar.time) :
    sharedBars all s = s := by
  unfold sharedBars
  rw [Array.filter_eq_self]
  exact fun b hb => decide_eq_true fun o ho => h o ho b (Array.mem_toList_iff.mpr hb)

theorem sharedBars_singleton (s : Series α) : sharedBars [s] s = s :=
  sharedBars_eq_self fun _ ho _ hb => List.mem_singleton.mp ho ▸ List.mem_map_of_mem hb

/-- Series by series, alignment comes to a join. -/
theorem aligned_eq (all : List (Series α)) : aligned all = all.map (sharedBars all) := by
  match all with
  | [] => rfl
  | [s] =>
    rw [List.map_singleton, sharedBars_singleton]
    rfl
  | first :: second :: rest =>
    unfold aligned sharedBars
    refine List.map_congr_left fun s _ => congrArg (Array.filter · s) (funext fun b => ?_)
    rw [Bool.eq_iff_iff, contains_retained, decide_eq_true_eq]

theorem aligned_aligned (all : List (Series α)) : aligned (aligned all) = aligned all := by
  rw [aligned_eq (aligned all), aligned_eq all]
  refine (List.map_congr_left fun s hs => ?_).trans (List.map_id _)
  refine sharedBars_eq_self fun o ho b hb => ?_
  obtain ⟨whole, -, rfl⟩ := List.mem_map.mp hs
  obtain ⟨other, hother, rfl⟩ := List.mem_map.mp ho
  obtain ⟨-, shared⟩ := mem_sharedBars.mp hb
  exact mem_times_sharedBars.mpr ⟨shared other hother, shared⟩

/-- Series of increasing times that are cut to the times of all have the same times. -/
theorem aligned_times (increasing : ∀ s ∈ all, s.Increasing) :
    ∀ s ∈ aligned all, ∀ t ∈ aligned all, s.toList.map Bar.time = t.toList.map Bar.time := by
  have sorted : ∀ s ∈ aligned all, (s.toList.map Bar.time).Pairwise (· < ·) := fun s hs =>
    List.pairwise_map.mpr (aligned_increasing increasing s hs)
  have shared : ∀ s ∈ aligned all, ∀ time, time ∈ s.toList.map Bar.time ↔
      ∀ o ∈ all, time ∈ o.toList.map Bar.time := by
    intro s hs time
    rw [aligned_eq] at hs
    obtain ⟨whole, hwhole, rfl⟩ := List.mem_map.mp hs
    rw [mem_times_sharedBars]
    exact ⟨And.right, fun h => ⟨h whole hwhole, h⟩⟩
  intro s hs t ht
  exact (sorted s hs).eq_of_mem_iff (sorted t ht) fun time =>
    (shared s hs time).trans (shared t ht time).symm

/-- Parts of the series that have the same times are parts of what alignment leaves. -/
theorem sublist_aligned {parts : List (Series α)}
    (part : List.Forall₂ (fun c s => c.toList.Sublist s.toList) parts all)
    (same : ∀ c ∈ parts, ∀ c' ∈ parts, c.toList.map Bar.time = c'.toList.map Bar.time) :
    List.Forall₂ (fun c s => c.toList.Sublist s.toList) parts (aligned all) := by
  have shared : ∀ c ∈ parts, ∀ b ∈ c.toList, ∀ o ∈ all, b.time ∈ o.toList.map Bar.time := by
    intro c hc b hb o ho
    obtain ⟨i, hi, rfl⟩ := List.mem_iff_getElem.mp ho
    have hi' : i < parts.length := part.length_eq ▸ hi
    have within := part.get hi' hi
    have time := List.mem_map_of_mem hb (f := Bar.time)
    rw [same c hc parts[i] (List.getElem_mem hi')] at time
    exact (within.map Bar.time).subset time
  rw [aligned_eq, List.forall₂_map_right_iff, List.forall₂_iff_zip]
  refine ⟨part.length_eq, fun {c s} hcs => ?_⟩
  have hc := (List.of_mem_zip hcs).1
  have kept := ((List.forall₂_iff_zip.mp part).2 hcs).filter
    fun b => decide (∀ o ∈ all, b.time ∈ o.toList.map Bar.time)
  rw [List.filter_eq_self.mpr fun b hb => decide_eq_true (shared c hc b hb)] at kept
  unfold sharedBars
  rwa [Array.toList_filter]

theorem aligned_reorder {order : List Nat} (perm : order.Perm (List.range all.length)) :
    aligned (order.filterMap (all[·]?)) = order.filterMap ((aligned all)[·]?) := by
  have members : ∀ o, o ∈ order.filterMap (all[·]?) ↔ o ∈ all := by
    intro o
    rw [List.mem_filterMap, List.mem_iff_getElem?]
    refine exists_congr fun i => and_iff_right_of_imp fun hi => ?_
    exact perm.mem_iff.mpr (List.mem_range.mpr (List.getElem?_eq_some_iff.mp hi).1)
  have cut : sharedBars (order.filterMap (all[·]?)) = sharedBars all := by
    funext s
    refine sharedBars_congr fun b _ => ?_
    simp only [members]
  simp only [aligned_eq, cut, List.map_filterMap, List.getElem?_map]

/-- Alignment is a join on time. Of each series it leaves the bars, as they are, whose times all of the
series hold, so that what is left of them has the same times at every index. It leaves as much as it can:
no parts of the series with the same times hold more. What has been aligned stays as it is, and series in
another order are aligned in that order. -/
theorem aligned_joins (increasing : ∀ s ∈ all, s.Increasing) :
    aligned all = all.map (sharedBars all) ∧
    (∀ s ∈ aligned all, ∀ t ∈ aligned all, s.size = t.size ∧ ∀ i, s.timeAt? i = t.timeAt? i) ∧
    (∀ parts : List (Series α), List.Forall₂ (fun c s => c.toList.Sublist s.toList) parts all →
      (∀ c ∈ parts, ∀ c' ∈ parts, c.toList.map Bar.time = c'.toList.map Bar.time) →
      List.Forall₂ (fun c s => c.toList.Sublist s.toList) parts (aligned all)) ∧
    aligned (aligned all) = aligned all ∧
    ∀ order : List Nat, order.Perm (List.range all.length) →
      aligned (order.filterMap (all[·]?)) = order.filterMap ((aligned all)[·]?) := by
  refine ⟨aligned_eq all, fun s hs t ht => ?_, fun _ part same => sublist_aligned part same,
    aligned_aligned all, fun _ perm => aligned_reorder perm⟩
  have times := aligned_times increasing s hs t ht
  refine ⟨by simpa using congrArg List.length times, fun i => ?_⟩
  have at_i := congrArg (·[i]?) times
  simpa [timeAt?] using at_i

section Sample

def blankBars (times : List Int) : Series Float :=
  (times.map fun time => ⟨time, 0, 0, 0, 0, 0, 0, 0⟩).toArray

def overlappingBars : List (Series Float) :=
  [[0, 60, 120, 240], [60, 180, 240], [-60, 60, 120, 240, 300]].map blankBars

theorem overlappingBars_joined :
    (aligned overlappingBars).map (fun s => s.toList.map Bar.time) =
      [[60, 240], [60, 240], [60, 240]] ∧
    aligned (aligned overlappingBars) = aligned overlappingBars ∧
    aligned ([2, 0, 1].filterMap (overlappingBars[·]?)) =
      [2, 0, 1].filterMap ((aligned overlappingBars)[·]?) := by
  have increasing : ∀ s ∈ overlappingBars, s.Increasing := by
    simp [overlappingBars, blankBars, Increasing]
  obtain ⟨joined, -, -, again, reorder⟩ := aligned_joins increasing
  refine ⟨?_, again, reorder [2, 0, 1] (by decide)⟩
  rw [joined]
  decide +kernel

end Sample

end Series
end Backtest
