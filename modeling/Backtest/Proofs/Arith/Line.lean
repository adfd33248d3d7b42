import Backtest.Proofs.Arith.Exact
import Backtest.Proofs.Binary64.Line
import Mathlib.Data.EReal.Basic

namespace Backtest
namespace Arith

/-- Arithmetic whose defined amounts, those that compare with themselves, are in line, and in which
counting a distance down or up, or adding one, leads in its direction. -/
class Linear (α : Type) [Arith α] : Prop where
  exists_place : ∃ place : α → EReal, ∀ a b : α,
    (a < b ↔ a ≤ a ∧ b ≤ b ∧ place a < place b) ∧ (a ≤ b ↔ a ≤ a ∧ b ≤ b ∧ place a ≤ place b)
  beq_self_iff (a : α) : (a == a) = true ↔ a ≤ a
  lower_le (a d : α) : ¬ d < 0 → a + -1 * d ≤ a + -1 * d → a + -1 * d ≤ a
  le_raise (a d : α) : ¬ d < 0 → a + - -1 * d ≤ a + - -1 * d → a ≤ a + - -1 * d
  le_add_or_le (a d b : α) : 0 ≤ d → a ≤ a → b ≤ b → b ≤ a + d ∨ a ≤ b

instance {α : Type} [Arith α] [Exact α] : Linear α where
  exists_place := by
    refine ⟨fun a => (Exact.value a : EReal), fun a b => ⟨?_, ?_⟩⟩ <;>
      simp [Exact.lt_iff, Exact.le_iff]
  beq_self_iff a := by simp [Exact.beq_iff, Exact.le_iff]
  lower_le a d h _ := by
    rw [Exact.lt_iff, Exact.value_zero, not_lt] at h
    rw [Exact.le_iff, Exact.value_add, Exact.value_mul, Exact.value_neg, Exact.value_one]
    linarith
  le_raise a d h _ := by
    rw [Exact.lt_iff, Exact.value_zero, not_lt] at h
    rw [Exact.le_iff, Exact.value_add, Exact.value_mul, Exact.value_neg, Exact.value_neg,
      Exact.value_one]
    linarith
  le_add_or_le a d b h _ _ := by
    rw [Exact.le_iff, Exact.value_zero] at h
    rw [Exact.le_iff, Exact.le_iff, Exact.value_add]
    rcases le_total (Exact.value b) (Exact.value a) with below | above
    · exact .inl (by linarith)
    · exact .inr above

instance : Linear Float where
  exists_place := ⟨Binary64.place, fun _ _ => ⟨Binary64.lt_iff_place, Binary64.le_iff_place⟩⟩
  beq_self_iff _ := Binary64.beq_self_iff
  lower_le _ _ := Binary64.lower_le
  le_raise _ _ := Binary64.le_raise
  le_add_or_le _ _ _ := Binary64.le_add_or_le

namespace Linear

variable {α : Type} [Arith α] [Linear α] {a b c : α}

theorem defined_of_le (h : a ≤ b) : a ≤ a ∧ b ≤ b := by
  obtain ⟨place, order⟩ := exists_place (α := α)
  obtain ⟨ha, hb, -⟩ := (order a b).2.mp h
  exact ⟨ha, hb⟩

protected theorem lt_irrefl : ¬ a < a := by
  obtain ⟨place, order⟩ := exists_place (α := α)
  rw [(order a a).1]
  exact fun h => h.2.2.false

protected theorem le_of_lt (h : a < b) : a ≤ b := by
  obtain ⟨place, order⟩ := exists_place (α := α)
  obtain ⟨ha, hb, lt⟩ := (order a b).1.mp h
  exact (order a b).2.mpr ⟨ha, hb, lt.le⟩

protected theorem le_trans (h : a ≤ b) (h' : b ≤ c) : a ≤ c := by
  obtain ⟨place, order⟩ := exists_place (α := α)
  obtain ⟨ha, -, le⟩ := (order a b).2.mp h
  obtain ⟨-, hc, le'⟩ := (order b c).2.mp h'
  exact (order a c).2.mpr ⟨ha, hc, le.trans le'⟩

protected theorem lt_of_lt_of_le (h : a < b) (h' : b ≤ c) : a < c := by
  obtain ⟨place, order⟩ := exists_place (α := α)
  obtain ⟨ha, -, lt⟩ := (order a b).1.mp h
  obtain ⟨-, hc, le⟩ := (order b c).2.mp h'
  exact (order a c).1.mpr ⟨ha, hc, lt.trans_le le⟩

protected theorem le_of_not_le (ha : a ≤ a) (hb : b ≤ b) (h : ¬ a ≤ b) : b ≤ a := by
  obtain ⟨place, order⟩ := exists_place (α := α)
  rw [(order a b).2] at h
  exact (order b a).2.mpr ⟨hb, ha, (not_le.mp fun le => h ⟨ha, hb, le⟩).le⟩

protected theorem le_of_not_lt (ha : a ≤ a) (hb : b ≤ b) (h : ¬ a < b) : b ≤ a := by
  obtain ⟨place, order⟩ := exists_place (α := α)
  rw [(order a b).1] at h
  exact (order b a).2.mpr ⟨hb, ha, not_lt.mp fun lt => h ⟨ha, hb, lt⟩⟩

theorem le_larger_left (ha : a ≤ a) : a ≤ larger a b := by
  unfold larger
  split
  next lt => exact Linear.le_of_lt lt
  next => rwa [if_pos ((beq_self_iff a).mpr ha)]

theorem le_larger_right (hb : b ≤ b) : b ≤ larger a b := by
  unfold larger
  split
  next => exact hb
  next ge =>
    split
    next eq => exact Linear.le_of_not_lt ((beq_self_iff a).mp eq) hb ge
    next => exact hb

theorem smaller_le_left (ha : a ≤ a) : smaller a b ≤ a := by
  unfold smaller
  split
  next lt => exact Linear.le_of_lt lt
  next => rwa [if_pos ((beq_self_iff a).mpr ha)]

theorem smaller_le_right (hb : b ≤ b) : smaller a b ≤ b := by
  unfold smaller
  split
  next => exact hb
  next ge =>
    split
    next eq => exact Linear.le_of_not_lt hb ((beq_self_iff a).mp eq) ge
    next => exact hb

end Linear

end Arith
end Backtest
