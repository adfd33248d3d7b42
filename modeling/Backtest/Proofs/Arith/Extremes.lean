import Backtest.Proofs.Arith.Line

namespace Backtest
namespace Arith

variable {α : Type} [Arith α] {a b x : α} {xs : List α}

/-- The first of two amounts, unless the second one beats it or it is undefined. -/
def prefer (beats : α → α → Prop) [DecidableRel beats] (a b : α) : α :=
  if beats a b then b else if a == a then a else b

theorem larger_eq_prefer (a b : α) : larger a b = prefer (· < ·) a b := rfl

theorem smaller_eq_prefer (a b : α) : smaller a b = prefer (fun a b => b < a) a b := rfl

section Prefer

variable {beats : α → α → Prop} [DecidableRel beats]

theorem prefer_eq_or (beats : α → α → Prop) [DecidableRel beats] (a b : α) :
    prefer beats a b = a ∨ prefer beats a b = b := by
  unfold prefer
  split
  next => exact .inr rfl
  next =>
    split
    next => exact .inl rfl
    next => exact .inr rfl

theorem prefer_of_beats (h : beats a b) : prefer beats a b = b := if_pos h

theorem prefer_of_undefined (h : ¬(a == a) = true) : prefer beats a b = b := by
  unfold prefer
  rw [if_neg h, ite_self]

theorem prefer_of_stays (defined : (a == a) = true) (h : ¬beats a b) : prefer beats a b = a := by
  unfold prefer
  rw [if_neg h, if_pos defined]

/-- Where defined amounts are ranked, and the higher one beats the lower, they are preferred in any
grouping. -/
theorem prefer_assoc {β : Type} [LinearOrder β] {rank : α → β}
    (ranked : ∀ a b, beats a b ↔ (a == a) = true ∧ (b == b) = true ∧ rank a < rank b) (a b c : α) :
    prefer beats a (prefer beats b c) = prefer beats (prefer beats a b) c := by
  by_cases ha : (a == a) = true
  swap
  · rw [prefer_of_undefined ha, prefer_of_undefined ha]
  by_cases hb : (b == b) = true
  swap
  · have stays : prefer beats a b = a := prefer_of_stays ha fun h => hb ((ranked a b).mp h).2.1
    rw [prefer_of_undefined hb, stays]
  by_cases hab : beats a b <;> by_cases hbc : beats b c
  · have hac : beats a c := by
      have below := ((ranked a b).mp hab).2.2.trans ((ranked b c).mp hbc).2.2
      exact (ranked a c).mpr ⟨ha, ((ranked b c).mp hbc).2.1, below⟩
    rw [prefer_of_beats hab, prefer_of_beats hbc, prefer_of_beats hac]
  · rw [prefer_of_stays hb hbc, prefer_of_beats hab, prefer_of_stays hb hbc]
  · rw [prefer_of_beats hbc, prefer_of_stays ha hab]
  · have hac : ¬beats a c := by
      rw [ranked] at hab hbc ⊢
      rintro ⟨-, hc, above⟩
      have low := not_lt.mp fun h => hab ⟨ha, hb, h⟩
      have low' := not_lt.mp fun h => hbc ⟨hb, hc, h⟩
      exact above.not_ge (low'.trans low)
    rw [prefer_of_stays hb hbc, prefer_of_stays ha hab, prefer_of_stays ha hac]

end Prefer

section Linear

variable [Linear α]

theorem larger_assoc (a b c : α) : larger a (larger b c) = larger (larger a b) c := by
  obtain ⟨place, order⟩ := Linear.exists_place (α := α)
  have ranked (a b : α) : a < b ↔ (a == a) = true ∧ (b == b) = true ∧ place a < place b := by
    rw [(order a b).1, Linear.beq_self_iff, Linear.beq_self_iff]
  exact prefer_assoc ranked a b c

theorem smaller_assoc (a b c : α) : smaller a (smaller b c) = smaller (smaller a b) c := by
  obtain ⟨place, order⟩ := Linear.exists_place (α := α)
  have ranked (a b : α) : b < a ↔ (a == a) = true ∧ (b == b) = true ∧
      OrderDual.toDual (place a) < OrderDual.toDual (place b) := by
    rw [(order b a).1, Linear.beq_self_iff, Linear.beq_self_iff, OrderDual.toDual_lt_toDual]
    exact and_left_comm
  exact prefer_assoc ranked a b c

end Linear

/-- One of some amounts that none of them exceeds; undefined ones give way to the others. -/
def IsMaximum (x : α) (xs : List α) : Prop := x ∈ xs ∧ ∀ y ∈ xs, y ≤ y → y ≤ x

def IsMinimum (x : α) (xs : List α) : Prop := x ∈ xs ∧ ∀ y ∈ xs, y ≤ y → x ≤ y

theorem isMaximum_singleton (x : α) : IsMaximum x [x] :=
  ⟨List.mem_singleton.mpr rfl, fun _ hy defined => List.mem_singleton.mp hy ▸ defined⟩

theorem isMinimum_singleton (x : α) : IsMinimum x [x] :=
  ⟨List.mem_singleton.mpr rfl, fun _ hy defined => List.mem_singleton.mp hy ▸ defined⟩

theorem prefer_mem {beats : α → α → Prop} [DecidableRel beats] (hx : x ∈ xs) (y : α) :
    prefer beats x y ∈ xs ++ [y] := by
  rcases prefer_eq_or beats x y with same | same
  · rw [same]
    exact List.mem_append_left _ hx
  · exact List.mem_append_right _ (List.mem_singleton.mpr same)

theorem IsMaximum.larger [Linear α] (h : IsMaximum x xs) (y : α) :
    IsMaximum (larger x y) (xs ++ [y]) := by
  refine ⟨larger_eq_prefer x y ▸ prefer_mem h.1 y, fun z hz defined => ?_⟩
  rcases List.mem_append.mp hz with hz | hz
  · have le := h.2 z hz defined
    exact Linear.le_trans le (Linear.le_larger_left (Linear.defined_of_le le).2)
  · obtain rfl := List.mem_singleton.mp hz
    exact Linear.le_larger_right defined

theorem IsMinimum.smaller [Linear α] (h : IsMinimum x xs) (y : α) :
    IsMinimum (smaller x y) (xs ++ [y]) := by
  refine ⟨smaller_eq_prefer x y ▸ prefer_mem h.1 y, fun z hz defined => ?_⟩
  rcases List.mem_append.mp hz with hz | hz
  · have le := h.2 z hz defined
    exact Linear.le_trans (Linear.smaller_le_left (Linear.defined_of_le le).1) le
  · obtain rfl := List.mem_singleton.mp hz
    exact Linear.smaller_le_right defined

end Arith
end Backtest
