import Backtest.Proofs.Arith.Exact
import Backtest.Proofs.Binary64.Value

namespace Backtest
namespace Arith

/-- Arithmetic whose finite amounts have their places on the number line, and their negatives as well. -/
class Ordered (α : Type) [Arith α] : Prop where
  exists_place : ∃ place : α → ℝ, ∀ a b : α, isFinite a = true → isFinite b = true →
    (a < b ↔ place a < place b)
  isFinite_neg (a : α) : isFinite a = true → isFinite (-a) = true

instance {α : Type} [Arith α] [Exact α] : Ordered α where
  exists_place := ⟨Exact.value, fun a b _ _ => Exact.lt_iff a b⟩
  isFinite_neg a _ := Exact.isFinite_eq (-a)

instance : Ordered Float where
  exists_place :=
    ⟨fun x => Binary64.value x, fun _ _ ha hb => (Binary64.lt_iff ha hb).trans Rat.cast_lt.symm⟩
  isFinite_neg _ := Binary64.isFinite_neg

/-- Ordered arithmetic in which a finite amount equals itself, and negation turns the order round. -/
class Signed (α : Type) [Arith α] : Prop extends Ordered α where
  beq_self (a : α) : isFinite a = true → (a == a) = true
  neg_lt_neg_iff (a b : α) : isFinite a = true → isFinite b = true → (-a < -b ↔ b < a)

instance {α : Type} [Arith α] [Exact α] : Signed α where
  beq_self a _ := (Exact.beq_iff a a).mpr rfl
  neg_lt_neg_iff a b _ _ := by
    rw [Exact.lt_iff, Exact.lt_iff, Exact.value_neg, Exact.value_neg, neg_lt_neg_iff]

instance : Signed Float where
  beq_self _ := Binary64.beq_self
  neg_lt_neg_iff _ _ ha hb := by
    rw [Binary64.lt_iff (Binary64.isFinite_neg ha) (Binary64.isFinite_neg hb), Binary64.lt_iff hb ha,
      Binary64.value_neg ha, Binary64.value_neg hb, neg_lt_neg_iff]

section Finite

variable {α : Type} [Arith α] [Ordered α] {a b c : α}

theorem lt_asymm_of_isFinite (ha : isFinite a = true) (hb : isFinite b = true) (h : a < b) :
    ¬b < a := by
  obtain ⟨place, lt⟩ := Ordered.exists_place (α := α)
  rw [lt b a hb ha]
  exact lt_asymm ((lt a b ha hb).mp h)

theorem lt_or_lt_of_isFinite (ha : isFinite a = true) (hb : isFinite b = true)
    (hc : isFinite c = true) (h : a < c) : a < b ∨ b < c := by
  obtain ⟨place, lt⟩ := Ordered.exists_place (α := α)
  rw [lt a b ha hb, lt b c hb hc]
  exact (lt_or_ge _ _).imp_right fun hab => hab.trans_lt ((lt a c ha hc).mp h)

end Finite

end Arith
end Backtest
