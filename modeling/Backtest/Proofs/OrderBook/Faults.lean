import Backtest.OrderBook.Valuation
import Backtest.Proofs.History.Increasing
import Backtest.Proofs.OrderBook.Operation

namespace Backtest

namespace Fault

variable {α : Type}

/-- A fault that reaches beyond an instance: its limit of orders is reached, or an invariant is broken. -/
def HandedOn (id : Int) (limit : Nat) (f : Fault α) : Prop :=
  f = .tooManyOrders id limit ∨ f.category = .invariant

theorem isFatal_of_invariant {f : Fault α} (broken : f.category = .invariant) : f.isFatal = true := by
  unfold isFatal
  rw [broken]
  rfl

theorem HandedOn.isFatal {id : Int} {limit : Nat} {f : Fault α} (h : f.HandedOn id limit) :
    f.isFatal = true := by
  rcases h with rfl | broken
  · rfl
  · exact isFatal_of_invariant broken

theorem HandedOn.of_isConfig {id : Int} {limit : Nat} {f : Fault α} (h : f.HandedOn id limit)
    (config : f.isConfig = true) : f = .tooManyOrders id limit := by
  refine h.resolve_right fun broken => ?_
  unfold isConfig at config
  rw [broken] at config
  cases config

end Fault

namespace OrderBook

variable {α : Type}

theorem addressedBy_category {b : OrderBook α} {kind : OrderKind} {ticket : Int} {f : Fault α}
    (h : b.addressedBy kind ticket = .error f) : f.category = .invariant := by
  unfold addressedBy at h
  dsimp only at h
  split at h
  next =>
    cases h
    rfl
  next => cases h

variable [Arith α]

theorem act_handedOn {b : OrderBook α} {q : Quote α} {a : Action α} {f : Fault α}
    (h : b.act q a = .error f) : f.HandedOn b.instanceId b.orderLimit := by
  cases a with
  | place kind r =>
    have placed := map_eq_error.mp h
    unfold place at placed
    dsimp only at placed
    split at placed
    next => cases placed
    next =>
      split at placed
      next =>
        cases placed
        exact .inl rfl
      next => split at placed <;> cases placed
  | close kind ticket =>
    rcases bind_eq_error.mp h with h | ⟨found, -, h⟩
    · exact .inr (addressedBy_category h)
    · cases h
  | update kind ticket r =>
    rcases bind_eq_error.mp h with h | ⟨found, -, h⟩
    · exact .inr (addressedBy_category h)
    · cases h

theorem Change.instanceId {b b' : OrderBook α} (c : Change b b') : b'.instanceId = b.instanceId := by
  cases c with
  | settle price q event ho hk ht he =>
    rw [settle_eq b ht]
    rfl
  | _ => rfl

theorem Changes.instanceId {b b' : OrderBook α} (c : Changes b b') : b'.instanceId = b.instanceId := by
  induction c with
  | refl => rfl
  | tail _ step ih => exact step.instanceId.trans ih

/-- What goes wrong with an answer's records ends more than the instance. -/
theorem actAll_handedOn {b : OrderBook α} (ascends : b.Ascends) {q : Quote α}
    {actions : List (Action α)} {f : Fault α} (h : (b.actAll q actions).2 = some f) :
    f.HandedOn b.instanceId b.orderLimit := by
  induction actions generalizing b with
  | nil => cases h
  | cons a rest ih =>
    unfold actAll at h
    split at h
    next b' done =>
      have changes := act_changes ascends done
      rw [← changes.instanceId, ← changes.sameTerms.orderLimit]
      exact ih (changes.ascends ascends) h
    next g failed =>
      cases h
      exact act_handedOn failed

theorem ledgerFault?_category {b : OrderBook α} {f : Fault α} (h : b.ledgerFault? = some f) :
    f.category = .invariant := by
  unfold ledgerFault? at h
  dsimp only at h
  split at h
  next =>
    cases h
    rfl
  next => cases h

end OrderBook
end Backtest
