import Mathlib.Data.List.Forall2
import Backtest.Proofs.History.Increasing
import Backtest.Tester.Basic

namespace Backtest

variable {α σ β : Type}

theorem RunFault.plain_eq_ok {x : Except (Fault α) β} {b : β} :
    RunFault.plain x = .ok b ↔ x = .ok b := by
  cases x with
  | error f => simp [RunFault.plain, Except.mapError]
  | ok b' => simp [RunFault.plain, Except.mapError]

theorem RunFault.plain_eq_error {x : Except (Fault α) β} {e : RunFault α} :
    RunFault.plain x = .error e ↔ ∃ f, x = .error f ∧ e = .fault none f := by
  cases x with
  | error f => simp [RunFault.plain, Except.mapError, eq_comm]
  | ok b => simp [RunFault.plain, Except.mapError]

theorem RunFault.during_eq_error {x : Except (Fault α) β} {activity : String} {e : RunFault α} :
    RunFault.during activity x = .error e ↔ ∃ f, x = .error f ∧ e = .fault (some activity) f := by
  cases x with
  | error f => simp [RunFault.during, Except.mapError, eq_comm]
  | ok b => simp [RunFault.during, Except.mapError]

theorem RunFault.during_eq_ok {x : Except (Fault α) β} {activity : String} {b : β} :
    RunFault.during activity x = .ok b ↔ x = .ok b := by
  cases x with
  | error f => simp [RunFault.during, Except.mapError]
  | ok b' => simp [RunFault.during, Except.mapError]

namespace Tester

variable [Arith α] {common : CommonConfig α} {engines : EngineLoader α σ} {m : Market α}
  {s : SystemConfig α} {systems : List (SystemConfig α)}

def viewFor (common : CommonConfig α) (m : Market α) (s : SystemConfig α) :
    Market α × Except (Fault α) (MarketView α) :=
  m.buildView s.symbol s.timeframe s.requirements s.account.digits common.accountCurrency

theorem plan_eq_ok {e : Engine α σ} {y : InstancePlan α σ} (made : (plan common e m s).2 = .ok y) :
    ∃ rates settings, (viewFor common m s).2 = .ok rates ∧ s.slots common = .ok settings ∧
      y = ⟨s.instanceId, e, s.engineConfig, settings, s.account, rates⟩ := by
  obtain ⟨rates, hrates, made⟩ := bind_eq_ok.mp made
  obtain ⟨settings, hsettings, made⟩ := bind_eq_ok.mp made
  cases made
  exact ⟨rates, settings, hrates, hsettings, rfl⟩

theorem plan_eq_error {e : Engine α σ} {f : Fault α} (failed : (plan common e m s).2 = .error f) :
    (viewFor common m s).2 = .error f ∨ s.slots common = .error f := by
  rcases bind_eq_error.mp failed with failed | ⟨rates, -, failed⟩
  · exact .inl failed
  · rcases bind_eq_error.mp failed with failed | ⟨settings, -, failed⟩
    · exact .inr failed
    · cases failed

theorem planAll_cons {e : Engine α σ} (found : engines s.enginePath = some e) :
    planAll common engines m (s :: systems) = (do
      let first ← RunFault.plain (plan common e m s).2
      return first :: (← planAll common engines (plan common e m s).1 systems)) := by
  rw [planAll, found]

/-- The plan of a configured instance: its id and its slots, and the engine found for it. -/
def Realises (common : CommonConfig α) (engines : EngineLoader α σ) (s : SystemConfig α)
    (y : InstancePlan α σ) : Prop :=
  engines s.enginePath = some y.engine ∧ y.instanceId = s.instanceId ∧ s.slots common = .ok y.settings

theorem planAll_realises {plans : List (InstancePlan α σ)}
    (made : planAll common engines m systems = .ok plans) :
    List.Forall₂ (Realises common engines) systems plans := by
  induction systems generalizing m plans with
  | nil =>
    cases made
    exact .nil
  | cons s systems ih =>
    cases found : engines s.enginePath with
    | none =>
      rw [planAll, found] at made
      cases made
    | some e =>
      rw [planAll_cons found] at made
      obtain ⟨first, hfirst, made⟩ := bind_eq_ok.mp made
      obtain ⟨rest, hrest, made⟩ := bind_eq_ok.mp made
      cases made
      obtain ⟨rates, settings, -, hsettings, rfl⟩ := plan_eq_ok (RunFault.plain_eq_ok.mp hfirst)
      exact .cons ⟨found, rfl, hsettings⟩ (ih hrest)

/-- What keeps an instance from being planned: its engine is not there, or it cannot be set up on the
market as the instances before it left it. -/
theorem planAll_error {P : Market α → Prop} (kept : ∀ m s, P m → P (viewFor common m s).1) (hm : P m)
    {error : RunFault α} (failed : planAll common engines m systems = .error error) :
    ∃ s ∈ systems, (engines s.enginePath = none ∧
        error = .fault (some ("Failed to load strategy framework " ++ s.enginePath)) .library) ∨
      ∃ m' f, P m' ∧ error = .fault none f ∧
        ((viewFor common m' s).2 = .error f ∨ s.slots common = .error f) := by
  induction systems generalizing m with
  | nil => cases failed
  | cons s systems ih =>
    cases found : engines s.enginePath with
    | none =>
      rw [planAll, found] at failed
      cases failed
      exact ⟨s, List.mem_cons_self, .inl ⟨found, rfl⟩⟩
    | some e =>
      rw [planAll_cons found] at failed
      rcases bind_eq_error.mp failed with failed | ⟨first, -, failed⟩
      · obtain ⟨f, unplanned, rfl⟩ := RunFault.plain_eq_error.mp failed
        exact ⟨s, List.mem_cons_self, .inr ⟨m, f, hm, rfl, plan_eq_error unplanned⟩⟩
      · rcases bind_eq_error.mp failed with failed | ⟨rest, -, failed⟩
        · obtain ⟨s', hs', why⟩ := ih (kept m s hm) failed
          exact ⟨s', List.mem_cons_of_mem s hs', why⟩
        · cases failed

end Tester
end Backtest
