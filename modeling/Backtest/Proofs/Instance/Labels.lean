import Backtest.Instance.Candidate
import Backtest.Proofs.Instance.Calls

namespace Backtest

variable {α σ : Type}

/-- All engines of a host write their calls down, and all that was shown so far is as described. -/
structure EngineHost.Shows (P : Snapshot α → Prop) (h : EngineHost α (σ × CallLog α σ)) : Prop where
  recorded : ∀ entry ∈ h.live, ∃ e : Engine α σ, entry.2 = e.recorded
  shown : ∀ x ∈ CallLog.shown h.world.2, P x

namespace EngineHost.Shows

variable {P : Snapshot α → Prop} {h : EngineHost α (σ × CallLog α σ)}

theorem empty (P : Snapshot α → Prop) (world : σ) (retries : Nat) :
    Shows P (EngineHost.empty (world, ([] : CallLog α σ)) retries) :=
  ⟨fun _ hentry => absurd hentry List.not_mem_nil, fun _ hx => absurd hx List.not_mem_nil⟩

theorem start (s : Shows P h) (e : Engine α σ) (r : EngineStart) : Shows P (h.start e.recorded r).1 where
  recorded := by
    unfold EngineHost.start
    split
    next => exact s.recorded
    next =>
      dsimp only
      split
      next =>
        intro entry hentry
        rcases List.mem_cons.mp hentry with rfl | hentry
        · exact ⟨e, rfl⟩
        · exact s.recorded entry hentry
      next => exact s.recorded
  shown := by
    rw [EngineHost.start_shown]
    exact s.shown

theorem call (s : Shows P h) {x : Snapshot α} (hx : P x) : Shows P (h.call x).1 where
  recorded := by
    rw [call_live]
    exact s.recorded
  shown := by
    unfold EngineHost.call
    split
    next => exact s.shown
    next e he =>
      obtain ⟨e₀, rfl⟩ := s.recorded _ (Market.mem_of_lookup he)
      intro y hy
      change y ∈ CallLog.shown (h.world.2 ++ [(e₀, .bar x)]) at hy
      rw [CallLog.shown_append] at hy
      rcases List.mem_append.mp hy with hy | hy
      · exact s.shown y hy
      · rwa [List.mem_singleton.mp hy]

theorem release (s : Shows P h) (id : Int) : Shows P (h.release id) where
  recorded := by
    rw [release_live]
    exact fun entry hentry => s.recorded entry (List.mem_filter.mp hentry).1
  shown := by
    unfold EngineHost.release
    split
    next => exact s.shown
    next e he =>
      obtain ⟨e₀, rfl⟩ := s.recorded _ (Market.mem_of_lookup he)
      intro y hy
      change y ∈ CallLog.shown (h.world.2 ++ [(e₀, .release id)]) at hy
      rw [CallLog.shown_append] at hy
      exact (List.mem_append.mp hy).elim (s.shown y) fun none => absurd none List.not_mem_nil

theorem releaseAll (s : Shows P h) : Shows P h.releaseAll := by
  unfold EngineHost.releaseAll
  generalize h.live.map (·.1) = ids
  induction ids generalizing h with
  | nil => exact s
  | cons id ids ih => exact ih (s.release id)

end EngineHost.Shows

variable [Arith α]

/-- A whole run of a plan shows its id and its slots. -/
theorem InstanceRun.run_shows {P : Snapshot α → Prop} (c : RunScope α) (stop : StopPoint)
    {h : EngineHost α (σ × CallLog α σ)} (p : InstancePlan α σ) (labels : ∀ x, p.Labels x → P x)
    (s : h.Shows P) : ((ofPlan c p.recorded).run c stop h).1.Shows P := by
  let bars := (ofPlan c p.recorded).barsLeft
  have played : ((ofPlan c p.recorded).play c stop (bars + 1) h).2.1.plan = p.recorded ∧
      ((ofPlan c p.recorded).play c stop (bars + 1) h).1.Shows P :=
    play_induction (P := fun h r => r.plan = p.recorded ∧ h.Shows P) ?_ ?_ (bars + 1)
  · rw [run_eq_play]
    exact played.2.release _
  · refine ⟨start_plan c h _, ?_⟩
    rcases start_host c h (ofPlan c p.recorded) with heq | ⟨request, -, heq⟩
    · rwa [heq]
    · rw [heq]
      exact s.start p.engine request
  · rintro h r ⟨plan, s⟩ -
    refine ⟨(step_plan c _ h r).trans plan, ?_⟩
    rcases step_host c (stop.isReached r.cursor) h r with heq | ⟨x, shown, heq⟩
    · rwa [heq]
    · rw [heq]
      rw [plan] at shown
      exact s.call (labels x shown)

end Backtest
