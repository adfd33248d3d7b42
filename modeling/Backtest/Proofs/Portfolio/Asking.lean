import Backtest.Proofs.Instance.Hosting
import Backtest.Proofs.Portfolio.Passes

namespace Backtest
namespace Portfolio

section Pass

variable {α σ : Type} {f : EngineHost α σ → Statistics α → Nat → InstanceRun α σ →
  (EngineHost α σ × Statistics α × Nat × InstanceRun α σ) × Option (Fault α)}

/-- What holds of the host before a pass, and stays for each run, holds after it, also if a fault ends
the pass. -/
theorem eachRun_host {motive : EngineHost α σ → Prop} {p : Portfolio α σ} (first : motive p.host)
    (carry : ∀ {h s n}, ∀ r ∈ p.runs, motive h → motive (f h s n r).1.1) :
    motive (p.eachRun f).1.host := by
  have go : ∀ rest h s n done, (∀ r ∈ rest, r ∈ p.runs) → motive h →
      motive (eachRun.go f h s n done rest).1.host := by
    intro rest
    induction rest with
    | nil => exact fun h s n done _ before => before
    | cons r rest ih =>
      intro h s n done mem before
      have after := carry (s := s) (n := n) r (mem r List.mem_cons_self) before
      unfold eachRun.go
      split
      next hf =>
        rw [hf] at after
        exact ih _ _ _ _ (fun x hx => mem x (List.mem_cons_of_mem r hx)) after
      next hf =>
        rw [hf] at after
        exact after
  exact go p.runs p.host p.combined p.stepsTaken [] (fun _ hr => hr) first

def Planned (plans : List (InstancePlan α σ)) (p : Portfolio α σ) : Prop :=
  ∀ r ∈ p.runs, r.plan ∈ plans

/-- A pass that keeps the plan of each run keeps them all. -/
theorem Planned.eachRun {plans : List (InstancePlan α σ)} {p q : Portfolio α σ}
    (planned : Planned plans p) (keeps : ∀ h s n r, (f h s n r).1.2.2.2.plan = r.plan)
    (passed : p.eachRun f = (q, none)) : Planned plans q := by
  have kept := eachRun_induction
    (motive := fun done rest _ _ _ => ∀ r ∈ done ++ rest, r.plan ∈ plans) ?_ planned passed
  · rwa [List.append_nil] at kept
  · intro done r rest h s n h' s' n' r' before hf x hx
    have same := keeps h s n r
    rw [hf] at same
    rw [List.append_assoc, List.singleton_append] at hx
    rcases List.mem_append.mp hx with hx | hx
    · exact before x (List.mem_append_left _ hx)
    · rcases List.mem_cons.mp hx with rfl | hx
      · have old := before r (List.mem_append_right _ List.mem_cons_self)
        exact same ▸ old
      · exact before x (List.mem_append_right _ (List.mem_cons_of_mem r hx))

end Pass

section Asked

variable {α σ : Type} [Arith α] (c : RunScope α) (stop : StopPoint)

theorem stepAt_host (time : Option Int) (h : EngineHost α σ) (s : Statistics α) (n : Nat)
    (r : InstanceRun α σ) :
    (stepAt c stop time h s n r).1.1 = h ∨
      ∃ x : Snapshot α, r.plan.Labels x ∧ (stepAt c stop time h s n r).1.1 = (h.call x).1 := by
  have asked := InstanceRun.step_host c (stop.isReached n) h r
  unfold stepAt
  split
  next =>
    generalize r.step c (stop.isReached n) h = out at asked ⊢
    obtain ⟨h', r', fault⟩ := out
    cases fault with
    | none => exact asked
    | some f => exact asked
  next => exact .inl rfl

theorem stepAt_plan (time : Option Int) (h : EngineHost α σ) (s : Statistics α) (n : Nat)
    (r : InstanceRun α σ) : (stepAt c stop time h s n r).1.2.2.2.plan = r.plan := by
  have kept := InstanceRun.step_plan c (stop.isReached n) h r
  unfold stepAt
  split
  next =>
    generalize r.step c (stop.isReached n) h = out at kept ⊢
    obtain ⟨h', r', fault⟩ := out
    cases fault with
    | none => exact kept
    | some f => exact kept
  next => rfl

variable {plans : List (InstancePlan α σ)} {motive : EngineHost α σ → Prop} {p : Portfolio α σ}
  (call : ∀ (h : EngineHost α σ) (x : Snapshot α), ∀ s ∈ plans, s.Labels x → motive h →
    motive (h.call x).1)
include call

theorem eachRun_stepAt_host (time : Option Int) (planned : Planned plans p) (first : motive p.host) :
    motive (p.eachRun (stepAt c stop time)).1.host :=
  eachRun_host first fun {h s n} r hr before => by
    rcases stepAt_host c stop time h s n r with heq | ⟨x, labels, heq⟩
    · rwa [heq]
    · rw [heq]
      exact call h x r.plan (planned r hr) labels before

/-- What holds of the host before a lockstep, and stays when an engine is called, holds after it. -/
theorem lockstep_host (n : Nat) (planned : Planned plans p) (first : motive p.host) :
    motive (p.lockstep c stop n).1.host ∧
      ((p.lockstep c stop n).2 = none → Planned plans (p.lockstep c stop n).1) := by
  induction n generalizing p with
  | zero => exact ⟨first, fun _ => planned⟩
  | succ n ih =>
    unfold lockstep
    split
    next => exact ⟨first, fun _ => planned⟩
    next time htime =>
      dsimp only
      have passed := eachRun_stepAt_host c stop call (some time)
        (p := { p with combined := p.combined.noteTime time }) planned first
      split
      next hpass =>
        rw [hpass] at passed
        exact ⟨passed, fun ended => by cases ended⟩
      next hpass =>
        rw [hpass] at passed
        exact ih (Planned.eachRun (p := { p with combined := p.combined.noteTime time }) planned
          (stepAt_plan c stop (some time)) hpass) passed

/-- Up to the release at its end a run starts its instances, and then calls engines with the labels of
its plans. -/
theorem runAll_asks (planned : Planned plans p)
    (start : ∀ (h : EngineHost α σ) (request : EngineStart), ∀ r ∈ p.runs, motive h →
      motive (h.start r.plan.engine request).1)
    (first : motive p.host) : motive (p.runAll c stop).1.host := by
  have started : motive (p.start c).1.host := by
    refine eachRun_host first fun {h s n} r hr before => ?_
    change motive (r.start c h).1
    rcases r.start_host c h with heq | ⟨request, -, heq⟩
    · rwa [heq]
    · rw [heq]
      exact start h request r hr before
  unfold runAll
  split
  next hstart =>
    rw [hstart] at started
    exact started
  next p₁ hstart =>
    rw [hstart] at started
    have planned₁ : Planned plans p₁ :=
      planned.eachRun (fun h s n r => InstanceRun.start_plan c h r) hstart
    obtain ⟨locked, planned₂⟩ := lockstep_host c stop call (p₁.barsLeft + 1) planned₁ started
    split
    next hlock =>
      rw [hlock] at locked
      exact locked
    next hlock =>
      rw [hlock] at locked planned₂
      exact eachRun_stepAt_host c stop call none (planned₂ rfl) locked

end Asked

end Portfolio
end Backtest
