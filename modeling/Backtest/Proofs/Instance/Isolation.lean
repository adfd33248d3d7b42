import Backtest.Proofs.Engine.Isolation
import Backtest.Proofs.Instance.Progress

namespace Backtest
namespace InstanceRun

open EngineHost (Mirrors)

variable {α σ : Type} [Arith α] {served : List (Int × Engine α σ)} {world : σ}
  {h₁ h₂ : EngineHost α σ} {r : InstanceRun α σ} {c : RunScope α}

theorem start_mirrors (isolated : Isolated served world)
    (hr : (r.instanceId, r.plan.engine) ∈ served) (mirrors : Mirrors served world r.instanceId h₁ h₂) :
    (r.start c h₁).2 = (r.start c h₂).2 ∧
      Mirrors served world r.instanceId (r.start c h₁).1 (r.start c h₂).1 := by
  unfold start
  split
  next => exact ⟨rfl, mirrors⟩
  next =>
    dsimp only
    generalize hrequest : EngineStart.mk .. = request
    have hid : request.instanceId = r.instanceId := by rw [← hrequest]
    obtain ⟨hfault, same⟩ := mirrors.start isolated (e := r.plan.engine) hid (hid ▸ hr)
    generalize h₁.start r.plan.engine request = x at hfault same ⊢
    generalize h₂.start r.plan.engine request = y at hfault same ⊢
    obtain ⟨h₁', fault₁⟩ := x
    obtain ⟨h₂', fault₂⟩ := y
    cases hfault
    cases fault₁ with
    | none => exact ⟨rfl, same⟩
    | some f => exact ⟨rfl, same⟩

theorem start_mirrors_other {id : Int} (hid : r.instanceId ≠ id)
    (hr : (r.instanceId, r.plan.engine) ∈ served) (mirrors : Mirrors served world id h₁ h₂) :
    Mirrors served world id (r.start c h₁).1 h₂ := by
  unfold start
  split
  next => exact mirrors
  next =>
    dsimp only
    generalize hrequest : EngineStart.mk .. = request
    have hid' : request.instanceId = r.instanceId := by rw [← hrequest]
    have same := mirrors.start_other (e := r.plan.engine) (hid' ▸ hid) (hid' ▸ hr)
    split
    all_goals next hstart =>
      rw [hstart] at same
      exact same

theorem start_engine?_other {id : Int} (hid : r.instanceId ≠ id) (h : EngineHost α σ) :
    (r.start c h).1.engine? id = h.engine? id := by
  unfold start
  split
  next => rfl
  next =>
    dsimp only
    generalize hrequest : EngineStart.mk .. = request
    have hid' : request.instanceId = r.instanceId := by rw [← hrequest]
    have hengine := EngineHost.start_engine?_other (h := h) (e := r.plan.engine) (hid' ▸ hid)
    split
    all_goals next hstart =>
      rw [hstart] at hengine
      exact hengine

theorem consult_mirrors (isolated : Isolated served world)
    (hr : ∀ e, h₁.engine? r.instanceId = some e → (r.instanceId, e) ∈ served)
    (mirrors : Mirrors served world r.instanceId h₁ h₂) (q : Quote α) (bar : Bar α) :
    (r.consult c h₁ q bar).2 = (r.consult c h₂ q bar).2 ∧
      Mirrors served world r.instanceId (r.consult c h₁ q bar).1 (r.consult c h₂ q bar).1 := by
  obtain ⟨hanswer, same⟩ := mirrors.call isolated (x := r.snapshot c q bar) rfl hr
  unfold consult
  split
  next =>
    generalize h₁.call (r.snapshot c q bar) = x at hanswer same ⊢
    generalize h₂.call (r.snapshot c q bar) = y at hanswer same ⊢
    obtain ⟨h₁', answer₁⟩ := x
    obtain ⟨h₂', answer₂⟩ := y
    cases hanswer
    cases answer₁ with
    | error f => exact ⟨rfl, same⟩
    | ok answer =>
      dsimp only
      split
      all_goals exact ⟨rfl, same⟩
  next => exact ⟨rfl, mirrors⟩

theorem consult_mirrors_other {id : Int} (hid : r.instanceId ≠ id)
    (hr : ∀ e, h₁.engine? r.instanceId = some e → (r.instanceId, e) ∈ served)
    (mirrors : Mirrors served world id h₁ h₂) (q : Quote α) (bar : Bar α) :
    Mirrors served world id (r.consult c h₁ q bar).1 h₂ := by
  have same := mirrors.call_other (x := r.snapshot c q bar) hid hr
  unfold consult
  split
  next =>
    split
    next hcall =>
      rw [hcall] at same
      exact same
    next hcall =>
      rw [hcall] at same
      dsimp only
      split
      all_goals exact same
  next => exact mirrors

theorem takeBar_mirrors (isolated : Isolated served world)
    (hr : ∀ e, h₁.engine? r.instanceId = some e → (r.instanceId, e) ∈ served)
    (mirrors : Mirrors served world r.instanceId h₁ h₂) (bar : Bar α) :
    (r.takeBar c h₁ bar).2 = (r.takeBar c h₂ bar).2 ∧
      Mirrors served world r.instanceId (r.takeBar c h₁ bar).1 (r.takeBar c h₂ bar).1 := by
  have asked := consult_mirrors (r := (r.settleBar bar).1) (c := c) isolated hr mirrors
    (r.settleBar bar).2 bar
  change (r.ask c h₁ bar).2 = (r.ask c h₂ bar).2 ∧
    Mirrors served world r.instanceId (r.ask c h₁ bar).1 (r.ask c h₂ bar).1 at asked
  obtain ⟨hout, same⟩ := asked
  rw [takeBar_eq, takeBar_eq]
  generalize r.ask c h₁ bar = x at hout same ⊢
  generalize r.ask c h₂ bar = y at hout same ⊢
  obtain ⟨h₁', r₁, fault₁⟩ := x
  obtain ⟨h₂', r₂, fault₂⟩ := y
  cases hout
  cases fault₁ with
  | some f => exact ⟨rfl, same⟩
  | none =>
    dsimp only
    split
    all_goals exact ⟨rfl, same⟩

theorem takeBar_mirrors_other {id : Int} (hid : r.instanceId ≠ id)
    (hr : ∀ e, h₁.engine? r.instanceId = some e → (r.instanceId, e) ∈ served)
    (mirrors : Mirrors served world id h₁ h₂) (bar : Bar α) :
    Mirrors served world id (r.takeBar c h₁ bar).1 h₂ := by
  have asked := consult_mirrors_other (r := (r.settleBar bar).1) (c := c) hid hr mirrors
    (r.settleBar bar).2 bar
  rcases takeBar_cases c h₁ r bar with ⟨f, -, heq⟩ | ⟨-, -, heq⟩
  all_goals
    rw [heq]
    exact asked

theorem step_mirrors (isolated : Isolated served world)
    (hr : ∀ e, h₁.engine? r.instanceId = some e → (r.instanceId, e) ∈ served)
    (mirrors : Mirrors served world r.instanceId h₁ h₂) (stopped : Bool) :
    (r.step c stopped h₁).2 = (r.step c stopped h₂).2 ∧
      Mirrors served world r.instanceId (r.step c stopped h₁).1 (r.step c stopped h₂).1 := by
  unfold step
  dsimp only
  split
  next => exact ⟨rfl, mirrors⟩
  next =>
    split
    next => exact ⟨rfl, mirrors⟩
    next =>
      split
      next => exact ⟨rfl, mirrors⟩
      next bar _ => exact takeBar_mirrors (r := { r with stepEvents := [] }) isolated hr mirrors bar

theorem step_mirrors_other {id : Int} (hid : r.instanceId ≠ id)
    (hr : ∀ e, h₁.engine? r.instanceId = some e → (r.instanceId, e) ∈ served)
    (mirrors : Mirrors served world id h₁ h₂) (stopped : Bool) :
    Mirrors served world id (r.step c stopped h₁).1 h₂ := by
  rcases step_cases c stopped h₁ r with
    ⟨-, heq⟩ | ⟨-, -, heq⟩ | ⟨-, -, -, heq⟩ | ⟨bar, -, -, -, heq⟩
  · rw [heq]
    exact mirrors
  · rw [heq]
    exact mirrors
  · rw [heq]
    exact mirrors
  · rw [heq]
    exact takeBar_mirrors_other (r := { r with stepEvents := [] }) hid hr mirrors bar

theorem step_live (stopped : Bool) (h : EngineHost α σ) : (r.step c stopped h).1.live = h.live := by
  rcases step_cases c stopped h r with
    ⟨-, heq⟩ | ⟨-, -, heq⟩ | ⟨-, -, -, heq⟩ | ⟨bar, -, -, -, heq⟩
  · rw [heq]
  · rw [heq]
  · rw [heq]
  · rw [heq]
    have asked := ask_live c h { r with stepEvents := [] } bar
    rcases takeBar_cases c h { r with stepEvents := [] } bar with ⟨f, -, hbar⟩ | ⟨-, -, hbar⟩
    all_goals
      rw [hbar]
      exact asked

end InstanceRun
end Backtest
