import Backtest.Proofs.Engine.Sessions
import Backtest.Proofs.Instance.Bar
import Backtest.Proofs.Instance.Ledgers

namespace Backtest

def InstancePlan.recorded {α σ : Type} (s : InstancePlan α σ) : InstancePlan α (σ × CallLog α σ) :=
  { s with engine := s.engine.recorded }

/-- A snapshot has the id and the slots of a plan. -/
def InstancePlan.Labels {α σ : Type} (s : InstancePlan α σ) (x : Snapshot α) : Prop :=
  x.instanceId = s.instanceId ∧ x.settings = s.settings

namespace InstanceRun

variable {α σ : Type} [Arith α]

/-- A start of a run asks its host for a start in the run's engine, if for anything. -/
theorem start_host (c : RunScope α) (h : EngineHost α σ) (r : InstanceRun α σ) :
    (r.start c h).1 = h ∨ ∃ request : EngineStart, request.instanceId = r.instanceId ∧
      (r.start c h).1 = (h.start r.plan.engine request).1 := by
  unfold start
  split
  next => exact .inl rfl
  next =>
    dsimp only
    generalize hrequest : EngineStart.mk .. = request
    have hid : request.instanceId = r.instanceId := by rw [← hrequest]
    refine .inr ⟨request, hid, ?_⟩
    split
    next hstart => rw [hstart]
    next hstart => rw [hstart]

theorem consult_host (c : RunScope α) (h : EngineHost α σ) (r : InstanceRun α σ) (q : Quote α)
    (bar : Bar α) :
    (r.consult c h q bar).1 = h ∨ ∃ x : Snapshot α, r.plan.Labels x ∧
      (r.consult c h q bar).1 = (h.call x).1 := by
  unfold consult
  split
  next =>
    refine .inr ⟨r.snapshot c q bar, ⟨rfl, rfl⟩, ?_⟩
    split
    next hcall => rw [hcall]
    next hcall =>
      rw [hcall]
      dsimp only
      split <;> rfl
  next => exact .inl rfl

/-- A step of a run asks its host for a call with the labels of its plan, if for anything. -/
theorem step_host (c : RunScope α) (stopped : Bool) (h : EngineHost α σ) (r : InstanceRun α σ) :
    (r.step c stopped h).1 = h ∨ ∃ x : Snapshot α, r.plan.Labels x ∧
      (r.step c stopped h).1 = (h.call x).1 := by
  rcases step_cases c stopped h r with
    ⟨-, heq⟩ | ⟨-, -, heq⟩ | ⟨-, -, -, heq⟩ | ⟨bar, -, -, -, heq⟩
  · exact .inl (by rw [heq])
  · exact .inl (by rw [heq])
  · exact .inl (by rw [heq])
  · have asked : (r.step c stopped h).1 = (ask c h { r with stepEvents := [] } bar).1 := by
      rw [heq]
      rcases takeBar_cases c h { r with stepEvents := [] } bar with ⟨f, -, hbar⟩ | ⟨-, -, hbar⟩
      all_goals rw [hbar]
    rw [asked]
    exact consult_host c h _ _ bar

def refused (r : InstanceRun α σ) : InstanceRun α σ :=
  { r with
    state := .aborted
    failure := some (Fault.duplicateInstance r.instanceId : Fault α).message }

/-- A start of an instance that is live is refused, and nothing is asked of an engine. -/
theorem start_of_live {c : RunScope α} {h : EngineHost α σ} {r : InstanceRun α σ}
    (fresh : r.state = .notStarted) (live : h.isLive r.instanceId = true) :
    r.start c h = (h, r.refused, some (.duplicateInstance r.instanceId)) := by
  unfold start
  rw [if_neg (not_not_intro fresh)]
  dsimp only
  rw [EngineHost.start_of_live live]
  rfl

/-- A whole run of an instance that is live already is refused as well. It makes no start and no call,
but it ends with a release: the engine is told to let go of the live instance, which stays unknown from
then on. Other instances are left alone. -/
theorem run_of_live {c : RunScope α} {stop : StopPoint} {h : EngineHost α (σ × CallLog α σ)}
    {r : InstanceRun α (σ × CallLog α σ)} {e : Engine α σ} (fresh : r.state = .notStarted)
    (live : h.engine? r.instanceId = some e.recorded) :
    r.start c h = (h, r.refused, some (.duplicateInstance r.instanceId)) ∧
    r.run c stop h =
      (h.release r.instanceId, r.refused, some (.duplicateInstance r.instanceId)) ∧
    (h.release r.instanceId).world.2 = h.world.2 ++ [(e, .release r.instanceId)] ∧
    (∀ id, (h.release r.instanceId).engine? id =
      if id = r.instanceId then none else h.engine? id) := by
  have isLive : h.isLive r.instanceId = true := by
    rw [EngineHost.isLive, live]
    rfl
  have refused := start_of_live (c := c) fresh isLive
  refine ⟨refused, ?_, ?_, fun id => EngineHost.release_engine? id⟩
  · unfold run
    rw [refused]
    rfl
  · unfold EngineHost.release
    rw [live]
    rfl

section Sample

def occupiedHost : EngineHost Float (ScriptLog Float × CallLog Float (ScriptLog Float)) :=
  ((ofPlan sampleScope (samplePlan []).recorded).start sampleScope (.empty (Script.log 0, []) 0)).1

/-- A run that is refused because instance 1 is live lets go of it: instance 1 is not live any more, its
engine was told so, and no call about it is answered. -/
theorem refused_run_releases :
    let r := ofPlan sampleScope (samplePlan []).recorded
    let (host, _, fault) := r.run sampleScope none occupiedHost
    occupiedHost.isLive 1 = true ∧ occupiedHost.world.1.releases = #[] ∧
      fault.map Fault.message = some "instance 1 is already initialized" ∧
      host.isLive 1 = false ∧ host.world.1.releases = #[1] ∧
      ∀ x : Snapshot Float, x.instanceId = 1 → (host.call x).2.isOk = false := by
  refine ⟨by decide +kernel, by decide +kernel, by decide +kernel, by decide +kernel,
    by decide +kernel, fun x hx => ?_⟩
  rw [EngineHost.call_isOk, hx]
  decide +kernel

theorem refused_run_of_occupiedHost :
    let r := ofPlan sampleScope (samplePlan []).recorded
    (r.run sampleScope none occupiedHost).2.2 = some (.duplicateInstance 1) ∧
      (r.run sampleScope none occupiedHost).1.world.2.map (fun c => c.2.instanceId) = [1, 1] := by
  intro r
  have live : occupiedHost.engine? r.instanceId = some (samplePlan []).engine.recorded := rfl
  obtain ⟨-, refused, log, -⟩ :=
    @run_of_live _ _ _ sampleScope none occupiedHost r _ rfl live
  rw [refused]
  refine ⟨rfl, ?_⟩
  rw [log]
  rfl

end Sample

end InstanceRun
end Backtest
