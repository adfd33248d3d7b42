import Backtest.Proofs.Portfolio.Asking

namespace Backtest

open EngineHost (InSessions)

namespace Portfolio

/-- Up to the release at its end a run starts each of its instances once, and then calls engines. -/
theorem runAll_host {α σ : Type} [Arith α] (c : RunScope α) (stop : StopPoint)
    {motive : EngineHost α σ → Prop} {p : Portfolio α σ}
    (start : ∀ (h : EngineHost α σ) (request : EngineStart), ∀ r ∈ p.runs, motive h →
      motive (h.start r.plan.engine request).1)
    (call : ∀ (h : EngineHost α σ) (x : Snapshot α), motive h → motive (h.call x).1)
    (first : motive p.host) : motive (p.runAll c stop).1.host :=
  runAll_asks c stop (fun h x _ _ _ => call h x) (fun _ hr => List.mem_map_of_mem hr) start first

/-- Whatever is asked of a host that starts out idle, the calls about each instance are sessions at one
engine each, of which the last is open as long as the instance is live. An instance that is not live is
neither called nor released, one that is live is not started again, and a start asks its engine once, and
again as long as it answers to wait and a retry is left. Hence a portfolio run on an idle host lets go
once of each instance that an engine took on, in whatever way it ends, and leaves none live. -/
theorem engine_lifecycle {α σ : Type} [Arith α] :
    (∀ (world : σ) (retries : Nat) (acts : List (HostAct α σ)),
      let h := (EngineHost.empty (world, []) retries).actAll acts
      (∀ id, ∃ e? : Option (Engine α σ), h.engine? id = e?.map Engine.recorded ∧
        Sessions e? (CallLog.about id h.world.2)) ∧
      (∀ x : Snapshot α, h.isLive x.instanceId = false →
        h.call x = (h, .error (.unknownInstance x.instanceId))) ∧
      (∀ id, h.isLive id = false → h.release id = h) ∧
      (∀ (e : Engine α σ) (r : EngineStart), h.isLive r.instanceId = true →
        h.start e.recorded r = (h, some (.duplicateInstance r.instanceId))) ∧
      ∀ (e : Engine α σ) (r : EngineStart), h.isLive r.instanceId = false →
        ∃ waits last, waits ≤ retries ∧ (last = EngineCode.waitForInit.toInt → waits = retries) ∧
          (h.start e.recorded r).1.world.2 = h.world.2 ++ CallLog.starts e r
            (List.replicate waits EngineCode.waitForInit.toInt ++ [last]) ∧
          (h.start e.recorded r).2 =
            if last = EngineCode.success.toInt then none else some (.initFailed r.instanceId last)) ∧
    ∀ (c : RunScope α) (stop : StopPoint) (p : Portfolio α (σ × CallLog α σ)), p.host.live = [] →
      (∀ r ∈ p.runs, ∃ e : Engine α σ, r.plan.engine = e.recorded) →
      (p.run c stop).1.host.live = [] ∧
      ∃ calls : CallLog α σ, (p.run c stop).1.host.world.2 = p.host.world.2 ++ calls ∧
        ∀ id, Sessions none (calls.about id) ∧ calls.closed id = calls.opened id ∧
          calls.opened id ≤ 1 := by
  refine ⟨fun world retries acts => ?_, fun c stop p idle recorded => ?_⟩
  · have budget : ((EngineHost.empty (world, []) retries).actAll acts).waitRetries = retries :=
      EngineHost.actAll_waitRetries _ acts
    refine ⟨EngineHost.actAll_sessions world retries acts,
      fun x hx => EngineHost.call_of_not_live hx, fun id hid => EngineHost.release_of_not_live hid,
      fun e r hr => EngineHost.start_of_live hr, fun e r hr => ?_⟩
    obtain ⟨waits, last, hle, hall, hlog, hsuccess, hfailure⟩ := EngineHost.start_recorded e hr
    rw [budget] at hle hall
    refine ⟨waits, last, hle, hall, hlog, ?_⟩
    split
    next hlast => exact (hsuccess hlast).1
    next hlast => exact (hfailure hlast).1
  · have serving : EngineHost.Serving p.host.world.2 (p.runAll c stop).1.host := by
      refine runAll_host c stop (fun h request r hr s => ?_) (fun h x s => s.call x)
        ⟨[], .of_idle idle, fun _ hc => absurd hc List.not_mem_nil⟩
      obtain ⟨e, he⟩ := recorded r hr
      rw [he]
      exact s.start e request
    exact ⟨EngineHost.releaseAll_live _, serving.releaseAll⟩

section Sample

open InstanceRun (sampleScope samplePlan misnamedClose)

/-- The first instance ends the whole run on its third bar, when the second one is live as well. -/
def faultyPortfolio : Portfolio Float (ScriptLog Float × CallLog Float (ScriptLog Float)) :=
  { empty sampleScope (.empty (Script.log 0, []) 0) with
    runs := [misnamedClose, { samplePlan [] with instanceId := 2 }].map fun s =>
      .ofPlan sampleScope s.recorded }

/-- A start that is answered at the third attempt, and a run that a fault ends for all. -/
theorem faultyPortfolio_released :
    let h : EngineHost Float (ScriptLog Float × CallLog Float (ScriptLog Float)) :=
      .empty (Script.log 2, []) 10
    let q := (faultyPortfolio.run sampleScope none).1
    (∃ waits last, waits ≤ 10 ∧ (h.start (samplePlan []).engine.recorded ⟨1, true, "", ""⟩).1.world.2 =
      CallLog.starts (samplePlan []).engine ⟨1, true, "", ""⟩
        (List.replicate waits EngineCode.waitForInit.toInt ++ [last])) ∧
    (h.start (samplePlan []).engine.recorded ⟨1, true, "", ""⟩).1.world.1.starts = #[1, 1, 1] ∧
    (faultyPortfolio.run sampleScope none).2.isSome ∧ q.host.live = [] ∧
    CallLog.opened 1 q.host.world.2 = 1 ∧ CallLog.opened 2 q.host.world.2 = 1 ∧
    ∀ id, CallLog.closed id q.host.world.2 = CallLog.opened id q.host.world.2 := by
  intro h q
  have idle : h.isLive 1 = false := rfl
  obtain ⟨waits, last, hle, -, hlog, -⟩ := (engine_lifecycle.1 (Script.log 2) 10 []).2.2.2.2
    (samplePlan []).engine ⟨1, true, "", ""⟩ idle
  have recorded : ∀ r ∈ faultyPortfolio.runs,
      ∃ e : Engine Float (ScriptLog Float), r.plan.engine = e.recorded := by
    intro r hr
    obtain ⟨s, -, rfl⟩ := List.mem_map.mp hr
    exact ⟨s.engine, rfl⟩
  obtain ⟨live, calls, log, released⟩ := engine_lifecycle.2 sampleScope none faultyPortfolio rfl recorded
  refine ⟨⟨waits, last, hle, hlog⟩, by decide +kernel, by decide +kernel, live,
    by decide +kernel, by decide +kernel, fun id => ?_⟩
  rw [show q.host.world.2 = calls from log]
  exact (released id).2.1

end Sample

end Portfolio
end Backtest
