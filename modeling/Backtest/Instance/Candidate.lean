import Backtest.Instance.Step
import Backtest.Search.Basic

namespace Backtest
namespace InstancePlan

variable {α σ : Type} [Arith α]

/-- The plan of a candidate: its values in the slots, and its own id. -/
def candidate (s : InstancePlan α σ) (id : Int) (values : Assignment α) : InstancePlan α σ :=
  { s with
    instanceId := id
    settings := (values.writeInto s.settings).put Slot.instanceId (Arith.ofInt id) }

/-- Runs a candidate to its end under the id of a worker, from fresh rates and in a host of its own. A
candidate is not stopped midway. -/
def runCandidate (c : RunScope α) (s : InstancePlan α σ) (worker : Nat) : CandidateTrial α σ :=
  fun world values =>
    match workerId s.instanceId worker with
    | .error f => (world, .error f)
    | .ok id =>
      let host := EngineHost.empty world EngineHost.standardRetries
      match (InstanceRun.ofPlan c (s.candidate id values)).run c none host with
      | (host, r, none) => (host.releaseAll.world, .ok r.result)
      | (host, _, some f) => (host.releaseAll.world, .error f)

end InstancePlan
end Backtest
