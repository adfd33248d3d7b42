import Backtest.Instance.Basic
import Backtest.StopPoint

namespace Backtest
namespace InstanceRun

variable {α σ : Type} [Arith α]

/-- Starts the instance in its engine. A start that fails ends this run. -/
def start (c : RunScope α) (h : EngineHost α σ) (r : InstanceRun α σ) :
    EngineHost α σ × InstanceRun α σ × Option (Fault α) :=
  if r.state ≠ .notStarted then (h, r, none)
  else
    let request : EngineStart :=
      { instanceId := r.instanceId
        isBacktesting := !(r.plan.settings.get Slot.isBacktesting == 0)
        config := r.plan.engineConfig
        accountLabel := c.accountLabel }
    match h.start r.plan.engine request with
    | (h, none) => (h, { r with state := .running }, none)
    | (h, some f) => (h, r.abort f)

/-- What happens on a bar before the engine is asked: the buffers move on, and the market settles the
orders. This stands even if the engine fails. -/
def settleBar (r : InstanceRun α σ) (bar : Bar α) : InstanceRun α σ × Quote α :=
  let before := r.book.events.size
  let r := { r with rates := r.rates.advance bar.time }
  let q := r.quote bar
  let book := ((r.book.settleEntries q).settleExits q).bookSwap bar.time
  let r := { r with book := book }
  let settled := r.eventsFrom before
  ({ r with
      statistics := (r.statistics.noteTime bar.time).addEvents settled
      stepEvents := settled }, q)

/-- Whether the engine is asked on a bar: inside the window, and with every buffer warm. -/
def isDue (c : RunScope α) (r : InstanceRun α σ) (time : Int) : Bool :=
  c.admitsTime time && r.rates.isWarm

def consult (c : RunScope α) (h : EngineHost α σ) (r : InstanceRun α σ) (q : Quote α)
    (bar : Bar α) : EngineHost α σ × InstanceRun α σ × Option (Fault α) :=
  if r.isDue c bar.time then
    match h.call (r.snapshot c q bar) with
    | (h, .error f) => (h, r, some f)
    | (h, .ok answer) =>
      let r := { r with engineCalls := r.engineCalls + 1 }
      if answer.succeeded then
        let (book, fault) := r.book.applyRecords answer.records q
        (h, { r with book := book }, fault)
      else (h, r, some (.callFailed r.instanceId r.cursor answer.code))
  else (h, r, none)

/-- Ends a bar: its remaining events are counted, and the run ends with the last bar or with the money.
`before` and `settled` count the events before the bar and before the engine was asked. -/
def finishBar (r : InstanceRun α σ) (before settled : Nat) : InstanceRun α σ :=
  let r := { r with
    statistics := r.statistics.addEvents (r.eventsFrom settled)
    stepEvents := r.eventsFrom before
    barsProcessed := r.barsProcessed + 1
    cursor := r.cursor + 1 }
  if r.book.balance ≤ 0 ∨ r.cursor ≥ r.primary.size then { r with state := .finished } else r

def takeBar (c : RunScope α) (h : EngineHost α σ) (r : InstanceRun α σ) (bar : Bar α) :
    EngineHost α σ × InstanceRun α σ × Option (Fault α) :=
  let before := r.book.events.size
  let (r, q) := r.settleBar bar
  let settled := r.book.events.size
  match r.consult c h q bar with
  | (h, r, some f) => (h, r.abort f)
  | (h, r, none) =>
    match r.book.ledgerFault? with
    | some f => (h, r.abort f)
    | none => (h, r.finishBar before settled, none)

def stopText : String := "stop requested"

/-- One step of a run: nothing unless it is running, its end if a stop is requested or no bar is left,
and the next bar otherwise. Only a fault that ends more than this run is handed on. -/
def step (c : RunScope α) (stopped : Bool) (h : EngineHost α σ) (r : InstanceRun α σ) :
    EngineHost α σ × InstanceRun α σ × Option (Fault α) :=
  let r := { r with stepEvents := [] }
  if !r.isRunning then (h, r, none)
  else if stopped then (h, { r with state := .aborted, failure := some stopText }, none)
  else
    match r.primary.bar? r.cursor with
    | none => (h, { r with state := .finished }, none)
    | some bar => r.takeBar c h bar

def steps (c : RunScope α) (stop : StopPoint) :
    Nat → EngineHost α σ → InstanceRun α σ → EngineHost α σ × InstanceRun α σ × Option (Fault α)
  | 0, h, r => (h, r, none)
  | n + 1, h, r =>
    if !r.isRunning then (h, r, none)
    else
      match r.step c (stop.isReached r.cursor) h with
      | (h, r, some f) => (h, r, some f)
      | (h, r, none) => steps c stop n h r

/-- A whole run. Every step takes a bar or ends the run, so one step more than there are bars is enough.
The instance is released at the end in any case. -/
def run (c : RunScope α) (stop : StopPoint) (h : EngineHost α σ) (r : InstanceRun α σ) :
    EngineHost α σ × InstanceRun α σ × Option (Fault α) :=
  let (h, r, fault) := match r.start c h with
    | (h, r, some f) => (h, r, some f)
    | (h, r, none) => r.steps c stop (r.barsLeft + 1) h
  (h.release r.instanceId, r, fault)

end InstanceRun
end Backtest
