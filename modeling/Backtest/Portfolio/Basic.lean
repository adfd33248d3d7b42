import Backtest.Instance.Step

namespace Backtest

/-- The runs of a portfolio with the host of their engines, the statistics over all of them, and the
number of steps taken. -/
structure Portfolio (α σ : Type) where
  host : EngineHost α σ
  runs : List (InstanceRun α σ)
  combined : Statistics α
  stepsTaken : Nat

namespace Portfolio

variable {α σ : Type} [Arith α]

def empty (c : RunScope α) (host : EngineHost α σ) : Portfolio α σ :=
  ⟨host, [], .start c.initialBalance c.statistics, 0⟩

def add (c : RunScope α) (p : Portfolio α σ) (s : InstancePlan α σ) :
    Except (Fault α) (Portfolio α σ) :=
  if p.runs.any (·.instanceId = s.instanceId) then .error (.duplicateInstance s.instanceId)
  else .ok { p with runs := p.runs ++ [.ofPlan c s] }

/-- Carries each run on in turn, until a fault ends the portfolio. -/
def eachRun (f : EngineHost α σ → Statistics α → Nat → InstanceRun α σ →
      (EngineHost α σ × Statistics α × Nat × InstanceRun α σ) × Option (Fault α))
    (p : Portfolio α σ) : Portfolio α σ × Option (Fault α) :=
  go p.host p.combined p.stepsTaken [] p.runs
where
  go (h : EngineHost α σ) (s : Statistics α) (n : Nat) (done : List (InstanceRun α σ)) :
      List (InstanceRun α σ) → Portfolio α σ × Option (Fault α)
    | [] => (⟨h, done.reverse, s, n⟩, none)
    | r :: rest =>
      match f h s n r with
      | ((h, s, n, r), none) => go h s n (r :: done) rest
      | ((h, s, n, r), some fault) => (⟨h, done.reverse ++ r :: rest, s, n⟩, some fault)

def start (c : RunScope α) : Portfolio α σ → Portfolio α σ × Option (Fault α) :=
  eachRun fun h s n r =>
    let (h, r, fault) := r.start c h
    ((h, s, n, r), fault)

/-- Steps one run, if it is running and its next bar opens at `time`. The trades it closes join the
combined statistics. -/
def stepAt (c : RunScope α) (stop : StopPoint) (time : Option Int) (h : EngineHost α σ)
    (s : Statistics α) (n : Nat) (r : InstanceRun α σ) :
    (EngineHost α σ × Statistics α × Nat × InstanceRun α σ) × Option (Fault α) :=
  if r.isRunning && r.nextTime? = time then
    match r.step c (stop.isReached n) h with
    | (h, r, some f) => ((h, s, n + 1, r), some f)
    | (h, r, none) => ((h, s.addEvents r.stepEvents, n + 1, r), none)
  else ((h, s, n, r), none)

def nextTime? (p : Portfolio α σ) : Option Int :=
  ((p.runs.filter InstanceRun.isRunning).filterMap InstanceRun.nextTime?).min?

def lockstep (c : RunScope α) (stop : StopPoint) :
    Nat → Portfolio α σ → Portfolio α σ × Option (Fault α)
  | 0, p => (p, none)
  | n + 1, p =>
    match p.nextTime? with
    | none => (p, none)
    | some time =>
      let p := { p with combined := p.combined.noteTime time }
      match p.eachRun (stepAt c stop (some time)) with
      | (p, some f) => (p, some f)
      | (p, none) => lockstep c stop n p

def barsLeft (p : Portfolio α σ) : Nat := p.runs.foldr (fun r n => r.barsLeft + n) 0

/-- Starts all instances and runs them to their ends; those without any bar end last. -/
def runAll (c : RunScope α) (stop : StopPoint) (p : Portfolio α σ) :
    Portfolio α σ × Option (Fault α) :=
  match p.start c with
  | (p, some f) => (p, some f)
  | (p, none) =>
    match p.lockstep c stop (p.barsLeft + 1) with
    | (p, some f) => (p, some f)
    | (p, none) => p.eachRun (stepAt c stop none)

/-- A whole run of the portfolio; every instance is released at the end in any case. -/
def run (c : RunScope α) (stop : StopPoint) (p : Portfolio α σ) :
    Portfolio α σ × Option (Fault α) :=
  let (p, fault) := p.runAll c stop
  ({ p with host := p.host.releaseAll }, fault)

end Portfolio
end Backtest
