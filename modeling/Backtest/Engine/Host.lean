import Backtest.Engine.Basic
import Backtest.Fault

namespace Backtest

/-- The state that engines act on, and the engine of each live instance. -/
structure EngineHost (α σ : Type) where
  world : σ
  live : List (Int × Engine α σ)
  /-- How often a start is repeated while the engine asks to wait. -/
  waitRetries : Nat

namespace EngineHost

variable {α σ : Type}

def standardRetries : Nat := 10

def empty (world : σ) (waitRetries : Nat) : EngineHost α σ := ⟨world, [], waitRetries⟩

def engine? (h : EngineHost α σ) (id : Int) : Option (Engine α σ) := h.live.lookup id

def isLive (h : EngineHost α σ) (id : Int) : Bool := (h.engine? id).isSome

/-- Starts an instance, again and again while its engine asks to wait and retries are left. -/
def startEngine (e : Engine α σ) (r : EngineStart) : Nat → σ → σ × Int
  | 0, world => e.start world r
  | retries + 1, world =>
    match e.start world r with
    | (world, code) =>
      if code = EngineCode.waitForInit.toInt then startEngine e r retries world else (world, code)

/-- Starts an instance and keeps it live. One that is live already does not reach its engine, and one
whose start fails is not kept. -/
def start (h : EngineHost α σ) (e : Engine α σ) (r : EngineStart) :
    EngineHost α σ × Option (Fault α) :=
  if h.isLive r.instanceId then (h, some (.duplicateInstance r.instanceId))
  else
    match startEngine e r h.waitRetries h.world with
    | (world, code) =>
      if code = EngineCode.success.toInt then
        ({ h with world := world, live := (r.instanceId, e) :: h.live }, none)
      else ({ h with world := world }, some (.initFailed r.instanceId code))

def call (h : EngineHost α σ) (x : Snapshot α) :
    EngineHost α σ × Except (Fault α) (EngineAnswer α) :=
  match h.engine? x.instanceId with
  | none => (h, .error (.unknownInstance x.instanceId))
  | some e =>
    let (world, answer) := e.call h.world x
    ({ h with world := world }, .ok answer)

def release (h : EngineHost α σ) (id : Int) : EngineHost α σ :=
  match h.engine? id with
  | none => h
  | some e =>
    { h with world := e.release h.world id, live := h.live.filter (·.1 ≠ id) }

def releaseAll (h : EngineHost α σ) : EngineHost α σ :=
  (h.live.map (·.1)).foldl release h

end EngineHost
end Backtest
