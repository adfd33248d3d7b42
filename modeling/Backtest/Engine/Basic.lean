import Backtest.Market.Buffer
import Backtest.Order
import Backtest.EngineCode
import Backtest.Slot

namespace Backtest

structure AccountState (α : Type) where
  number : Int
  balance : α
  equity : α
  margin : α
  leverage : α
  contractSize : α
  minimumStop : α
  stopOutPercent : α
deriving Repr

structure MarketState (α : Type) where
  bid : α
  ask : α
  baseFactor : α
  termFactor : α
deriving Repr

/-- The bars of one buffer that are closed and inside its window. -/
structure BufferSlice (α : Type) where
  info : BufferInfo α
  bars : Series α

/-- Everything that an engine is shown on a bar. -/
structure Snapshot (α : Type) where
  instanceId : Int
  barIndex : Nat
  time : Int
  settings : SlotVector α
  symbol : String
  accountCurrency : String
  broker : String
  referenceBroker : String
  account : AccountState α
  market : MarketState α
  orders : List (Order α)
  buffers : List (BufferSlice α)

/-- A return code, and the records that go with success. -/
structure EngineAnswer (α : Type) where
  code : Int
  records : List (Instruction α)
deriving Repr

structure EngineStart where
  instanceId : Int
  isBacktesting : Bool
  config : String
  accountLabel : String
deriving Repr, DecidableEq

structure Engine (α σ : Type) where
  version : Nat × Nat × Nat
  /-- Takes on an instance and answers a return code. -/
  start : σ → EngineStart → σ × Int
  /-- Answers one bar of an instance. -/
  call : σ → Snapshot α → σ × EngineAnswer α
  /-- Lets go of an instance. -/
  release : σ → Int → σ

section Numbers

variable {α : Type} [Arith α]

/-- The ten numbers under which an engine reads the account; the last two are not used. -/
def AccountState.toNumbers (a : AccountState α) : List α :=
  [Arith.ofInt a.number, a.balance, a.equity, a.margin, a.leverage, a.contractSize, a.minimumStop,
   a.stopOutPercent, 0, 0]

/-- The six numbers under which an engine reads prices; each factor stands for bid and for ask. -/
def MarketState.toNumbers (m : MarketState α) : List α :=
  [m.bid, m.ask, m.baseFactor, m.baseFactor, m.termFactor, m.termFactor]

def SlotVector.orderLimit (v : SlotVector α) : Nat :=
  Arith.toCount (Arith.larger (v.get Slot.orderLimit) 1)

end Numbers

namespace EngineAnswer

variable {α : Type}

def success (records : List (Instruction α)) : EngineAnswer α := ⟨0, records⟩

def failure (code : Int) : EngineAnswer α := ⟨code, []⟩

def succeeded (a : EngineAnswer α) : Bool := a.code = EngineCode.success.toInt

end EngineAnswer

/-- An engine that acts on a part of a larger state. -/
def Engine.focus {α σ τ : Type} (part : σ → τ) (put : σ → τ → σ) (e : Engine α τ) : Engine α σ where
  version := e.version
  start s r := let (t, code) := e.start (part s) r; (put s t, code)
  call s x := let (t, answer) := e.call (part s) x; (put s t, answer)
  release s id := put s (e.release (part s) id)

end Backtest
