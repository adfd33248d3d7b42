import Backtest.Engine.Basic

namespace Backtest

inductive ScriptEntry (α : Type) where
  /-- Answers a record. -/
  | answer (r : Instruction α)
  /-- Answers a return code and no records. -/
  | fail (code : Int)
deriving Repr

namespace ScriptEntry

variable {α : Type} [Arith α]

def place (kind : OrderKind) (lots entryPrice stopDistance profitDistance : α) : ScriptEntry α :=
  .answer
    { Instruction.demand kind .place 0 with
      lots := lots
      entryPrice := entryPrice
      stopDistance := stopDistance
      profitDistance := profitDistance }

def marketBuy (lots : α) : ScriptEntry α := place .buy lots 0 0 0

def marketSell (lots : α) : ScriptEntry α := place .sell lots 0 0 0

def close (kind : OrderKind) (ticket : Int) : ScriptEntry α := .answer (.demand kind .close ticket)

def closeAll (kind : OrderKind) : ScriptEntry α := close kind everyTicket

def update (kind : OrderKind) (ticket : Int) (stopDistance profitDistance : α) : ScriptEntry α :=
  .answer
    { Instruction.demand kind .update ticket with
      stopDistance := stopDistance
      profitDistance := profitDistance }

end ScriptEntry

/-- What to answer when an instance starts, and on which bars to act. -/
structure Script (α : Type) where
  startCode : Int
  actions : List (Nat × ScriptEntry α)
deriving Repr

/-- What a scripted engine was shown so far, and how often it still asks to wait at a start. -/
structure ScriptLog (α : Type) where
  waitsLeft : Nat
  starts : Array Int
  releases : Array Int
  calls : Array (Snapshot α)

namespace ScriptLog

variable {α : Type}

def startsOf (log : ScriptLog α) (id : Int) : Nat := log.starts.toList.count id

def releasesOf (log : ScriptLog α) (id : Int) : Nat := log.releases.toList.count id

def callsOf (log : ScriptLog α) (id : Int) : Nat :=
  log.calls.toList.countP fun x => x.instanceId = id

end ScriptLog

namespace Script

variable {α : Type}

def log (waits : Nat) : ScriptLog α := ⟨waits, #[], #[], #[]⟩

def onBar (s : Script α) (bar : Nat) : List (ScriptEntry α) :=
  (s.actions.filter (·.1 = bar)).map (·.2)

def answer (s : Script α) (bar : Nat) : EngineAnswer α :=
  let actions := s.onBar bar
  match actions.findSome? fun | .fail code => some code | .answer _ => none with
  | some code => .failure code
  | none => .success (actions.filterMap fun | .answer r => some r | .fail _ => none)

def startAnswer (s : Script α) (log : ScriptLog α) : ScriptLog α × Int :=
  if log.waitsLeft = 0 then (log, s.startCode)
  else ({ log with waitsLeft := log.waitsLeft - 1 }, EngineCode.waitForInit.toInt)

def engine (s : Script α) : Engine α (ScriptLog α) where
  version := (0, 0, 0)
  start log r := s.startAnswer { log with starts := log.starts.push r.instanceId }
  call log x := ({ log with calls := log.calls.push x }, s.answer x.barIndex)
  release log id := { log with releases := log.releases.push id }

end Script
end Backtest
