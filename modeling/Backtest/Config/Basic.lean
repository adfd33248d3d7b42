import Backtest.Account
import Backtest.Market.Buffer
import Backtest.Search.Settings
import Backtest.Slot
import Backtest.Statistics.Basic

namespace Backtest

structure CommonConfig (α : Type) where
  mode : String
  initialBalance : α
  accountCurrency : String
  broker : String
  referenceBroker : String
  accountLabel : String
  historyPath : String
  baseTimeframe : Nat
  fromDate : Option String
  toDate : Option String
  threads : Option Nat
  exitPath : String
  statistics : StatisticsOptions
deriving Repr

structure SystemConfig (α : Type) where
  instanceId : Int
  enginePath : String
  engineConfig : String
  symbol : String
  timeframe : Nat
  /-- Values by name or number of their slot, in the order of names. -/
  settings : List (String × α)
  requirements : List Requirement
  account : Account α
deriving Repr

structure RunConfig (α : Type) where
  common : CommonConfig α
  systems : List (SystemConfig α)
  search : Option (SearchSettings α)
deriving Repr

namespace RunConfig

def testMode : String := "Debug"
def searchMode : String := "Optimize"

variable {α : Type}

def isSearch (c : RunConfig α) : Bool := c.common.mode = searchMode

/-- Workers of a search; `cores` stands in where none are configured. -/
def workers (c : RunConfig α) (cores : Nat) : Nat := c.common.threads.getD cores

end RunConfig

namespace SlotVector

variable {α : Type}

def zeros [Arith α] : SlotVector α := Vector.replicate slotCount 0

def assign (v : SlotVector α) : List (String × α) → Except (Fault α) (SlotVector α)
  | [] => .ok v
  | (name, x) :: rest =>
    match Slot.ofSetting? name with
    | some slot => (v.put slot x).assign rest
    | none => .error (.config (.unknownSetting name))

end SlotVector

/-- The slots that an instance's engine is configured with. The size of the order array follows the
number of orders allowed. -/
def SystemConfig.slots {α : Type} [Arith α] (s : SystemConfig α) (c : CommonConfig α) :
    Except (Fault α) (SlotVector α) := do
  let v : SlotVector α := .zeros
  let v := v.put Slot.orderLimit 1
  let v := v.put Slot.isBacktesting 1
  let v := v.put Slot.useStopLoss 1
  let v := v.put Slot.useTakeProfit 1
  let v := v.put Slot.disableCompounding (if c.statistics.disableCompounding then 1 else 0)
  let v := v.put Slot.initialEquity c.initialBalance
  let v := v.put Slot.instanceId (Arith.ofInt s.instanceId)
  let v := v.put Slot.timeframe (Arith.ofCount s.timeframe)
  let v ← v.assign s.settings
  return v.put Slot.orderArraySize (v.get Slot.orderLimit)

end Backtest
