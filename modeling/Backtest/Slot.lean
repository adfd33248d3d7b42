import Backtest.Decimal.Reader

namespace Backtest

abbrev slotCount : Nat := 64

def freeSlots : Nat := 40

abbrev SlotVector (α : Type) := Vector α slotCount

namespace Slot

def useStopLoss : Fin slotCount := 41
def useTakeProfit : Fin slotCount := 42
def orderLimit : Fin slotCount := 45
def isBacktesting : Fin slotCount := 46
def disableCompounding : Fin slotCount := 47
def initialEquity : Fin slotCount := 49
def instanceId : Fin slotCount := 51
def timeframe : Fin slotCount := 53
def orderArraySize : Fin slotCount := 63

def fixedNames : List String :=
  ["IS_SPREAD_BETTING", "USE_SL", "USE_TP", "RUN_EVERY_TICK", "INSTANCE_MANAGEMENT",
   "MAX_OPEN_ORDERS", "IS_BACKTESTING", "DISABLE_COMPOUNDING", "TIMED_EXIT_BARS",
   "ORIGINAL_EQUITY", "OPERATIONAL_MODE", "STRATEGY_INSTANCE_ID", "INTERNAL_STRATEGY_ID",
   "TIMEFRAME", "SAVE_TICK_DATA", "ANALYSIS_WINDOW_SIZE", "PARAMETER_SET_POOL",
   "ACCOUNT_RISK_PERCENT", "MAX_DRAWDOWN_PERCENT", "MAX_SPREAD", "SL_ATR_MULTIPLIER",
   "TP_ATR_MULTIPLIER", "ATR_AVERAGING_PERIOD", "ORDERINFO_ARRAY_SIZE"]

def freeName : String := "ADDITIONAL_PARAM_"

def ofNat? (n : Nat) : Option (Fin slotCount) :=
  if h : n < slotCount then some ⟨n, h⟩ else none

/-- The slot with a given name; free parameters are numbered from 1 to 40. -/
def ofName? (name : String) : Option (Fin slotCount) :=
  let cs := name.toList
  if freeName.toList.isPrefixOf cs then
    match Decimal.readNat (cs.drop freeName.length) with
    | some n => if 1 ≤ n && n ≤ freeSlots then ofNat? (n - 1) else none
    | none => none
  else
    (fixedNames.findIdx? (· == name)).bind fun i => ofNat? (freeSlots + i)

def ofSetting? (name : String) : Option (Fin slotCount) :=
  match ofName? name with
  | some slot => some slot
  | none => (Decimal.readNat name.toList).bind ofNat?

/-- The name of a slot; a number beyond the last slot stands for itself. -/
def nameOf (index : Nat) : String :=
  if index < freeSlots then freeName ++ toString (index + 1)
  else (fixedNames[index - freeSlots]?).getD (toString index)

end Slot

namespace SlotVector

variable {α : Type}

def get (v : SlotVector α) (slot : Fin slotCount) : α := v[slot]

def put (v : SlotVector α) (slot : Fin slotCount) (x : α) : SlotVector α := v.set slot x

/-- Writes a value at an index; one beyond the last slot is dropped. -/
def putAt (v : SlotVector α) (index : Nat) (x : α) : SlotVector α :=
  match Slot.ofNat? index with
  | some slot => v.put slot x
  | none => v

end SlotVector
end Backtest
