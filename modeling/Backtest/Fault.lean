import Backtest.Arith
import Backtest.ConfigFault
import Backtest.EngineCode

namespace Backtest

/-- Where a computation breaks off, because an operation on whole numbers or on a list has no result. -/
inductive Breach where
  /-- A number that does not fit in a word. -/
  | overflow
  /-- A draw from nothing. -/
  | emptyRange
  /-- An index behind the end of a list, or a range of one. -/
  | outOfBounds
deriving Repr, DecidableEq

namespace Breach

def text : Breach → String
  | .overflow => "a number does not fit in 64 bits"
  | .emptyRange => "a number is drawn from an empty range"
  | .outOfBounds => "an index is out of bounds"

def inWord (n : Nat) : Except Breach Nat := if n < wordRange then .ok n else .error .overflow

def pick {β : Type} (xs : List β) (i : Nat) : Except Breach β :=
  match xs[i]? with
  | some x => .ok x
  | none => .error .outOfBounds

end Breach

/-- How far a fault reaches: configuration and invariant faults end a whole run, an engine's fault ends
one instance, and a data fault prevents an instance from being built. -/
inductive FaultCategory where
  | config | native | data | invariant
deriving Repr, DecidableEq

def FaultCategory.text : FaultCategory → String
  | .config => "config"
  | .native => "native"
  | .data => "data"
  | .invariant => "invariant"

inductive Fault (α : Type) where
  | config (cause : ConfigFault)
  | invalidTimeframe (base target : Nat)
  | noParameters
  | tooManyBuffers (count : Nat)
  | duplicateInstance (instanceId : Int)
  | initFailed (instanceId code : Int)
  | callFailed (instanceId : Int) (bar : Nat) (code : Int)
  | unknownInstance (instanceId : Int)
  | missingHistory (path : String)
  /-- Rows count from one. -/
  | unreadableRow (path : String) (row : Nat) (reason : String)
  /-- The row counts from zero. -/
  | timesNotIncreasing (path : String) (row : Nat)
  | tooFewBars (symbol : String) (required available : Nat)
  | unknownTicket (instanceId ticket : Int)
  | tooManyOrders (instanceId : Int) (max : Nat)
  | ledgerMismatch (instanceId : Int) (expected actual : α)
  /-- A file operation failed. -/
  | files (reason : String)
  /-- A table could not be read or written. -/
  | table
  /-- A strategy engine could not be loaded. -/
  | library
  /-- A pair name that cannot be cut after its third byte. -/
  | brokenSymbol (symbol : String)
  | breach (cause : Breach)
deriving Repr

namespace Fault

variable {α : Type}

def category : Fault α → FaultCategory
  | .config _ | .invalidTimeframe .. | .noParameters | .tooManyBuffers _ | .duplicateInstance _
  | .tooManyOrders .. => .config
  | .initFailed .. | .callFailed .. | .unknownInstance _ | .library => .native
  | .missingHistory _ | .unreadableRow .. | .timesNotIncreasing .. | .tooFewBars .. | .files _
  | .table => .data
  | .unknownTicket .. | .ledgerMismatch .. | .brokenSymbol _ | .breach _ => .invariant

def isConfig (f : Fault α) : Bool := f.category = .config

/-- Whether the fault ends the whole run and not one instance alone. -/
def isFatal (f : Fault α) : Bool := f.category = .config || f.category = .invariant

def code? : Fault α → Option Int
  | .initFailed _ code | .callFailed _ _ code => some code
  | _ => none

def message [Arith α] : Fault α → String
  | .config cause => "config error: " ++ cause.text
  | .invalidTimeframe base target =>
    "invalid timeframe: target " ++ toString target ++ " is below base timeframe " ++ toString base
  | .noParameters => "config error: optimization requested with zero optimization parameters"
  | .tooManyBuffers count =>
    "config error: " ++ toString count ++ " rate requirements declared, at most 10 supported"
  | .duplicateInstance id => "instance " ++ toString id ++ " is already initialized"
  | .initFailed id code =>
    "native init of instance " ++ toString id ++ " failed: " ++ EngineCode.describe code
  | .callFailed id bar code =>
    "native call of instance " ++ toString id ++ " failed at bar " ++ toString bar ++ ": " ++
      EngineCode.describe code
  | .unknownInstance id => "instance " ++ toString id ++ " is not initialized"
  | .missingHistory path => "data error: missing history file " ++ path
  | .unreadableRow path row reason => "data error: " ++ path ++ ":" ++ toString row ++ ": " ++ reason
  | .timesNotIncreasing path row =>
    "data error: non-monotonic timestamps in " ++ path ++ " at row " ++ toString row
  | .tooFewBars symbol required available =>
    "data error: " ++ symbol ++ " needs " ++ toString required ++ " bars, only " ++
      toString available ++ " available"
  | .unknownTicket id ticket =>
    "invariant violation: instance " ++ toString id ++ " referenced unknown ticket " ++ toString ticket
  | .tooManyOrders id max =>
    "strategy error: instance " ++ toString id ++ " exceeded max open orders (" ++ toString max ++ ")"
  | .ledgerMismatch id expected actual =>
    "invariant violation: instance " ++ toString id ++ " ledger expected " ++
      Arith.fixedText 6 expected ++ ", mirror holds " ++ Arith.fixedText 6 actual
  | .files reason => "io error: " ++ reason
  | .table => "csv error"
  | .library => "library error"
  | .brokenSymbol symbol => "symbol '" ++ symbol ++ "' cannot be split into two currencies"
  | .breach cause => cause.text

end Fault
end Backtest
