import Backtest.Bar
import Backtest.Calendar.Pattern
import Backtest.Fault
import Backtest.Files.Tree
import Backtest.Text.Table

namespace Backtest
namespace History

/-- A numeric column of a row; one that is missing counts as zero. -/
def readColumn (path : String) (row : Nat) (fields : List String) (i : Nat) :
    Except (Fault Float) Float :=
  match fields[i]? with
  | none => .ok 0.0
  | some s =>
    match Decimal.read s with
    | .ok x => .ok x
    | .error e => .error (.unreadableRow path row ("column " ++ toString i ++ ": " ++ e.message))

def readRow (path : String) (row : Nat) (fields : List String) : Except (Fault Float) (Bar Float) := do
  if fields.length < 6 then
    throw (.unreadableRow path row
      ("expected at least 6 columns, got " ++ toString fields.length))
  let stamp := fields.headD ""
  let some time := readHistoryTime? stamp
    | throw (.unreadableRow path row ("unparseable timestamp '" ++ stamp ++ "'"))
  let column := readColumn path row fields
  return { time := time
           openPrice := ← column 1
           high := ← column 2
           low := ← column 3
           close := ← column 4
           volume := ← column 5
           shortSwap := ← column 6
           longSwap := ← column 7 }

/-- Adds a bar behind the last one. One of the same time is left out, and an earlier one is a fault. -/
def append (path : String) (row : Nat) (s : Series Float) (b : Bar Float) :
    Except (Fault Float) (Series Float) :=
  match s.back? with
  | none => .ok (s.push b)
  | some last =>
    if b.time = last.time then .ok s
    else if b.time < last.time then .error (.timesNotIncreasing path row)
    else .ok (s.push b)

def readRows (path : String) : Nat → Series Float → List (List (List UInt8)) →
    Except (Fault Float) (Series Float)
  | _, s, [] => .ok s
  | row, s, fields :: rest => do
    let some texts := Table.recordTexts? fields | throw .table
    let s ← append path row s (← readRow path (row + 1) texts)
    readRows path (row + 1) s rest

def load (t : FileTree) (path : String) : Except (Fault Float) (Series Float) :=
  match t.content? path with
  | none => .error (.missingHistory path)
  | some content => readRows path 0 #[] (Table.records content)

def orderFault? {α : Type} (s : Series α) (label : String) : Option (Fault α) :=
  s.firstUnordered?.map fun i => .timesNotIncreasing label (i + 1)

end History
end Backtest
