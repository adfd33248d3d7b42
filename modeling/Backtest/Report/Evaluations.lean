import Backtest.Fault
import Backtest.Search.Parameter
import Backtest.RunFigures
import Backtest.Text.Table

namespace Backtest

def RunFigures.columns (r : RunFigures Float) : List (String × String) :=
  let fixed := Decimal.fixedText
  [("Total_Trades", toString r.counters.total),
   ("Final_Balance", fixed 2 r.finalBalance),
   ("Max_DD", fixed 2 r.drawdownDepth),
   ("Max_DD_%", fixed 4 r.drawdownPercent),
   ("Max_DD_Length", toString r.drawdownLength),
   ("Profit_Factor", fixed 4 r.profitFactor),
   ("R2", fixed 4 r.r2),
   ("Ulcer_Index", fixed 4 r.ulcerIndex),
   ("Sharpe", fixed 4 r.sharpe),
   ("CAGR", fixed 4 r.growth),
   ("CAGR/Max_DD", fixed 4 r.growthToDrawdown),
   ("Failure", r.failure.getD "")]

/-- A table as far as it is written; the width is known with the first row. -/
structure EvaluationTable where
  width : Option Nat
  text : String
deriving Repr

namespace EvaluationTable

def empty : EvaluationTable := ⟨none, ""⟩

/-- Writes a record; one of another width than the first is cut off before its line end. -/
def writeRecord (t : EvaluationTable) (fields : List String) :
    EvaluationTable × Option (Fault Float) :=
  let text := t.text ++ Table.writeRecord ';' fields
  if t.width.all (· == fields.length) then (⟨some fields.length, text ++ "\n"⟩, none)
  else (⟨t.width, text⟩, some .table)

def addRow (t : EvaluationTable) (iteration : Nat) (s : Assignment Float)
    (r : RunFigures Float) : EvaluationTable × Option (Fault Float) :=
  let t := if t.width.isSome then t else
    (t.writeRecord ("Iteration" :: s.map (fun p => Slot.nameOf p.1) ++ r.columns.map (·.1))).1
  t.writeRecord (toString iteration :: s.map (fun p => Decimal.plainText p.2) ++
    r.columns.map (·.2))

end EvaluationTable
end Backtest
