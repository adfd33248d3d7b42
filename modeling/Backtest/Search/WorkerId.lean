import Backtest.Fault

namespace Backtest

def workerStride : Nat := 1000

def fitsInt32 (n : Int) : Bool := -2147483648 ≤ n && n ≤ 2147483647

/-- The id of the candidate that a worker runs for an instance. Negative instances count away from zero,
so that no two instances share an id. -/
def workerId {α : Type} (base : Int) (worker : Nat) : Except (Fault α) Int :=
  let first := base * workerStride
  let id := if first < 0 then first - worker else first + worker
  if worker < workerStride && fitsInt32 id then .ok id
  else .error (.config (.workerOutOfRange base worker))

end Backtest
