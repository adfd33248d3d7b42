import Backtest.Bar
import Std.Data.HashSet
import Std.Data.TreeSet

namespace Backtest
namespace Series

variable {α : Type}

def times (s : Series α) : Std.HashSet Int := Std.HashSet.ofList (s.toList.map Bar.time)

/-- Of some times, those that are left once each of some series has retained its own. -/
def retained (common : Std.TreeSet Int) (others : List (Series α)) : Std.TreeSet Int :=
  others.foldl (fun common s =>
    let times := s.times
    common.filter fun time => times.contains time) common

/-- Cuts at least two series to the times they have in common. -/
def aligned (all : List (Series α)) : List (Series α) :=
  match all with
  | [] | [_] => all
  | first :: others =>
    let common := retained (Std.TreeSet.ofList (first.toList.map Bar.time)) others
    all.map fun s => s.filter fun b => common.contains b.time

end Series
end Backtest
