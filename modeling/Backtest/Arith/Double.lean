import Backtest.Arith
import Backtest.Decimal.Notation

namespace Backtest

instance : Arith Float where
  zero := 0.0
  one := 1.0
  decLt := inferInstance
  decLe := inferInstance
  ofInt := Float.ofInt
  isFinite := Binary64.isFinite
  floor := Binary64.floor
  round := Binary64.round
  whole := Binary64.whole
  sqrt := Float.sqrt
  ln := Float.log
  pow := Float.pow
  places := Binary64.places
  fixedText := Decimal.fixedText

end Backtest
