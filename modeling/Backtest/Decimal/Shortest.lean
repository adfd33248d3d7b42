import Backtest.Binary64

namespace Backtest

/-- The decimal `digits · 10 ^ exponent`; no trailing zero unless it is zero. -/
structure Decimal where
  digits : Nat
  exponent : Int
deriving Repr, DecidableEq

namespace Decimal

structure Ratio where
  num : Nat
  den : Nat

def Ratio.ofBinary (m : Nat) (e : Int) : Ratio :=
  ⟨m <<< e.toNat, 1 <<< (-e).toNat⟩

def Ratio.shift (r : Ratio) (k : Int) : Ratio :=
  ⟨r.num * Nat.pow 10 (-k).toNat, r.den * Nat.pow 10 k.toNat⟩

def Ratio.le (a b : Ratio) : Bool := a.num * b.den ≤ b.num * a.den

def Ratio.lt (a b : Ratio) : Bool := a.num * b.den < b.num * a.den

/-- The `k` with `10 ^ k ≤ m · 2 ^ e < 10 ^ (k + 1)`, for `m > 0`: an estimate from the binary
length, which is off by one at most, and its correction. -/
def magnitude (m : Nat) (e : Int) : Int :=
  let guess := ((Nat.log2 m : Int) + e) * 30103 / 100000
  let r := Ratio.ofBinary m e
  let one : Ratio := ⟨1, 1⟩
  if (r.shift guess).lt one then guess - 1
  else if (r.shift (guess + 1)).lt one then guess
  else guess + 1

def Ratio.nearest (r : Ratio) : Nat :=
  let q := r.num / r.den
  let twice := 2 * (r.num % r.den)
  if twice > r.den || (twice == r.den && q % 2 == 1) then q + 1 else q

def trim (digits : Nat) (exponent : Int) : Nat → Decimal
  | 0 => ⟨digits, exponent⟩
  | fuel + 1 =>
    if digits % 10 = 0 && digits ≠ 0 then trim (digits / 10) (exponent + 1) fuel
    else ⟨digits, exponent⟩

/-- The interval of reals that round to `m · 2 ^ e`, in quarters of the unit `2 ^ e`. Below a power
of two the spacing halves, and so does the distance to the lower end. -/
structure Interval where
  low : Nat
  high : Nat
  closed : Bool

def Interval.ofBinary (m : Nat) (e : Int) : Interval where
  low := if m = 0x10000000000000 && e > -1074 then 4 * m - 1 else 4 * m - 2
  high := 4 * m + 2
  closed := m % 2 = 0

/-- Whether `d · 10 ^ k` rounds to the double whose interval has the given quarter unit. -/
def Interval.holds (i : Interval) (e : Int) (k : Int) (d : Nat) : Bool :=
  let point : Ratio := Ratio.shift ⟨d, 1⟩ (-k)
  let low := Ratio.ofBinary i.low (e - 2)
  let high := Ratio.ofBinary i.high (e - 2)
  if i.closed then low.le point && point.le high else low.lt point && point.lt high

/-- The neighbour on the grid `10 ^ k` that reads back, the nearer one if both do. -/
def onGrid (m : Nat) (e : Int) (k : Int) : Option Nat :=
  let scaled := (Ratio.ofBinary m e).shift k
  let below := scaled.num / scaled.den
  let near := scaled.nearest
  let far := if near = below then below + 1 else below
  let i := Interval.ofBinary m e
  if i.holds e k near then some near
  else if i.holds e k far then some far
  else none

/-- The shortest decimal of `m · 2 ^ e`; seventeen digits always suffice. -/
def shortest (m : Nat) (e : Int) : Decimal :=
  if m = 0 then ⟨0, 0⟩
  else
    let k := magnitude m e
    let found := (List.range 17).findSome? fun (n : Nat) =>
      (onGrid m e (k - n)).map fun d => trim d (k - n) 20
    found.getD ⟨0, 0⟩

def ofFloat (x : Float) : Decimal := shortest (Binary64.mantissa x) (Binary64.exponent x)

def scientificExponent (d : Decimal) : Int :=
  d.exponent + ((toString d.digits).length - 1 : Nat)

end Decimal
end Backtest
