namespace Backtest
namespace Binary64

def isNegative (x : Float) : Bool := x.toBits >>> 63 == 1

def biased (x : Float) : Nat := ((x.toBits >>> 52) &&& 0x7ff).toNat

def fraction (x : Float) : Nat := (x.toBits &&& 0xfffffffffffff).toNat

def isFinite (x : Float) : Bool := biased x != 2047

def isNaN (x : Float) : Bool := biased x == 2047 && fraction x != 0

/-- The integer `m` of a finite double `± m · 2 ^ e`. -/
def mantissa (x : Float) : Nat :=
  if biased x = 0 then fraction x else 0x10000000000000 + fraction x

def exponent (x : Float) : Int := (max (biased x) 1 : Nat) - 1075

def infinity : Float := 1.0 / 0.0

def wholePart (x : Float) : Nat :=
  if exponent x ≥ 0 then mantissa x <<< (exponent x).toNat else mantissa x >>> (-exponent x).toNat

def hasFraction (x : Float) : Bool :=
  exponent x < 0 && mantissa x % 1 <<< (-exponent x).toNat != 0

/-- The double of a whole number, a zero taking the sign of `x`. -/
def ofWhole (x : Float) (n : Nat) : Float :=
  if isNegative x then -(Float.ofNat n) else Float.ofNat n

def floor (x : Float) : Float :=
  if isFinite x && hasFraction x then
    ofWhole x (if isNegative x then wholePart x + 1 else wholePart x)
  else x

/-- The nearest whole double, a half going away from zero. -/
def round (x : Float) : Float :=
  if isFinite x && hasFraction x then
    ofWhole x ((mantissa x + 1 <<< ((-exponent x).toNat - 1)) >>> (-exponent x).toNat)
  else x

/-- Whole part toward zero, held between two bounds. -/
def whole (lo hi : Int) (x : Float) : Int :=
  if isNaN x then 0
  else if isFinite x then
    let n : Int := if isNegative x then -(wholePart x : Int) else wholePart x
    max lo (min hi n)
  else if isNegative x then lo else hi

/-- Whether the common logarithm of `x > 0`, rounded to a double, is at least `-n`. The slack is half
a unit in the last place of `n`, times `ln 10` and in billionths. -/
def reachesPlace (x : Float) (n : Nat) : Bool :=
  let slack := if n = 0 then 0 else 2302585093 <<< Nat.log2 n
  let unit := 1000000000 <<< 53
  let left := (mantissa x * unit * Nat.pow 10 n) <<< (exponent x).toNat
  left ≥ (unit - slack) <<< (-exponent x).toNat

/-- Decimal places of a step; every positive double reaches place 324. -/
def places (x : Float) : Nat :=
  if isFinite x && 0 < x then (List.range 325).find? (reachesPlace x) |>.getD 324 else 0

end Binary64

end Backtest
