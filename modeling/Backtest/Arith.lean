namespace Backtest

def wordRange : Nat := 0x10000000000000000

/-- The operations that the rules of the simulator use on amounts. No laws are asked for: in floating
point few hold. -/
class Arith (α : Type) extends Add α, Sub α, Mul α, Div α, Neg α, Zero α, One α, LT α, LE α,
    BEq α, OfScientific α where
  decLt : DecidableLT α
  decLe : DecidableLE α
  /-- The amount nearest to an integer. -/
  ofInt : Int → α
  /-- Neither infinite nor undefined. -/
  isFinite : α → Bool
  /-- The greatest whole amount that is not above. -/
  floor : α → α
  /-- The nearest whole amount, a half going away from zero. -/
  round : α → α
  /-- Whole part toward zero, held between two bounds; an undefined amount gives zero. -/
  whole : Int → Int → α → Int
  sqrt : α → α
  ln : α → α
  pow : α → α → α
  /-- Decimal places of a step: the least `n` for which the step reaches `10 ^ (-n)`. -/
  places : α → Nat
  /-- Text with a fixed number of decimal places. -/
  fixedText : Nat → α → String

attribute [reducible, instance] Arith.decLt Arith.decLe

namespace Arith

variable {α : Type} [Arith α]

/-- The larger of two amounts; an undefined one gives way to the other. -/
def larger (a b : α) : α :=
  if a < b then b else if a == a then a else b

def smaller (a b : α) : α :=
  if b < a then b else if a == a then a else b

def magnitude (a : α) : α :=
  if a < 0 then -a else if a == 0 then 0 else a

def total (xs : List α) : α := xs.foldl (· + ·) 0

/-- Multiplies `r` by the power of `a`, taking the binary digits of the exponent from the lowest up. -/
def scaleByPow (r a : α) (n : Nat) : α :=
  let r := if n % 2 = 1 then r * a else r
  if n / 2 = 0 then r else scaleByPow r (a * a) (n / 2)
termination_by n
decreasing_by omega

def natPow (a : α) (n : Nat) : α := scaleByPow 1 a n

def intPow (a : α) (n : Int) : α :=
  if n < 0 then 1 / natPow a n.natAbs else natPow a n.natAbs

def square (a : α) : α := a * a

/-- Bounds of a signed and an unsigned 64-bit word. -/
def minInt64 : Int := -9223372036854775808
def maxInt64 : Int := 9223372036854775807
def maxWord64 : Nat := 18446744073709551615

def toInt64 (a : α) : Int := whole minInt64 maxInt64 a

def toCount (a : α) : Nat := (whole 0 maxWord64 a).toNat

def toWord32 (a : α) : Nat := (whole 0 4294967295 a).toNat

def ofCount (n : Nat) : α := ofInt n

end Arith
end Backtest
