import Backtest.Decimal.Shortest

namespace Backtest
namespace Decimal

def zeros (n : Nat) : String := String.ofList (List.replicate n '0')

def padded (width n : Nat) : String :=
  let digits := toString n
  zeros (width - digits.length) ++ digits

def pointed (n places : Nat) : String :=
  if places = 0 then toString n
  else toString (n / Nat.pow 10 places) ++ "." ++ padded places (n % Nat.pow 10 places)

def positional (d : Decimal) : String :=
  if d.exponent ≥ 0 then toString d.digits ++ (if d.digits = 0 then "" else zeros d.exponent.toNat)
  else pointed d.digits (-d.exponent).toNat

def scientific (d : Decimal) : String :=
  let digits := (toString d.digits).toList
  let tail := String.ofList (digits.drop 1)
  String.ofList (digits.take 1) ++ (if tail.isEmpty then "" else "." ++ tail) ++ "e"
    ++ toString d.scientificExponent

/-- Positional from `1e-5` to below `1e16` and always with a point; scientific beyond. -/
def compact (d : Decimal) : String :=
  let e := d.scientificExponent
  if d.digits = 0 then "0.0"
  else if -5 ≤ e && e < 16 then
    if d.exponent ≥ 0 then positional d ++ ".0" else positional d
  else scientific d

def signed (finite : Float → String) (x : Float) : String :=
  if Binary64.isNaN x then "NaN"
  else
    (if Binary64.isNegative x then "-" else "") ++
      (if Binary64.isFinite x then finite x else "inf")

def plainText (x : Float) : String := signed (fun x => positional (ofFloat x)) x

def compactText (x : Float) : String := signed (fun x => compact (ofFloat x)) x

/-- The exact value rounded to `places` decimals, a half going to the even digit. -/
def fixedText (places : Nat) (x : Float) : String :=
  signed (fun x =>
    let r := Ratio.ofBinary (Binary64.mantissa x) (Binary64.exponent x)
    pointed (Ratio.nearest (r.shift (-(places : Int)))) places) x

def scientificText (places : Nat) (x : Float) : String :=
  signed (fun x =>
    let m := Binary64.mantissa x
    let e := Binary64.exponent x
    let k := if m = 0 then 0 else magnitude m e
    let n := Ratio.nearest ((Ratio.ofBinary m e).shift (k - places))
    let (n, k) := if n ≥ Nat.pow 10 (places + 1) then (n / 10, k + 1) else (n, k)
    pointed n places ++ "e" ++ toString k) x

end Decimal
end Backtest
