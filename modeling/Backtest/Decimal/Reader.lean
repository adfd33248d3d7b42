import Backtest.Binary64

namespace Backtest
namespace Decimal

inductive ReadError where
  | empty
  | invalid
deriving Repr, DecidableEq

def ReadError.message : ReadError → String
  | .empty => "cannot parse float from empty string"
  | .invalid => "invalid float literal"

def digitsValue (start : Nat) (cs : List Char) : Nat :=
  cs.foldl (fun n c => 10 * n + (c.toNat - '0'.toNat)) start

def spanDigits (cs : List Char) : List Char × List Char :=
  (cs.takeWhile Char.isDigit, cs.dropWhile Char.isDigit)

def takeSign : List Char → Bool × List Char
  | '+' :: cs => (false, cs)
  | '-' :: cs => (true, cs)
  | cs => (false, cs)

/-- A natural number without blanks; a plus and leading zeros are allowed. -/
def readNat (cs : List Char) : Option Nat :=
  let body := match cs with
    | '+' :: rest => rest
    | _ => cs
  if !body.isEmpty && body.all Char.isDigit then some (digitsValue 0 body) else none

/-- The double nearest to `m · 10 ^ e`. Beyond 400 digits on either side of the point every number
is infinite or zero. -/
def toFloat (m : Nat) (e : Int) : Float :=
  if m = 0 then 0.0
  else
    let top := ((toString m).length : Int) + e
    if top > 400 then Binary64.infinity
    else if top < -400 then 0.0
    else Float.ofScientific m (e < 0) e.natAbs

def readExponent (cs : List Char) : Option Int :=
  let (negative, body) := takeSign cs
  if !body.isEmpty && body.all Char.isDigit then
    some (if negative then -(digitsValue 0 body : Int) else digitsValue 0 body)
  else none

def readUnsigned (cs : List Char) : Option Float := do
  let (front, rest) := spanDigits cs
  let (back, rest) := match rest with
    | '.' :: more => spanDigits more
    | _ => ([], rest)
  if front.isEmpty && back.isEmpty then none
  else
    let m := digitsValue (digitsValue 0 front) back
    let e ← match rest with
      | [] => some 0
      | c :: more => if c == 'e' || c == 'E' then readExponent more else none
    some (toFloat m (e - back.length))

/-- A double in decimal or by name: `inf`, `infinity` or `nan` in any case, after an optional sign. -/
def read (text : String) : Except ReadError Float :=
  if text.isEmpty then .error .empty
  else
    let (negative, body) := takeSign text.toList
    let name := String.ofList (body.map Char.toLower)
    let value :=
      if name == "inf" || name == "infinity" then some Binary64.infinity
      else if name == "nan" then some (0.0 / 0.0)
      else readUnsigned body
    match value with
    | some x => .ok (if negative then -x else x)
    | none => .error .invalid

end Decimal
end Backtest
