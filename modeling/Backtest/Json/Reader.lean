import Backtest.Decimal.Reader
import Backtest.Json.Basic

namespace Backtest
namespace Json

def skipBlanks (cs : List Char) : List Char :=
  cs.dropWhile fun c => c == ' ' || c == '\t' || c == '\n' || c == '\r'

def readWord (word : List Char) (cs : List Char) : Option (List Char) :=
  if word.isPrefixOf cs then some (cs.drop word.length) else none

def hexValue? (c : Char) : Option Nat :=
  let n := c.toNat
  if 48 ≤ n && n ≤ 57 then some (n - 48)
  else if 97 ≤ n && n ≤ 102 then some (n - 87)
  else if 65 ≤ n && n ≤ 70 then some (n - 55)
  else none

def readUnit : List Char → Option (Nat × List Char)
  | a :: b :: c :: d :: rest => do
    let n := ((← hexValue? a) * 16 + (← hexValue? b)) * 256 + (← hexValue? c) * 16 + (← hexValue? d)
    some (n, rest)
  | _ => none

/-- The code point behind `\u`; a high surrogate must be followed by a low one. -/
def readEscapedPoint (cs : List Char) : Option (Nat × List Char) := do
  let (high, rest) ← readUnit cs
  if 0xd800 ≤ high && high < 0xdc00 then
    match rest with
    | '\\' :: 'u' :: more =>
      let (low, rest) ← readUnit more
      if 0xdc00 ≤ low && low < 0xe000 then
        some (0x10000 + (high - 0xd800) * 0x400 + (low - 0xdc00), rest)
      else none
    | _ => none
  else if 0xdc00 ≤ high && high < 0xe000 then none
  else some (high, rest)

def readEscape : List Char → Option (Char × List Char)
  | 'u' :: cs => (readEscapedPoint cs).map fun (n, rest) => (Char.ofNat n, rest)
  | c :: cs =>
    ([('"', '"'), ('\\', '\\'), ('/', '/'), ('b', '\x08'), ('f', '\x0c'), ('n', '\n'), ('r', '\r'),
      ('t', '\t')].lookup c).map (·, cs)
  | [] => none

/-- The characters of a text up to its closing quote, latest first in `done`. -/
def readQuoted : Nat → List Char → List Char → Option (String × List Char)
  | 0, _, _ => none
  | _ + 1, _, [] => none
  | fuel + 1, done, c :: cs =>
    if c = '"' then some (String.ofList done.reverse, cs)
    else if c = '\\' then do
      let (e, rest) ← readEscape cs
      readQuoted fuel (e :: done) rest
    else if c.toNat < 32 then none
    else readQuoted fuel (c :: done) cs

def readPlaces : List Char → Option (List Char × List Char)
  | '.' :: cs =>
    let (digits, rest) := Decimal.spanDigits cs
    if digits.isEmpty then none else some (digits, rest)
  | cs => some ([], cs)

def readPower (cs : List Char) : Option (Option Int × List Char) :=
  match cs with
  | c :: more =>
    if c = 'e' || c = 'E' then
      let (negative, body) := Decimal.takeSign more
      let (digits, rest) := Decimal.spanDigits body
      if digits.isEmpty then none
      else
        let n : Int := Decimal.digitsValue 0 digits
        some (some (if negative then -n else n), rest)
    else some (none, cs)
  | [] => some (none, [])

/-- A whole number as a 64-bit word, signed below zero, and as a double beyond that. -/
def ofWhole (negative : Bool) (n : Nat) : Json :=
  if negative then
    if n = 0 || n > 9223372036854775808 then number (-(Decimal.toFloat n 0)) else integer (-(n : Int))
  else if n > 18446744073709551615 then number (Decimal.toFloat n 0)
  else integer n

/-- A number; one beyond the doubles is refused. -/
def readNumber (cs : List Char) : Option (Json × List Char) := do
  let (negative, body) := match cs with
    | '-' :: rest => (true, rest)
    | _ => (false, cs)
  let (front, rest) := Decimal.spanDigits body
  if front.isEmpty || (front.length > 1 && front.head? == some '0') then none
  else
    let (back, rest) ← readPlaces rest
    let (power, rest) ← readPower rest
    let m := Decimal.digitsValue (Decimal.digitsValue 0 front) back
    if back.isEmpty && power.isNone then
      match ofWhole negative m with
      | number x => if Binary64.isFinite x then some (number x, rest) else none
      | j => some (j, rest)
    else
      let x := Decimal.toFloat m (power.getD 0 - back.length)
      if Binary64.isFinite x then some (number (if negative then -x else x), rest) else none

mutual

def readValue : Nat → List Char → Option (Json × List Char)
  | 0, _ => none
  | fuel + 1, cs =>
    match skipBlanks cs with
    | '"' :: rest => (readQuoted (rest.length + 1) [] rest).map fun (s, rest) => (text s, rest)
    | '[' :: rest =>
      match skipBlanks rest with
      | ']' :: rest => some (array [], rest)
      | _ => (readItems fuel rest).map fun (items, rest) => (array items, rest)
    | '\x7b' :: rest =>
      match skipBlanks rest with
      | '\x7d' :: rest => some (object [], rest)
      | _ => (readMembers fuel rest).map fun (members, rest) => (object members, rest)
    | 't' :: rest => (readWord ['r', 'u', 'e'] rest).map (bool true, ·)
    | 'f' :: rest => (readWord ['a', 'l', 's', 'e'] rest).map (bool false, ·)
    | 'n' :: rest => (readWord ['u', 'l', 'l'] rest).map (null, ·)
    | cs => readNumber cs

def readItems : Nat → List Char → Option (List Json × List Char)
  | 0, _ => none
  | fuel + 1, cs => do
    let (item, rest) ← readValue fuel cs
    match skipBlanks rest with
    | ',' :: rest =>
      let (items, rest) ← readItems fuel rest
      some (item :: items, rest)
    | ']' :: rest => some ([item], rest)
    | _ => none

def readMembers : Nat → List Char → Option (List (String × Json) × List Char)
  | 0, _ => none
  | fuel + 1, cs => do
    match skipBlanks cs with
    | '"' :: rest =>
      let (name, rest) ← readQuoted (rest.length + 1) [] rest
      match skipBlanks rest with
      | ':' :: rest =>
        let (value, rest) ← readValue fuel rest
        match skipBlanks rest with
        | ',' :: rest =>
          let (members, rest) ← readMembers fuel rest
          some ((name, value) :: members, rest)
        | '\x7d' :: rest => some ([(name, value)], rest)
        | _ => none
      | _ => none
    | _ => none

end

/-- The value that a whole text writes. Each step of the reader consumes a character, so twice the
length bounds the steps. -/
def read? (s : String) : Option Json := do
  let cs := s.toList
  let (j, rest) ← readValue (2 * cs.length + 2) cs
  if (skipBlanks rest).isEmpty then some j else none

end Json
end Backtest
