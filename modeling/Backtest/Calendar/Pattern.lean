import Backtest.Calendar.Timestamp
import Backtest.Decimal.Reader
import Backtest.Text.Blank

namespace Backtest

/-- The numbers a pattern can ask for. `shortYear` stands for 1970 to 2069 in two digits. -/
inductive DateField where
  | year | shortYear | month | day | hour | minute | second
deriving Repr, DecidableEq

inductive PatternPiece where
  | field (f : DateField)
  /-- Zero or more blanks. -/
  | blanks
  | mark (c : Char)
deriving Repr, DecidableEq

abbrev DatePattern := List PatternPiece

namespace DateField

def ofLetter : Char → Option DateField
  | 'Y' => some .year
  | 'y' => some .shortYear
  | 'm' => some .month
  | 'd' => some .day
  | 'H' => some .hour
  | 'M' => some .minute
  | 'S' => some .second
  | _ => none

def width : DateField → Nat
  | .year => 4
  | _ => 2

/-- Values a field admits by itself; second 60 is a leap second. -/
def admits (f : DateField) (n : Int) : Bool :=
  match f with
  | .year => true
  | .shortYear => 0 ≤ n && n ≤ 99
  | .month => 1 ≤ n && n ≤ 12
  | .day => 1 ≤ n && n ≤ 31
  | .hour => 0 ≤ n && n ≤ 23
  | .minute => 0 ≤ n && n ≤ 59
  | .second => 0 ≤ n && n ≤ 60

def readDigits (width : Nat) (cs : List Char) : Option (Nat × List Char) :=
  let digits := (cs.take width).takeWhile Char.isDigit
  if digits.isEmpty then none
  else some (Decimal.digitsValue 0 digits, cs.drop digits.length)

/-- A number after leading blanks. Only a year may carry a sign, and then any number of digits. -/
def read (f : DateField) (cs : List Char) : Option (Int × List Char) :=
  let cs := cs.dropWhile isBlank
  match f, cs with
  | .year, '+' :: rest => (readDigits rest.length rest).map fun (n, cs) => ((n : Int), cs)
  | .year, '-' :: rest => (readDigits rest.length rest).map fun (n, cs) => (-(n : Int), cs)
  | f, cs => (readDigits f.width cs).map fun (n, cs) => ((n : Int), cs)

end DateField

abbrev DateReading := List (DateField × Int)

namespace DateReading

def find (r : DateReading) (f : DateField) : Option Int := r.lookup f

/-- Adds a number that the field admits; a field named twice must read the same. -/
def add (r : DateReading) (f : DateField) (n : Int) : Option DateReading :=
  if f.admits n && (r.find f).all (· == n) then some ((f, n) :: r) else none

def year? (r : DateReading) : Option Int :=
  match r.find .year, r.find .shortYear with
  | some y, none => some y
  | none, some s => some (if s < 70 then 2000 + s else 1900 + s)
  | some y, some s => if 0 ≤ y && y % 100 = s then some y else none
  | none, none => none

def date? (r : DateReading) : Option Date := do
  let d : Date := ⟨← r.year?, (← r.find .month).toNat, (← r.find .day).toNat⟩
  if d.isValid then some d else none

/-- The date and time; seconds may be left out, and second 60 counts as the one before it. -/
def dateTime? (r : DateReading) : Option DateTime := do
  let date ← r.date?
  let hour ← r.find .hour
  let minute ← r.find .minute
  let second := (r.find .second).getD 0
  some ⟨date, hour.toNat, minute.toNat, (min second 59).toNat⟩

end DateReading

namespace DatePattern

def ofChars : List Char → Option DatePattern
  | [] => some []
  | '%' :: c :: cs => do
    let f ← DateField.ofLetter c
    let rest ← ofChars cs
    some (.field f :: rest)
  | '%' :: [] => none
  | c :: cs => do
    let rest ← ofChars cs
    some ((if isBlank c then .blanks else .mark c) :: rest)

def readFrom : DatePattern → DateReading → List Char → Option DateReading
  | [], r, cs => if cs.isEmpty then some r else none
  | .blanks :: ps, r, cs => readFrom ps r (cs.dropWhile isBlank)
  | .mark m :: ps, r, cs =>
    match cs with
    | c :: rest => if c = m then readFrom ps r rest else none
    | [] => none
  | .field f :: ps, r, cs => do
    let (n, rest) ← f.read cs
    let r ← r.add f n
    readFrom ps r rest

def readDate (p : DatePattern) (cs : List Char) : Option Date :=
  (readFrom p [] cs).bind DateReading.date?

def readDateTime (p : DatePattern) (cs : List Char) : Option DateTime :=
  (readFrom p [] cs).bind DateReading.dateTime?

open PatternPiece DateField

def isoDate : DatePattern := [field year, mark '-', field month, mark '-', field day]

def clock : DatePattern := [blanks, field hour, mark ':', field minute]

def shortDate : DatePattern := [field day, mark '/', field month, mark '/', field shortYear]

def longDate : DatePattern := [field day, mark '/', field month, mark '/', field year]

def isoDateTime : DatePattern := isoDate ++ clock ++ [mark ':', field second]

end DatePattern

def readMoment? (pattern value : String) : Option Int := do
  let p ← DatePattern.ofChars pattern.toList
  (p.readDateTime value.toList).map DateTime.toSeconds

/-- A window boundary in unix seconds: a moment, or a date, which stands for its midnight. -/
def readRunDate? (value : String) : Option Int :=
  let cs := trimBlanks value.toList
  match DatePattern.isoDateTime.readDateTime cs with
  | some t => some t.toSeconds
  | none =>
    [DatePattern.shortDate, DatePattern.longDate, DatePattern.isoDate].findSome? fun p =>
      (p.readDate cs).map fun d => DateTime.toSeconds ⟨d, 0, 0, 0⟩

def readHistoryTime? (value : String) : Option Int :=
  let cs := trimBlanks value.toList
  [DatePattern.shortDate ++ DatePattern.clock, DatePattern.longDate ++ DatePattern.clock,
    DatePattern.isoDateTime, DatePattern.isoDate ++ DatePattern.clock].findSome? fun p =>
      (p.readDateTime cs).map DateTime.toSeconds

end Backtest
