import Backtest.Decimal.Notation

namespace Backtest

inductive Json where
  | null
  | bool (b : Bool)
  | integer (n : Int)
  | number (x : Float)
  | text (s : String)
  | array (items : List Json)
  | object (members : List (String × Json))

namespace Json

def twoHexDigits (n : Nat) : List Char :=
  let digit (d : Nat) := Char.ofNat (if d < 10 then 48 + d else 87 + d)
  [digit (n / 16 % 16), digit (n % 16)]

def escape (c : Char) : List Char :=
  match c.toNat with
  | 0x22 => ['\\', '"']
  | 0x5c => ['\\', '\\']
  | 8 => ['\\', 'b']
  | 9 => ['\\', 't']
  | 10 => ['\\', 'n']
  | 12 => ['\\', 'f']
  | 13 => ['\\', 'r']
  | n => if n < 32 then ['\\', 'u', '0', '0'] ++ twoHexDigits n else [c]

def quoted (s : String) : String :=
  "\"" ++ String.ofList (s.toList.flatMap escape) ++ "\""

/-- A double in shortest digits; what is not finite has no number and becomes `null`. -/
def numberText (x : Float) : String :=
  if Binary64.isFinite x then Decimal.compactText x else "null"

def render : Json → String
  | null => "null"
  | bool b => if b then "true" else "false"
  | integer n => toString n
  | number x => numberText x
  | text s => quoted s
  | array items => "[" ++ ",".intercalate (items.attach.map fun ⟨j, _⟩ => render j) ++ "]"
  | object members =>
    "\x7b" ++ ",".intercalate (members.attach.map fun ⟨m, _⟩ => quoted m.1 ++ ":" ++ render m.2)
      ++ "\x7d"
termination_by j => sizeOf j
decreasing_by
  · simp_wf; have := List.sizeOf_lt_of_mem ‹_›; omega
  · simp_wf
    have h := List.sizeOf_lt_of_mem ‹_›
    have : sizeOf m = 1 + sizeOf m.1 + sizeOf m.2 := by cases m; simp
    omega

def renderLines (members : List (String × Json)) : String :=
  "\x7b\n" ++ ",\n".intercalate (members.map fun m => "  " ++ quoted m.1 ++ ": " ++ render m.2)
    ++ "\n\x7d"

end Json
end Backtest
