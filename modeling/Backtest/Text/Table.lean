import Backtest.Text.Blank

namespace Backtest
namespace Table

inductive Place where
  | recordStart | fieldStart | plain | quoted
  /-- Behind a quote inside a quoted field. -/
  | quoteSeen
deriving Repr, DecidableEq

/-- What has been read, the latest first. -/
structure Scan where
  place : Place
  field : List UInt8
  fields : List (List UInt8)
  records : List (List (List UInt8))

namespace Scan

def start : Scan := ⟨.recordStart, [], [], []⟩

def push (s : Scan) (c : UInt8) (place : Place) : Scan :=
  { s with place := place, field := c :: s.field }

def endField (s : Scan) : Scan :=
  { s with place := .fieldStart, field := [], fields := s.field.reverse :: s.fields }

def endRecord (s : Scan) : Scan :=
  ⟨.recordStart, [], [], (s.field.reverse :: s.fields).reverse :: s.records⟩

def comma : UInt8 := 0x2c
def quote : UInt8 := 0x22
def isLineEnd (c : UInt8) : Bool := c == 0x0d || c == 0x0a

def plainByte (s : Scan) (c : UInt8) : Scan :=
  if c == comma then s.endField else if isLineEnd c then s.endRecord else s.push c .plain

def step (s : Scan) (c : UInt8) : Scan :=
  match s.place with
  | .recordStart =>
    if isLineEnd c then s
    else if c == quote then { s with place := .quoted }
    else s.plainByte c
  | .fieldStart => if c == quote then { s with place := .quoted } else s.plainByte c
  | .plain => s.plainByte c
  | .quoted => if c == quote then { s with place := .quoteSeen } else s.push c .quoted
  | .quoteSeen => if c == quote then s.push c .quoted else s.plainByte c

def finish (s : Scan) : List (List (List UInt8)) :=
  (if s.place = .recordStart then s.records else s.endRecord.records).reverse

end Scan

def dropMark : List UInt8 → List UInt8
  | 0xef :: 0xbb :: 0xbf :: rest => rest
  | bytes => bytes

def records (content : ByteArray) : List (List (List UInt8)) :=
  ((dropMark content.toList).foldl Scan.step .start).finish

/-- The text of a field without blanks around it, if its bytes are valid. -/
def fieldText? (bytes : List UInt8) : Option String :=
  (String.fromUTF8? ⟨bytes.toArray⟩).map trimText

def recordTexts? (fields : List (List UInt8)) : Option (List String) := fields.mapM fieldText?

/-- A field as written: in quotes if it holds the separator, a quote or a line end. -/
def writeField (separator : Char) (s : String) : String :=
  let special (c : Char) : Bool := c == separator || c == '"' || c == '\n' || c == '\r'
  if s.toList.any special then
    let doubled := s.toList.flatMap fun c => if c == '"' then ['"', '"'] else [c]
    "\"" ++ String.ofList doubled ++ "\""
  else s

def writeRecord (separator : Char) (fields : List String) : String :=
  (String.singleton separator).intercalate (fields.map (writeField separator))

def write (separator : Char) (rows : List (List String)) : String :=
  String.join (rows.map fun row => writeRecord separator row ++ "\n")

end Table
end Backtest
