import Backtest.Engine.Basic

namespace Backtest

def movingAverage {α : Type} [Arith α] (values : List α) (window : Nat) : Option α :=
  if window = 0 ∨ values.length < window then none
  else some (Arith.total (values.drop (values.length - window)) / Arith.ofCount window)

structure AverageCross (α : Type) where
  shortWindow : Nat
  longWindow : Nat
  lots : α
deriving Repr, DecidableEq

namespace AverageCross

def path : String := "average-cross"

def version : Nat × Nat × Nat := (1, 0, 0)

abbrev Started := List Int

def start (ids : Started) (id : Int) : Started × Int :=
  if ids.contains id then (ids, EngineCode.tooManyInstances.toInt)
  else (ids ++ [id], EngineCode.success.toInt)

def release (ids : Started) (id : Int) : Started × Int :=
  if ids.contains id then (ids.erase id, EngineCode.success.toInt)
  else (ids, EngineCode.unknownInstanceId.toInt)

variable {α : Type} [Arith α]

/-- A tenth of a lot is traded where no lots are set. The short window must be the shorter one. -/
def ofSettings? (v : SlotVector α) : Option (AverageCross α) :=
  let short := Arith.toCount v[0]
  let long := Arith.toCount v[1]
  let lots := if v[2] > 0 then v[2] else 0.1
  if short = 0 ∨ short ≥ long then none else some ⟨short, long, lots⟩

/-- Turns to one side: closes the other one if it is held, and opens this one. -/
def turn (c : AverageCross α) (side other : OrderKind) (held : List OrderKind) : List (Instruction α) :=
  (if held.contains other then [.demand other .close everyTicket] else []) ++
    [{ Instruction.demand side .place 0 with lots := c.lots }]

/-- The demands on a bar, from the closing prices, oldest first, and the order kinds held. Nothing is
asked for while there are too few prices, or the side is held already. -/
def signals (c : AverageCross α) (closes : List α) (held : List OrderKind) : List (Instruction α) :=
  match movingAverage closes c.shortWindow, movingAverage closes c.longWindow with
  | some short, some long =>
    if short > long ∧ ¬ held.contains .buy then c.turn .buy .sell held
    else if short < long ∧ ¬ held.contains .sell then c.turn .sell .buy held
    else []
  | _, _ => []

def recordSize : Nat := 10

/-- Numbers in a result, which has a record for each order that may be open. -/
def resultSize (v : SlotVector α) : Nat := recordSize * v.orderLimit

/-- Records in a result of `room` places: those that fit, and blank ones behind them. -/
def fitted (room : Nat) (records : List (Instruction α)) : List (Instruction α) :=
  records.take room ++ List.replicate (room - records.length) .blank

def answer (ids : Started) (settings : Option (SlotVector α)) (closes : Option (List α))
    (held : List OrderKind) : EngineAnswer α :=
  match settings, closes with
  | some v, some closes =>
    if !ids.contains (Arith.whole (-2147483648) 2147483647 (v.get Slot.instanceId)) then
      .failure EngineCode.unknownInstanceId.toInt
    else
      match ofSettings? v with
      | none => .failure EngineCode.invalidParameter.toInt
      | some c => .success (fitted (resultSize v / recordSize) (c.signals closes held))
  | _, _ => .failure EngineCode.nullPointer.toInt

/-- Texts are handed over with a zero character at their end, so they must not hold one. -/
def isPassable (text : String) : Bool := !text.toList.contains '\x00'

/-- The closing prices of the first buffer; a buffer without bars is not handed over. -/
def closes? (x : Snapshot α) : Option (List α) :=
  match x.buffers with
  | [] => none
  | view :: _ => if view.bars.isEmpty then none else some (view.bars.toList.map Bar.close)

def engine : Engine α Started where
  version := version
  start ids r :=
    if isPassable r.config && isPassable r.accountLabel then start ids r.instanceId
    else (ids, EngineCode.invalidConfig.toInt)
  call ids x :=
    let texts := [x.symbol, x.accountCurrency, x.broker, x.referenceBroker]
    if texts.all isPassable then
      (ids, answer ids (some x.settings) (closes? x) (x.orders.map (·.kind)))
    else (ids, .failure EngineCode.invalidParameter.toInt)
  release ids id := (release ids id).1

end AverageCross
end Backtest
