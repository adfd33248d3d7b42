import Backtest.Arith

namespace Backtest

/-- Market orders, and orders that wait for their entry price. -/
inductive OrderKind where
  | buy | sell | buyLimit | sellLimit | buyStop | sellStop
deriving Repr, DecidableEq

namespace OrderKind

def all : List OrderKind := [.buy, .sell, .buyLimit, .sellLimit, .buyStop, .sellStop]

def code : OrderKind → Nat
  | .buy => 0
  | .sell => 1
  | .buyLimit => 2
  | .sellLimit => 3
  | .buyStop => 4
  | .sellStop => 5

def ofCode? (code : Int) : Option OrderKind := all.find? fun k => (k.code : Int) == code

def isBuy : OrderKind → Bool
  | .buy | .buyLimit | .buyStop => true
  | _ => false

def isPending : OrderKind → Bool
  | .buy | .sell => false
  | _ => true

def filled (k : OrderKind) : OrderKind := if k.isBuy then .buy else .sell

def label : OrderKind → String
  | .buy => "buy"
  | .sell => "sell"
  | .buyLimit => "buylimit"
  | .sellLimit => "selllimit"
  | .buyStop => "buystop"
  | .sellStop => "sellstop"

def direction {α : Type} [Arith α] (k : OrderKind) : α := if k.isBuy then 1 else -1

/-- The kinds of one side, in the order in which a record is read. -/
def buySide : List OrderKind := [.buy, .buyLimit, .buyStop]
def sellSide : List OrderKind := [.sell, .sellLimit, .sellStop]

end OrderKind

inductive Verb where
  | place | close | update
deriving Repr, DecidableEq

/-- The bit of a record's signal word for an order kind and a verb: three bits for each kind, the buy
side from bit 0 and the sell side from bit 16. -/
def signalBit (k : OrderKind) (v : Verb) : Nat :=
  let first := match k with
    | .buy => 0
    | .buyLimit => 3
    | .buyStop => 6
    | .sell => 16
    | .sellLimit => 19
    | .sellStop => 22
  first + match v with
    | .place => 0
    | .close => 1
    | .update => 2

def signalMask (k : OrderKind) (v : Verb) : Nat := 1 <<< signalBit k v

/-- The ticket that addresses every order of a kind. -/
def everyTicket : Int := -1

/-- One record of an engine's answer. Stop distances count from the entry price. -/
structure Instruction (α : Type) where
  ticketNumber : α
  signals : α
  lots : α
  entryPrice : α
  stopDistance : α
  profitDistance : α
  internalStop : α
  internalProfit : α
  trailing : α
  expiration : α
deriving Repr

namespace Instruction

variable {α : Type} [Arith α]

/-- The record that a list of numbers holds; numbers left out are zero. -/
def ofList (xs : List α) : Instruction α :=
  let nth (i : Nat) := xs[i]?.getD 0
  ⟨nth 0, nth 1, nth 2, nth 3, nth 4, nth 5, nth 6, nth 7, nth 8, nth 9⟩

def toList (r : Instruction α) : List α :=
  [r.ticketNumber, r.signals, r.lots, r.entryPrice, r.stopDistance, r.profitDistance,
   r.internalStop, r.internalProfit, r.trailing, r.expiration]

def blank : Instruction α := ofList []

def demand (kind : OrderKind) (verb : Verb) (ticket : Int) : Instruction α :=
  { blank with
    ticketNumber := Arith.ofInt ticket
    signals := Arith.ofCount (signalMask kind verb) }

/-- The signal word as a 32-bit number; zero unless the signals are positive. -/
def word (r : Instruction α) : Nat := if r.signals > 0 then Arith.toWord32 r.signals else 0

def ticket (r : Instruction α) : Int := Arith.toInt64 r.ticketNumber

def asks (r : Instruction α) (k : OrderKind) (v : Verb) : Bool := r.word.testBit (signalBit k v)

end Instruction

inductive Action (α : Type) where
  | place (kind : OrderKind) (r : Instruction α)
  | close (kind : OrderKind) (ticket : Int)
  | update (kind : OrderKind) (ticket : Int) (r : Instruction α)
deriving Repr

namespace Instruction

variable {α : Type} [Arith α]

def sideActions (r : Instruction α) (side : List OrderKind) : List (Action α) :=
  (side.filter (r.asks · .place)).map (.place · r) ++
    (side.filter (r.asks · .close)).map (.close · r.ticket) ++
    (side.filter (r.asks · .update)).map (.update · r.ticket r)

/-- The demands of a record, the buy side first. -/
def actions (r : Instruction α) : List (Action α) :=
  r.sideActions OrderKind.buySide ++ r.sideActions OrderKind.sellSide

end Instruction
end Backtest
