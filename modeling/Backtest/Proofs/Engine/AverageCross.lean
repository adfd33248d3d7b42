import Backtest.Engine.AverageCross
import Backtest.Proofs.Binary64.Order
import Backtest.Proofs.OrderBook.Bare
import Backtest.Proofs.OrderBook.Reflection

namespace Backtest

theorem SlotVector.one_le_orderLimit (v : SlotVector Float) : 1 ≤ v.orderLimit := by
  unfold orderLimit Arith.larger
  split
  next => decide +kernel
  next notBelow =>
    split
    next number =>
      have whole : 1 ≤ Arith.whole 0 Arith.maxWord64 (v.get Slot.orderLimit) :=
        Binary64.one_le_whole (by decide) (Binary64.isNaN_of_beq_self number) notBelow
      exact (Int.le_toNat (by omega)).mpr whole
    next => decide +kernel

def Verb.action {α : Type} [Arith α] (verb : Verb) (kind : OrderKind) (r : Instruction α) : Action α :=
  match verb with
  | .place => .place kind r
  | .close => .close kind r.ticket
  | .update => .update kind r.ticket r

theorem signalBit_inj {k l : OrderKind} {v w : Verb} :
    signalBit k v = signalBit l w ↔ k = l ∧ v = w := by
  cases k <;> cases l <;> cases v <;> cases w <;> decide

theorem OrderKind.eq_mirror_of_ne {side kind : OrderKind} (hside : side.isPending = false)
    (hkind : kind.isPending = false) (h : kind ≠ side) : kind = side.mirror := by
  revert hside hkind h
  cases side <;> cases kind <;> decide

namespace Instruction

section Word

variable {α : Type} [Arith α] {r : Instruction α} {kind : OrderKind} {verb : Verb}

/-- A record whose word has one bit asks for one thing. -/
theorem actions_of_word (h : r.word = signalMask kind verb) : r.actions = [verb.action kind r] := by
  have asks (k : OrderKind) (v : Verb) : r.asks k v = decide (k = kind ∧ v = verb) := by
    rw [asks, h, signalMask, Nat.one_shiftLeft, Nat.testBit_two_pow, decide_eq_decide, eq_comm,
      signalBit_inj]
  unfold actions sideActions
  cases kind <;> cases verb <;> simp [asks, OrderKind.buySide, OrderKind.sellSide, Verb.action]

theorem actions_of_word_eq_zero (h : r.word = 0) : r.actions = [] := by
  have asks (k : OrderKind) (v : Verb) : r.asks k v = false := by
    rw [asks, h, Nat.zero_testBit]
  unfold actions sideActions
  simp [asks]

end Word

theorem word_of_signals {r : Instruction Float} {kind : OrderKind} {verb : Verb}
    (h : r.signals = Arith.ofCount (signalMask kind verb)) : r.word = signalMask kind verb := by
  unfold word
  rw [h]
  cases kind <;> cases verb <;> decide +kernel

theorem actions_blank : (blank : Instruction Float).actions = [] :=
  actions_of_word_eq_zero (by decide +kernel)

end Instruction

namespace AverageCross

section Side

variable {α : Type} [Arith α]

/-- The side that the averages of closing prices point to, if there are enough prices and the averages
differ. -/
def side? (c : AverageCross α) (closes : List α) : Option OrderKind :=
  match movingAverage closes c.shortWindow, movingAverage closes c.longWindow with
  | some short, some long =>
    if short > long then some .buy else if short < long then some .sell else none
  | _, _ => none

theorem isPending_of_side? {c : AverageCross α} {closes : List α} {side : OrderKind}
    (h : c.side? closes = some side) : side.isPending = false := by
  unfold side? at h
  split at h
  next =>
    split at h
    next =>
      cases h
      rfl
    next =>
      split at h
      next =>
        cases h
        rfl
      next => cases h
  next => cases h

def opening (c : AverageCross α) (side : OrderKind) : Instruction α :=
  { Instruction.demand side .place 0 with lots := c.lots }

/-- A side that is held already is left alone. The averages never point to both sides. -/
theorem signals_eq (asymm : ∀ a b : α, a > b → ¬ a < b) (c : AverageCross α) (closes : List α)
    (held : List OrderKind) :
    c.signals closes held =
      match c.side? closes with
      | some side => if held.contains side then [] else c.turn side side.mirror held
      | none => [] := by
  unfold signals side?
  generalize movingAverage closes c.shortWindow = short
  generalize movingAverage closes c.longWindow = long
  cases short with
  | none => rfl
  | some short =>
    cases long with
    | none => rfl
    | some long =>
      dsimp only
      by_cases above : short > long
      · have below := asymm short long above
        rw [if_pos above]
        by_cases hheld : held.contains .buy
        · simp only [hheld, below, not_true_eq_false, and_false, false_and, if_false, if_true]
        · rw [if_pos ⟨above, hheld⟩]
          exact (if_neg hheld).symm
      · rw [if_neg above, if_neg fun both => above both.1]
        by_cases below : short < long
        · rw [if_pos below]
          by_cases hheld : held.contains .sell
          · rw [if_neg fun both => both.2 hheld]
            exact (if_pos hheld).symm
          · rw [if_pos ⟨below, hheld⟩]
            exact (if_neg hheld).symm
        · rw [if_neg below, if_neg fun both => below both.1]

omit [Arith α] in
theorem div_recordSize (n : Nat) : recordSize * n / recordSize = n := Nat.mul_div_cancel_left n (by decide)

/-- A result that can be laid out: its numbers, of eight bytes each, take no more than half of what a word
addresses. -/
def Sized (v : SlotVector α) : Prop := 8 * resultSize v < wordRange / 2

instance (v : SlotVector α) : Decidable (Sized v) := inferInstanceAs (Decidable (_ < _))

theorem call_records {σ : Type} {part : σ → Started} {put : σ → Started → σ} {world : σ}
    {x : Snapshot α} (h : ((engine.focus part put).call world x).2.succeeded = true) :
    ∃ c closes, ofSettings? x.settings = some c ∧ closes? x = some closes ∧
      ((engine.focus part put).call world x).2.records =
        fitted x.settings.orderLimit (c.signals closes (x.orders.map (·.kind))) := by
  revert h
  change (engine.call (part world) x).2.succeeded = true →
    ∃ c closes, _ ∧ _ ∧ (engine.call (part world) x).2.records = _
  unfold engine answer
  dsimp only
  split
  next =>
    split
    next v closes hv hcloses =>
      cases hv
      split
      next => exact fun h => nomatch h
      next =>
        split
        next => exact fun h => nomatch h
        next c accepted =>
          refine fun _ => ⟨c, closes, accepted, hcloses, ?_⟩
          rw [resultSize, div_recordSize]
          rfl
    next => exact fun h => nomatch h
  next => exact fun h => nomatch h

end Side

variable {c : AverageCross Float} {room : Nat}

/-- Of a result only the records that fit ask for anything. -/
theorem actions_fitted (room : Nat) (records : List (Instruction Float)) :
    (fitted room records).flatMap Instruction.actions =
      (records.take room).flatMap Instruction.actions := by
  unfold fitted
  rw [List.flatMap_append, List.flatMap_replicate, Instruction.actions_blank]
  simp

theorem actions_opening (c : AverageCross Float) (side : OrderKind) :
    (c.opening side).actions = [.place side (c.opening side)] := by
  have word : (c.opening side).word = signalMask side .place := Instruction.word_of_signals rfl
  exact Instruction.actions_of_word word

theorem actions_closing (side : OrderKind) :
    (Instruction.demand side .close everyTicket : Instruction Float).actions =
      [.close side everyTicket] := by
  have word := Instruction.word_of_signals (r := .demand side .close everyTicket) rfl
  have every : Arith.toInt64 (Arith.ofInt everyTicket : Float) = everyTicket := by decide +kernel
  rw [Instruction.actions_of_word word]
  exact congrArg (fun ticket => [Action.close side ticket]) every

section Turn

variable {b : OrderBook Float} {q : Quote Float} {side : OrderKind}

theorem turn_eq (c : AverageCross Float) (side other : OrderKind) (held : List OrderKind) :
    c.turn side other held =
      (if held.contains other then [.demand other .close everyTicket] else []) ++ [c.opening side] :=
  rfl

theorem act_opening (market : side.isPending = false) (empty : b.openOrders = [])
    (limit : 0 < b.orderLimit) (lotted : ¬ roundLots c.lots b.account.minLot ≤ 0) :
    ∃ placed, b.act q (.place side (c.opening side)) = .ok placed ∧ placed.Bare q.time ∧
      placed.kinds = [side] := by
  obtain ⟨placed, ticket, eq, bare, kinds⟩ :=
    OrderBook.place_bare (r := c.opening side) (q := q) market empty limit lotted rfl rfl
  exact ⟨placed, congrArg (Except.map Prod.fst) eq, bare, kinds⟩

theorem applyRecords_turn_of_empty (market : side.isPending = false) (empty : b.openOrders = [])
    (hroom : 1 ≤ room) (limit : 0 < b.orderLimit)
    (lotted : ¬ roundLots c.lots b.account.minLot ≤ 0) (other : OrderKind) :
    let after := (b.applyRecords (fitted room (c.turn side other [])) q).1
    after.Bare q.time ∧ after.kinds = [side] := by
  have turn : c.turn side other [] = [c.opening side] := by
    rw [turn_eq, List.contains_nil, if_neg Bool.false_ne_true, List.nil_append]
  have actions : (fitted room (c.turn side other [])).flatMap Instruction.actions =
      [.place side (c.opening side)] := by
    rw [actions_fitted, turn, List.take_of_length_le hroom, List.flatMap_singleton, actions_opening]
  obtain ⟨placed, eq, bare, kinds⟩ := act_opening (q := q) market empty limit lotted
  unfold OrderBook.applyRecords
  rw [actions, OrderBook.actAll, eq]
  exact ⟨bare, kinds⟩

/-- With an order open on the other side, a turn closes it, and opens its own side if the result has room
for a second record. -/
theorem applyRecords_turn_of_held {o : Order Float} (market : side.isPending = false)
    (single : b.openOrders = [o]) (bare : o.IsBare) (le : o.openTime ≤ q.time)
    (hroom : 1 ≤ room) (limit : 0 < b.orderLimit)
    (lotted : ¬ roundLots c.lots b.account.minLot ≤ 0) :
    let after := (b.applyRecords (fitted room (c.turn side o.kind [o.kind])) q).1
    after.Bare q.time ∧ after.kinds = if room = 1 then [] else [side] := by
  obtain ⟨closed, closes, empty, same⟩ := OrderBook.close_single single bare.market le
  have turn : c.turn side o.kind [o.kind] =
      [.demand o.kind .close everyTicket, c.opening side] := by
    rw [turn_eq, if_pos (List.contains_iff_mem.mpr (List.mem_singleton_self _))]
    rfl
  have close : b.act q (.close o.kind everyTicket) = .ok closed := closes
  unfold OrderBook.applyRecords
  rw [actions_fitted, turn]
  by_cases one : room = 1
  · have cut : [Instruction.demand o.kind .close everyTicket, c.opening side].take room =
        [.demand o.kind .close everyTicket] := by
      rw [one, List.take_succ_cons, List.take_zero]
    rw [cut, List.flatMap_singleton, actions_closing, OrderBook.actAll, close, if_pos one]
    exact ⟨.of_nil empty _, OrderBook.kinds_of_nil empty⟩
  · have whole : [Instruction.demand o.kind .close everyTicket, c.opening side].take room =
        [.demand o.kind .close everyTicket, c.opening side] :=
      List.take_of_length_le (by simp only [List.length_cons, List.length_nil]; omega)
    rw [← same.account] at lotted
    rw [← same.orderLimit] at limit
    obtain ⟨placed, opens, bare, kinds⟩ := act_opening (q := q) market empty limit lotted
    rw [whole, List.flatMap_cons, List.flatMap_singleton, actions_closing, actions_opening,
      List.singleton_append, OrderBook.actAll, close, if_neg one]
    dsimp only
    rw [OrderBook.actAll, opens]
    exact ⟨bare, kinds⟩

/-- What a bare book comes to when the answer is applied. It holds the side that the averages point to,
unless the other side was held and the result had room for its close only. -/
theorem applyRecords_signals (bare : b.Bare q.time) (hroom : 1 ≤ room) (limit : 0 < b.orderLimit)
    (lotted : ¬ roundLots c.lots b.account.minLot ≤ 0) (closes : List Float) :
    let after := (b.applyRecords (fitted room (c.signals closes b.kinds)) q).1
    after.Bare q.time ∧ after.kinds =
      match c.side? closes with
      | some side => if room = 1 ∧ b.kinds = [side.mirror] then [] else [side]
      | none => b.kinds := by
  have silent : b.applyRecords (fitted room []) q = (b, none) := by
    unfold OrderBook.applyRecords
    rw [actions_fitted, List.take_nil, List.flatMap_nil, OrderBook.actAll]
  rw [signals_eq fun _ _ => Binary64.lt_asymm]
  cases points : c.side? closes with
  | none =>
    dsimp only
    rw [silent]
    exact ⟨bare, rfl⟩
  | some side =>
    have market := isPending_of_side? points
    dsimp only
    rcases bare.cases with empty | ⟨o, single, held, opened⟩
    · rw [OrderBook.kinds_of_nil empty, List.contains_nil, if_neg Bool.false_ne_true,
        if_neg fun both => List.cons_ne_nil _ _ both.2.symm]
      exact applyRecords_turn_of_empty market empty hroom limit lotted side.mirror
    · rw [OrderBook.kinds_of_singleton single]
      by_cases same : o.kind = side
      · have unlike : ¬ (room = 1 ∧ [o.kind] = [side.mirror]) := by
          rw [same]
          cases side <;> simp [OrderKind.mirror]
        rw [if_pos (List.contains_iff_mem.mpr (List.mem_singleton.mpr same.symm)), silent,
          if_neg unlike]
        exact ⟨bare, (OrderBook.kinds_of_singleton single).trans (congrArg ([·]) same)⟩
      · have other : o.kind = side.mirror := OrderKind.eq_mirror_of_ne market held.market same
        have absent : ¬ [o.kind].contains side = true := fun held =>
          same (List.mem_singleton.mp (List.contains_iff_mem.mp held)).symm
        obtain ⟨bare, kinds⟩ :=
          applyRecords_turn_of_held (q := q) market single held opened hroom limit lotted
        rw [if_neg absent, ← other]
        exact ⟨bare, kinds.trans (if_congr (and_iff_left rfl).symm rfl rfl)⟩

/-- A turn to a side that is not held closes what is held, and opens its side in an empty book. -/
theorem turn_takesSingly (c : AverageCross Float) (market : side.isPending = false)
    (bare : b.Bare q.time) (limit : 0 < b.orderLimit) (unheld : ¬ b.kinds.contains side = true) :
    b.TakesSingly q ((c.turn side side.mirror b.kinds).flatMap Instruction.actions) := by
  rcases bare.cases with empty | ⟨o, single, held, opened⟩
  · have turn : c.turn side side.mirror b.kinds = [c.opening side] := by
      rw [turn_eq, OrderBook.kinds_of_nil empty, List.contains_nil, if_neg Bool.false_ne_true,
        List.nil_append]
    obtain ⟨placed, places, bare'⟩ :=
      OrderBook.act_place_bare (r := c.opening side) (q := q) market empty limit rfl rfl
    rw [turn, List.flatMap_singleton, actions_opening]
    exact .cons bare places nofun (.nil bare')
  · rw [OrderBook.kinds_of_singleton single] at unheld ⊢
    have other : o.kind = side.mirror :=
      OrderKind.eq_mirror_of_ne market held.market fun same =>
        unheld (List.contains_iff_mem.mpr (List.mem_singleton.mpr same.symm))
    have turn : c.turn side side.mirror [o.kind] =
        [.demand o.kind .close everyTicket, c.opening side] := by
      rw [turn_eq, ← other, if_pos (List.contains_iff_mem.mpr (List.mem_singleton_self _))]
      rfl
    obtain ⟨closed, closes, empty, same⟩ := OrderBook.close_single (q := q) single held.market opened
    have close : b.act q (.close o.kind everyTicket) = .ok closed := closes
    rw [← same.orderLimit] at limit
    obtain ⟨placed, places, bare'⟩ :=
      OrderBook.act_place_bare (r := c.opening side) (q := q) market empty limit rfl rfl
    rw [turn, List.flatMap_cons, List.flatMap_singleton, actions_closing, actions_opening,
      List.singleton_append]
    refine .cons bare close (fun kind ticket heq => ?_) (.cons (.of_nil empty _) places nofun (.nil bare'))
    cases heq
    exact ⟨o, single, OrderBook.addressedBy_single single⟩

/-- A bare book takes an answer singly, whatever room the result has: a turn that is cut off has closed
before it would open. -/
theorem signals_takesSingly (c : AverageCross Float) (room : Nat) (bare : b.Bare q.time)
    (limit : 0 < b.orderLimit) (closes : List Float) :
    b.TakesSingly q ((fitted room (c.signals closes b.kinds)).flatMap Instruction.actions) := by
  have whole : b.TakesSingly q ((c.signals closes b.kinds).flatMap Instruction.actions) := by
    rw [signals_eq fun _ _ => Binary64.lt_asymm]
    cases points : c.side? closes with
    | none => exact .nil bare
    | some side =>
      dsimp only
      split
      next => exact .nil bare
      next unheld => exact c.turn_takesSingly (isPending_of_side? points) bare limit unheld
  -- the records that fit are a beginning of all of them
  rw [← List.take_append_drop room (c.signals closes b.kinds), List.flatMap_append] at whole
  rw [actions_fitted]
  exact whole.of_append

end Turn

end AverageCross
end Backtest
