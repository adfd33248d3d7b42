import Backtest.Arith.Double
import Backtest.Proofs.OrderBook.Operation

namespace Backtest

namespace OrderBook

variable {α : Type} {b : OrderBook α}

def kinds (b : OrderBook α) : List OrderKind := b.openOrders.map Order.kind

theorem kinds_of_nil (h : b.openOrders = []) : b.kinds = [] := by rw [kinds, h, List.map_nil]

theorem kinds_of_singleton {o : Order α} (h : b.openOrders = [o]) : b.kinds = [o.kind] := by
  rw [kinds, h, List.map_singleton]

end OrderBook

/-- Arithmetic in which a level of zero is not set. -/
class Arith.ZeroUnset (α : Type) [Arith α] : Prop where
  not_pos : ¬ (0 : α) > 0
  le_zero : (0 : α) ≤ 0

instance : Arith.ZeroUnset Float where
  not_pos := by decide +kernel
  le_zero := by decide +kernel

variable {α : Type} [Arith α]

/-- An order in the market that has no levels. -/
structure Order.IsBare (o : Order α) : Prop where
  market : o.kind.isPending = false
  stopLoss : o.stopLoss = 0
  takeProfit : o.takeProfit = 0

theorem Order.IsBare.exitPrice? [Arith.ZeroUnset α] {o : Order α} (h : o.IsBare) (bar : Bar α)
    (q : Quote α) : o.exitPrice? bar q = none := by
  have unset : decide ((0 : α) > 0) = false := decide_eq_false Arith.ZeroUnset.not_pos
  unfold Order.exitPrice?
  rw [h.stopLoss, h.takeProfit, unset]
  cases o.kind <;> rfl

namespace OrderBook

/-- At most one order is open, and it is bare and not from after a time. -/
structure Bare (b : OrderBook α) (time : Int) : Prop where
  single : b.openOrders.length ≤ 1
  bare : ∀ o ∈ b.openOrders, o.IsBare
  opened : ∀ o ∈ b.openOrders, o.openTime ≤ time

variable {b : OrderBook α} {time : Int} {q : Quote α}

theorem Bare.mono {later : Int} (h : b.Bare time) (le : time ≤ later) : b.Bare later :=
  ⟨h.single, h.bare, fun o ho => Int.le_trans (h.opened o ho) le⟩

theorem Bare.of_nil (h : b.openOrders = []) (time : Int) : b.Bare time := by
  refine ⟨?_, ?_, ?_⟩ <;> simp [h]

theorem Bare.of_singleton {o : Order α} (h : b.openOrders = [o]) (bare : o.IsBare) :
    b.Bare o.openTime := by
  refine ⟨?_, ?_, ?_⟩ <;> simp [h, bare]

theorem Bare.cases (h : b.Bare time) :
    b.openOrders = [] ∨ ∃ o, b.openOrders = [o] ∧ o.IsBare ∧ o.openTime ≤ time := by
  obtain ⟨single, bare, opened⟩ := h
  match open_ : b.openOrders, single with
  | [], _ => exact .inl rfl
  | [o], _ =>
    have ho : o ∈ b.openOrders := by
      rw [open_]
      exact List.mem_singleton_self o
    exact .inr ⟨o, rfl, bare o ho, opened o ho⟩

theorem settleEntries_of_bare (h : ∀ o ∈ b.openOrders, o.IsBare) : b.settleEntries q = b := by
  unfold settleEntries
  split
  next => rfl
  next bar _ =>
    refine List.foldlRecOn (motive := (· = b)) _ _ rfl fun b' same o ho => ?_
    rw [same]
    unfold settleEntry
    rw [(h o ho).market]
    rfl

theorem settleExits_of_bare [Arith.ZeroUnset α] (h : ∀ o ∈ b.openOrders, o.IsBare) :
    b.settleExits q = b := by
  unfold settleExits
  split
  next => rfl
  next bar _ =>
    refine List.foldlRecOn (motive := (· = b)) _ _ rfl fun b' same o ho => ?_
    rw [same]
    unfold settleExit
    rw [(h o ho).exitPrice?]

theorem withSwap_isBare {o : Order α} (h : o.IsBare) : (b.withSwap time o).IsBare := by
  unfold withSwap
  split
  next => exact h
  next => exact ⟨h.market, h.stopLoss, h.takeProfit⟩

theorem Bare.bookSwap (h : b.Bare time) (now : Int) :
    (b.bookSwap now).Bare time ∧ (b.bookSwap now).kinds = b.kinds := by
  unfold OrderBook.bookSwap
  split
  next => exact ⟨h, rfl⟩
  next =>
    split
    next =>
      refine ⟨⟨?_, ?_, ?_⟩, ?_⟩
      · rw [List.length_map]
        exact h.single
      · intro o ho
        obtain ⟨p, hp, rfl⟩ := List.mem_map.mp ho
        exact withSwap_isBare (h.bare p hp)
      · intro o ho
        obtain ⟨p, hp, rfl⟩ := List.mem_map.mp ho
        rw [withSwap_openTime]
        exact h.opened p hp
      · unfold kinds
        rw [List.map_map]
        exact List.map_congr_left fun o _ => withSwap_kind b now o
    next => exact ⟨h, rfl⟩

/-- Swap is all that the market brings about in a bare book. -/
theorem Bare.settled [Arith.ZeroUnset α] (h : b.Bare time) (now : Int) :
    (((b.settleEntries q).settleExits q).bookSwap now).Bare time ∧
      (((b.settleEntries q).settleExits q).bookSwap now).kinds = b.kinds := by
  rw [settleEntries_of_bare h.bare, settleExits_of_bare h.bare]
  exact h.bookSwap now

omit [Arith α] in
theorem addressedBy_single {o : Order α} (single : b.openOrders = [o]) :
    b.addressedBy o.kind everyTicket = .ok [o] := by
  unfold addressedBy
  simp [single, everyTicket]

theorem close_single {o : Order α} (single : b.openOrders = [o]) (market : o.kind.isPending = false)
    (le : o.openTime ≤ q.time) :
    ∃ closed, b.close o.kind everyTicket q = .ok closed ∧ closed.openOrders = [] ∧
      SameTerms b closed := by
  have found := addressedBy_single single
  have settled : b.closeOrder o q = b.settle o (o.closingPrice q) q .closed := by
    unfold closeOrder
    rw [market, if_neg Bool.false_ne_true]
  refine ⟨b.closeOrder o q, ?_, ?_, ?_⟩
  · unfold close
    rw [found]
    rfl
  · rw [settled, settle_eq b le]
    change b.openOrders.filter (fun p => p.ticket != o.ticket) = []
    simp [single]
  · rw [settled, settle_eq b le]
    exact ⟨rfl, rfl, rfl⟩

theorem place_bare [Arith.ZeroUnset α] {kind : OrderKind} {r : Instruction α}
    (market : kind.isPending = false) (empty : b.openOrders = []) (room : 0 < b.orderLimit)
    (lotted : ¬ roundLots r.lots b.account.minLot ≤ 0) (stop : r.stopDistance = 0)
    (profit : r.profitDistance = 0) :
    ∃ placed ticket, b.place kind r q = .ok (placed, ticket) ∧ placed.Bare q.time ∧
      placed.kinds = [kind] := by
  have vacant : ¬ b.openOrders.length ≥ b.orderLimit := by
    rw [empty, List.length_nil]
    omega
  have unset (price side : α) : b.levelAt price side 0 = 0 := if_pos Arith.ZeroUnset.le_zero
  obtain ⟨price, entry⟩ : ∃ price, entryPrice? kind r q = some price := by
    cases kind with
    | buy | sell => exact ⟨_, rfl⟩
    | buyLimit | sellLimit | buyStop | sellStop => cases market
  have bare : (b.newOrder kind r q (roundLots r.lots b.account.minLot) price).IsBare := by
    refine ⟨market, ?_, ?_⟩
    · exact (congrArg (b.levelAt price _) stop).trans (unset ..)
    · exact (congrArg (b.levelAt price _) profit).trans (unset ..)
  unfold place
  dsimp only
  rw [if_neg lotted, if_neg vacant, entry, empty]
  exact ⟨_, _, rfl, .of_singleton rfl bare, rfl⟩

/-- Lots that round to zero leave a book without orders as it is, so that placing such an order never
fails. -/
theorem act_place_bare [Arith.ZeroUnset α] {kind : OrderKind} {r : Instruction α}
    (market : kind.isPending = false) (empty : b.openOrders = []) (room : 0 < b.orderLimit)
    (stop : r.stopDistance = 0) (profit : r.profitDistance = 0) :
    ∃ placed, b.act q (.place kind r) = .ok placed ∧ placed.Bare q.time := by
  by_cases lotted : roundLots r.lots b.account.minLot ≤ 0
  · have nothing : b.place kind r q = .ok (b, none) := if_pos lotted
    exact ⟨b, congrArg (Except.map Prod.fst) nothing, .of_nil empty _⟩
  · obtain ⟨placed, ticket, eq, bare, -⟩ :=
      place_bare (q := q) market empty room lotted stop profit
    exact ⟨placed, congrArg (Except.map Prod.fst) eq, bare⟩

/-- The book takes actions one at a time: after every one of them nothing has failed and at most one order
is open, and where a close comes next, that order is what it closes. -/
def TakesSingly (b : OrderBook α) (q : Quote α) (actions : List (Action α)) : Prop :=
  ∀ done next, actions = done ++ next →
    (b.actAll q done).2 = none ∧ (b.actAll q done).1.Bare q.time ∧
      ∀ kind ticket rest, next = .close kind ticket :: rest →
        ∃ o, (b.actAll q done).1.openOrders = [o] ∧
          (b.actAll q done).1.addressedBy kind ticket = .ok [o]

namespace TakesSingly

variable {a : Action α} {actions more : List (Action α)}

theorem nil (bare : b.Bare q.time) : b.TakesSingly q [] := by
  intro done next parts
  obtain ⟨rfl, rfl⟩ := List.append_eq_nil_iff.mp parts.symm
  exact ⟨rfl, bare, nofun⟩

theorem cons {b' : OrderBook α} (bare : b.Bare q.time) (acts : b.act q a = .ok b')
    (finds : ∀ kind ticket, a = .close kind ticket →
      ∃ o, b.openOrders = [o] ∧ b.addressedBy kind ticket = .ok [o])
    (after : b'.TakesSingly q actions) : b.TakesSingly q (a :: actions) := by
  intro done next parts
  cases done with
  | nil =>
    refine ⟨rfl, bare, fun kind ticket rest hnext => finds kind ticket ?_⟩
    rw [List.nil_append, hnext] at parts
    exact (List.cons.inj parts).1
  | cons first done =>
    obtain ⟨rfl, tails⟩ := List.cons.inj parts
    rw [actAll, acts]
    exact after done next tails

theorem of_append (h : b.TakesSingly q (actions ++ more)) : b.TakesSingly q actions := by
  intro done next parts
  obtain ⟨ok, bare, finds⟩ := h done (next ++ more) (by rw [parts, List.append_assoc])
  refine ⟨ok, bare, fun kind ticket rest hnext => ?_⟩
  exact finds kind ticket (rest ++ more) (by rw [hnext, List.cons_append])

theorem result (h : b.TakesSingly q actions) :
    (b.actAll q actions).2 = none ∧ (b.actAll q actions).1.Bare q.time := by
  obtain ⟨ok, bare, -⟩ := h actions [] (List.append_nil actions).symm
  exact ⟨ok, bare⟩

end TakesSingly

end OrderBook
end Backtest
