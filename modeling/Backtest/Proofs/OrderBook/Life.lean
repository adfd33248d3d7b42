import Backtest.Proofs.OrderBook.Invariant

namespace Backtest

/-- What has become of a ticket: it waits for its entry, it is in the market, or it is done with. -/
inductive LifePhase where
  | unopened | waiting | dealing | over
deriving Repr, DecidableEq

namespace LifePhase

variable {α : Type}

def ofKind (kind : OrderKind) : LifePhase := if kind.isPending then .waiting else .dealing

/-- The phase after an event, if the event may happen in this phase. Only a waiting order is filled or
cancelled, and only one in the market is closed. -/
def next (phase : LifePhase) (e : TradeEvent α) : Option LifePhase :=
  match phase, e.event with
  | .unopened, .opened => some (ofKind e.order)
  | .waiting, .modified => if e.order.isPending then some .waiting else none
  | .waiting, .filled => if e.order.isPending then none else some .dealing
  | .waiting, .cancelled => if e.order.isPending then some .over else none
  | .dealing, .modified => if e.order.isPending then none else some .dealing
  | .dealing, .closed | .dealing, .stopLoss | .dealing, .takeProfit =>
    if e.order.isPending then none else some .over
  | _, _ => none

/-- The phase after events from the first on. -/
def after (events : List (TradeEvent α)) : Option LifePhase := events.foldlM next .unopened

theorem next_over (e : TradeEvent α) : next .over e = none := by
  unfold next
  split <;> simp_all

theorem next_ne_unopened (phase : LifePhase) (e : TradeEvent α) :
    phase.next e ≠ some .unopened := by
  unfold next
  split
  · unfold ofKind
    split <;> simp
  all_goals (try split) <;> simp

theorem next_modified {e : TradeEvent α} (h : e.event = .modified) :
    (ofKind e.order).next e = some (ofKind e.order) := by
  cases hk : e.order.isPending <;> simp [next, ofKind, h, hk]

theorem next_close {e : TradeEvent α} (h : e.event.isClose = true)
    (hk : e.order.isPending = false) : next .dealing e = some .over := by
  cases he : e.event <;> simp [he, EventKind.isClose] at h <;> simp [next, he, hk]

theorem after_append (events : List (TradeEvent α)) (more : List (TradeEvent α)) :
    after (events ++ more) = (after events).bind fun phase => more.foldlM next phase :=
  List.foldlM_append

/-- Only a ticket without events is not opened. -/
theorem eq_nil_of_after_unopened {events : List (TradeEvent α)}
    (h : after events = some .unopened) : events = [] := by
  rcases List.eq_nil_or_concat events with hnil | ⟨before, e, rfl⟩
  · exact hnil
  · rw [List.concat_eq_append, after_append] at h
    obtain ⟨phase, _, hnext⟩ := Option.bind_eq_some_iff.mp h
    exact absurd (by simpa using hnext) (next_ne_unopened phase e)

theorem eq_nil_of_after_over {events more : List (TradeEvent α)} {phase : LifePhase}
    (h : after events = some .over) (hmore : after (events ++ more) = some phase) : more = [] := by
  rw [after_append, h] at hmore
  cases more with
  | nil => rfl
  | cons e rest => simp [next_over] at hmore

end LifePhase

namespace OrderBook

variable {α : Type}

def eventsOf (b : OrderBook α) (ticket : Int) : List (TradeEvent α) :=
  b.events.toList.filter (·.ticket = ticket)

/-- The phase in which the book holds a ticket. -/
def phase (b : OrderBook α) (ticket : Int) : LifePhase :=
  match b.openOrders.find? (·.ticket = ticket) with
  | some o => .ofKind o.kind
  | none => if 1 ≤ ticket ∧ ticket < b.nextTicket then .over else .unopened

/-- The events of every ticket tell the phase in which the book holds it. -/
def Told (b : OrderBook α) : Prop :=
  ∀ ticket, LifePhase.after (b.eventsOf ticket) = some (b.phase ticket)

theorem find?_ticket_eq_none {l : List (Order α)} {ticket : Int} (h : ∀ o ∈ l, o.ticket ≠ ticket) :
    l.find? (·.ticket = ticket) = none :=
  List.find?_eq_none.mpr fun o ho => by simpa using h o ho

theorem phase_of_absent {b : OrderBook α} {ticket : Int} (h : ∀ o ∈ b.openOrders, o.ticket ≠ ticket) :
    b.phase ticket = if 1 ≤ ticket ∧ ticket < b.nextTicket then .over else .unopened := by
  rw [phase, find?_ticket_eq_none h]

theorem Ascends.phase_of_mem {b : OrderBook α} (h : b.Ascends) {o : Order α}
    (ho : o ∈ b.openOrders) : b.phase o.ticket = .ofKind o.kind := by
  unfold phase
  cases hp : b.openOrders.find? (·.ticket = o.ticket) with
  | none => simpa using List.find?_eq_none.mp hp o ho
  | some p =>
    have same : p = o := h.eq_of_ticket (List.mem_of_find?_eq_some hp) ho
      (by simpa using List.find?_some hp)
    rw [same]

theorem phase_congr {b b' : OrderBook α} {ticket : Int}
    (hf : (b'.openOrders.find? (·.ticket = ticket)).map (LifePhase.ofKind ·.kind) =
      (b.openOrders.find? (·.ticket = ticket)).map (LifePhase.ofKind ·.kind))
    (hn : ticket < b'.nextTicket ↔ ticket < b.nextTicket) : b'.phase ticket = b.phase ticket := by
  unfold phase
  cases h : b.openOrders.find? (·.ticket = ticket) with
  | none =>
    have h' : b'.openOrders.find? (·.ticket = ticket) = none := by simpa [h] using hf
    simp only [h', hn]
  | some o =>
    obtain ⟨p, hp, he⟩ : ∃ p, b'.openOrders.find? (·.ticket = ticket) = some p ∧
        LifePhase.ofKind p.kind = LifePhase.ofKind o.kind := by simpa [h] using hf
    rw [hp]
    exact he

theorem phase_filter {b b' : OrderBook α} {ticket : Int} (keep : Order α → Bool)
    (ho : b'.openOrders = b.openOrders.filter keep) (hn : b'.nextTicket = b.nextTicket)
    (hk : ∀ o, o.ticket = ticket → keep o = true) : b'.phase ticket = b.phase ticket := by
  apply phase_congr
  · rw [ho, List.find?_filter]
    congr 2
    funext o
    by_cases ht : o.ticket = ticket
    · simp [ht, hk o ht]
    · simp [ht]
  · rw [hn]

theorem phase_map {b b' : OrderBook α} {ticket : Int} {f : Order α → Order α}
    (ho : b'.openOrders = b.openOrders.map f) (hn : b'.nextTicket = b.nextTicket)
    (ht : ∀ o, (f o).ticket = o.ticket)
    (hp : ∀ o, o.ticket = ticket → LifePhase.ofKind (f o).kind = .ofKind o.kind) :
    b'.phase ticket = b.phase ticket := by
  apply phase_congr
  · rw [ho, List.find?_map, Option.map_map]
    simp only [Function.comp_def, ht]
    cases h : b.openOrders.find? (·.ticket = ticket) with
    | none => rfl
    | some o =>
      have := List.find?_some h
      simpa using hp o (by simpa using this)
  · rw [hn]

section Record

variable (b : OrderBook α) (o : Order α) (event : EventKind) (time : Int) (price profit gross : α)

theorem phase_record (ticket : Int) :
    (b.record o event time price profit gross).phase ticket = b.phase ticket := rfl

theorem eventsOf_record_of_ne {ticket : Int} (h : o.ticket ≠ ticket) :
    (b.record o event time price profit gross).eventsOf ticket = b.eventsOf ticket := by
  simp [eventsOf, record, h]

/-- The event that a record adds to those of the order's ticket. -/
theorem exists_eventsOf_record : ∃ e : TradeEvent α, e.event = event ∧ e.order = o.kind ∧
    (b.record o event time price profit gross).eventsOf o.ticket = b.eventsOf o.ticket ++ [e] := by
  refine ⟨⟨time, b.instanceId, o.ticket, event, o.kind, price, o.lots, o.stopLoss, o.takeProfit,
    profit, gross, b.balance⟩, rfl, rfl, ?_⟩
  simp [eventsOf, record]

end Record

/-- An event that leads from the old phase of its ticket to the new one keeps the story true, if the
other tickets keep their phases. -/
theorem Told.record {b c : OrderBook α} (h : b.Told) {o : Order α} {event : EventKind} {time : Int}
    {price profit gross : α} (events : c.events = b.events)
    (others : ∀ ticket, o.ticket ≠ ticket → c.phase ticket = b.phase ticket)
    (own : ∀ e : TradeEvent α, e.event = event → e.order = o.kind →
      (b.phase o.ticket).next e = some (c.phase o.ticket)) :
    (c.record o event time price profit gross).Told := by
  intro ticket
  rw [phase_record]
  have same : c.eventsOf ticket = b.eventsOf ticket := by simp only [eventsOf, events]
  by_cases ht : o.ticket = ticket
  · subst ticket
    obtain ⟨e, he, hk, hadd⟩ := exists_eventsOf_record c o event time price profit gross
    rw [hadd, same, LifePhase.after_append, h o.ticket]
    simp [own e he hk]
  · rw [eventsOf_record_of_ne c o event time price profit gross ht, same, others ticket ht]
    exact h ticket

theorem phase_of_dropped {b c : OrderBook α} (sound : b.Sound) {o : Order α}
    (ho : o ∈ b.openOrders) (hc : c.openOrders = (b.drop o.ticket).openOrders)
    (hn : c.nextTicket = b.nextTicket) : c.phase o.ticket = .over := by
  have issued : o.ticket ∈ b.issuedTickets :=
    sound.tickets.mem_iff.mp (by simp [openTickets, List.mem_map_of_mem ho])
  rw [phase_of_absent, if_pos]
  · rw [hn]
    exact mem_issuedTickets.mp issued
  · intro p hp
    rw [hc] at hp
    simpa using (List.mem_filter.mp hp).2

variable [Arith α]

theorem Told.enter {b : OrderBook α} (h : b.Told) (sound : b.Sound) (kind : OrderKind)
    (r : Instruction α) (q : Quote α) (lots price : α) :
    (b.enter (b.newOrder kind r q lots price) q.time).Told := by
  have fresh : ∀ o ∈ b.openOrders, o.ticket ≠ b.nextTicket :=
    fun o ho => Int.ne_of_lt (sound.ascends.issued o ho)
  unfold OrderBook.enter
  apply h.record
  · rfl
  · intro ticket ht
    have ht : b.nextTicket ≠ ticket := ht
    apply phase_congr
    · simp [newOrder, ht]
    · change ticket < b.nextTicket + 1 ↔ ticket < b.nextTicket
      omega
  · intro e he hk
    change (b.phase b.nextTicket).next e = some (phase _ b.nextTicket)
    have before : b.phase b.nextTicket = .unopened := by
      rw [phase_of_absent fresh, if_neg (by omega)]
    have now : (b.openOrders ++ [b.newOrder kind r q lots price]).find?
        (·.ticket = b.nextTicket) = some (b.newOrder kind r q lots price) := by
      simp [find?_ticket_eq_none fresh, newOrder]
    rw [before]
    unfold phase
    dsimp only
    rw [now]
    simp only [LifePhase.next, he, hk]

theorem Told.cancel {b : OrderBook α} (h : b.Told) (sound : b.Sound) {o : Order α} (time : Int)
    (ho : o ∈ b.openOrders) (hk : o.kind.isPending = true) : (b.cancel o time).Told := by
  unfold OrderBook.cancel
  apply h.record
  · rfl
  · exact fun ticket ht => phase_filter (·.ticket != o.ticket) rfl rfl fun p hp => by
      simpa using fun he : p.ticket = o.ticket => ht (he.symm.trans hp)
  · intro e he hkind
    have hkind : e.order = o.kind := hkind
    refine Eq.trans ?_ (congrArg some (phase_of_dropped sound ho rfl rfl).symm)
    change (b.phase o.ticket).next e = some .over
    rw [sound.ascends.phase_of_mem ho]
    simp [LifePhase.next, LifePhase.ofKind, he, hkind, hk]

theorem Told.settle {b : OrderBook α} (h : b.Told) (sound : b.Sound) {o : Order α} (price : α)
    (q : Quote α) {event : EventKind} (ho : o ∈ b.openOrders) (hk : o.kind.isPending = false)
    (ht : o.openTime ≤ q.time) (he : event.isClose = true) : (b.settle o price q event).Told := by
  rw [settle_eq b ht]
  apply h.record
  · rfl
  · exact fun ticket ht => phase_filter (·.ticket != o.ticket) rfl rfl fun p hp => by
      simpa using fun he : p.ticket = o.ticket => ht (he.symm.trans hp)
  · intro e hevent hkind
    have hkind : e.order = o.kind := hkind
    refine Eq.trans ?_ (congrArg some (phase_of_dropped sound ho rfl rfl).symm)
    change (b.phase o.ticket).next e = some .over
    rw [sound.ascends.phase_of_mem ho]
    simp only [LifePhase.ofKind, hk]
    exact LifePhase.next_close (hevent ▸ he) (hkind ▸ hk)

/-- Replacing an open order, with an event that leads from its old phase to the new one. -/
theorem Told.replace {b : OrderBook α} (h : b.Told) (sound : b.Sound) {o new : Order α}
    {event : EventKind} {time : Int} {price : α} (ho : o ∈ b.openOrders)
    (ht : new.ticket = o.ticket)
    (own : ∀ e : TradeEvent α, e.event = event → e.order = new.kind →
      (LifePhase.ofKind o.kind).next e = some (.ofKind new.kind)) :
    ((b.replace new).record new event time price 0 0).Told := by
  have ascends : (b.replace new).Ascends := sound.ascends.map (replaced_ticket new) rfl rfl
  have held : new ∈ (b.replace new).openOrders :=
    List.mem_map.mpr ⟨o, ho, if_pos ht.symm⟩
  apply h.record
  · rfl
  · intro ticket hne
    refine phase_map rfl rfl (replaced_ticket new) fun p hp => ?_
    rw [if_neg fun he : p.ticket = new.ticket => hne (he.symm.trans hp)]
  · rw [ascends.phase_of_mem held, ht, sound.ascends.phase_of_mem ho]
    exact own

theorem isPending_filled (kind : OrderKind) : kind.filled.isPending = false := by
  cases kind <;> rfl

theorem Change.told {b b' : OrderBook α} (c : Change b b') (sound : b.Sound) (h : b.Told) :
    b'.Told := by
  cases c with
  | enter kind r q lots price room => exact h.enter sound kind r q lots price
  | cancel time ho hk => exact h.cancel sound time ho hk
  | settle price q event ho hk ht he => exact h.settle sound price q ho hk ht he
  | @update o r q ho =>
    rw [updateOrder_eq]
    apply h.replace sound ho (updated_ticket ..)
    intro e he hk
    rw [updated_kind] at hk ⊢
    rw [← hk]
    exact LifePhase.next_modified he
  | @fill o time ho hk =>
    rw [fill_eq]
    have ticket : (filledOrder o time).ticket = o.ticket := rfl
    apply h.replace sound ho ticket
    intro e he hkind
    have hkind : e.order = o.kind.filled := hkind
    simp [LifePhase.next, LifePhase.ofKind, hk, he, hkind, filledOrder, isPending_filled]
  | swap time =>
    intro ticket
    have same : phase { b with
        openOrders := b.openOrders.map (b.withSwap time), lastSwapTime := time } ticket =
        b.phase ticket :=
      phase_map rfl rfl (withSwap_ticket b time) fun o _ => by rw [withSwap_kind]
    exact (h ticket).trans (congrArg some same.symm)

theorem Changes.told {b b' : OrderBook α} (c : Changes b b') (sound : b.Sound) (h : b.Told) :
    b'.Told := by
  induction c with
  | refl => exact h
  | tail before step ih => exact step.told (Changes.sound before sound) ih

theorem empty_told (instanceId : Int) (account : Account α) (balance : α) (orderLimit : Nat) :
    (empty instanceId account balance orderLimit).Told := by
  intro ticket
  have none : (empty instanceId account balance orderLimit).phase ticket = .unopened := by
    rw [phase_of_absent fun o ho => by cases ho]
    exact if_neg fun h => Int.not_lt.mpr h.1 h.2
  rw [none]
  rfl

/-- The events of each ticket follow the course of an order's life and lead to the phase in which the
book holds it. A ticket that was never opened has no events, and one that is done with never gets another
one nor is open again. -/
theorem performAll_life (instanceId : Int) (account : Account α) (balance : α) (orderLimit : Nat)
    (earlier later : List (Operation α)) (ticket : Int) :
    let b := (empty instanceId account balance orderLimit).performAll earlier
    let b' := b.performAll later
    LifePhase.after (b.eventsOf ticket) = some (b.phase ticket) ∧
    (b.phase ticket = .unopened → b.eventsOf ticket = []) ∧
    (b.phase ticket = .over →
      b'.eventsOf ticket = b.eventsOf ticket ∧ ∀ o ∈ b'.openOrders, o.ticket ≠ ticket) := by
  intro b b'
  have start := empty_sound instanceId account balance orderLimit
  have before : Changes _ b := performAll_changes start.ascends earlier
  have sound := before.sound start
  have told := before.told start (empty_told instanceId account balance orderLimit)
  have since : Changes b b' := performAll_changes sound.ascends later
  have told' := since.told sound told
  refine ⟨told ticket, ?_, ?_⟩
  · intro unopened
    exact LifePhase.eq_nil_of_after_unopened ((told ticket).trans (congrArg some unopened))
  · intro isOver
    obtain ⟨more, hmore⟩ := since.events_prefix
    have split : b'.eventsOf ticket = b.eventsOf ticket ++ more.filter (·.ticket = ticket) := by
      simp only [eventsOf, ← hmore, List.filter_append]
    have ended := (told ticket).trans (congrArg some isOver)
    have none : more.filter (·.ticket = ticket) = [] :=
      LifePhase.eq_nil_of_after_over ended (split ▸ told' ticket)
    have same : b'.eventsOf ticket = b.eventsOf ticket := by rw [split, none, List.append_nil]
    refine ⟨same, ?_⟩
    rintro o ho rfl
    have phase' : b'.phase o.ticket = .over :=
      Option.some.inj ((told' o.ticket).symm.trans ((congrArg LifePhase.after same).trans ended))
    have sound' := since.sound sound
    rw [sound'.ascends.phase_of_mem ho] at phase'
    unfold LifePhase.ofKind at phase'
    split at phase' <;> cases phase'

end OrderBook
end Backtest
