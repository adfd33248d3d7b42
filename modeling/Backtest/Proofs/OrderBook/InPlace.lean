import Backtest.Arith.Double
import Backtest.Proofs.OrderBook.Places

namespace Backtest

namespace Instruction

variable {α : Type} [Arith α]

def action (r : Instruction α) : Verb → OrderKind → Action α
  | .place, kind => .place kind r
  | .close, kind => .close kind r.ticket
  | .update, kind => .update kind r.ticket r

/-- The bits of a signal word that mean something, in the order in which they are looked at. -/
def demands : List (Nat × Verb × OrderKind) :=
  [(0, .place, .buy), (3, .place, .buyLimit), (6, .place, .buyStop),
   (1, .close, .buy), (4, .close, .buyLimit), (7, .close, .buyStop),
   (2, .update, .buy), (5, .update, .buyLimit), (8, .update, .buyStop),
   (16, .place, .sell), (19, .place, .sellLimit), (22, .place, .sellStop),
   (17, .close, .sell), (20, .close, .sellLimit), (23, .close, .sellStop),
   (18, .update, .sell), (21, .update, .sellLimit), (24, .update, .sellStop)]

/-- The actions that a record stands for: none if its signals are not above zero, and otherwise one for
each bit with a meaning that is set in their whole part. -/
def demanded (r : Instruction α) : List (Action α) :=
  if r.signals > 0 then
    (demands.filter fun (bit, _, _) => (Arith.toWord32 r.signals).testBit bit).map
      fun (_, verb, kind) => r.action verb kind
  else []

def demandsOn (verb : Verb) (side : List OrderKind) : List (Nat × Verb × OrderKind) :=
  side.map fun kind => (signalBit kind verb, verb, kind)

theorem demands_eq :
    demands = [OrderKind.buySide, OrderKind.sellSide].flatMap fun side =>
      [Verb.place, .close, .update].flatMap (demandsOn · side) := rfl

theorem map_action_filter (r : Instruction α) (verb : Verb) (side : List OrderKind) :
    ((demandsOn verb side).filter fun (bit, _, _) => r.word.testBit bit).map
        (fun (_, verb, kind) => r.action verb kind) =
      (side.filter (r.asks · verb)).map (r.action verb) := by
  unfold demandsOn
  rw [List.filter_map, List.map_map]
  rfl

theorem actions_eq_demanded (r : Instruction α) : r.actions = r.demanded := by
  have word : r.demanded =
      (demands.filter fun (bit, _, _) => r.word.testBit bit).map
        fun (_, verb, kind) => r.action verb kind := by
    unfold demanded word
    split
    next => rfl
    next => simp
  rw [word, demands_eq]
  simp only [List.flatMap_cons, List.flatMap_nil, List.append_nil, List.filter_append,
    List.map_append, map_action_filter]
  unfold actions sideActions
  simp only [List.append_assoc]
  rfl

/-- A bit without a meaning and a fraction are passed over, and so are signals that are not a number. -/
example : [513.9, 0.0 / 0.0].map (fun signals : Float =>
    (Instruction.ofList [0, signals]).demanded.length) = [1, 0] := by decide +kernel

end Instruction

namespace OrderBook

variable {α : Type} [Arith α]

/-- Work on a book in place. What was done to the book stays when the work fails. -/
abbrev Editing (α β : Type) [Arith α] := EStateM (Fault α) (OrderBook α) β

namespace Editing

def place (kind : OrderKind) (r : Instruction α) (q : Quote α) : Editing α (Option Int) := do
  let b ← get
  let lots := roundLots r.lots b.account.minLot
  if lots ≤ 0 then return none
  if b.openOrders.length ≥ b.orderLimit then throw (.tooManyOrders b.instanceId b.orderLimit)
  match entryPrice? kind r q with
  | none => return none
  | some price =>
    let o := b.newOrder kind r q lots price
    modify fun b => { b with nextTicket := b.nextTicket + 1 }
    modify fun b => { b with counters := b.counters.add kind.isBuy }
    modify fun b => b.record o .opened q.time price 0 0
    modify fun b => { b with openOrders := b.openOrders ++ [o] }
    return some o.ticket

def matching (kind : OrderKind) (ticket : Int) : Editing α (List Nat) := do
  let b ← get
  let places := placesOf (isAddressed kind ticket) b.openOrders
  if places.isEmpty && ticket ≠ everyTicket then throw (.unknownTicket b.instanceId ticket)
  return places

def treatAll (f : OrderBook α → Order α → OrderBook α) (places : List Nat) : Editing α Unit :=
  forM places fun place => modify (treatAt f · place)

def close (kind : OrderKind) (ticket : Int) (q : Quote α) : Editing α Unit := do
  let places ← matching kind ticket
  treatAll (fun b o => b.closeOrder o q) places.reverse

def update (kind : OrderKind) (ticket : Int) (r : Instruction α) (q : Quote α) :
    Editing α Unit := do
  let places ← matching kind ticket
  treatAll (fun b o => b.updateOrder o r q) places

def act (q : Quote α) : Action α → Editing α Unit
  | .place kind r => discard (place kind r q)
  | .close kind ticket => close kind ticket q
  | .update kind ticket r => update kind ticket r q

def applyRecords (records : List (Instruction α)) (q : Quote α) : Editing α Unit :=
  forM records fun r => do
    if r.word = 0 then return
    forM [OrderKind.buySide, OrderKind.sellSide] fun side => do
      forM side fun kind => do
        if r.asks kind .place then discard (place kind r q)
      forM side fun kind => do
        if r.asks kind .close then close kind r.ticket q
      forM side fun kind => do
        if r.asks kind .update then update kind r.ticket r q

/-- The result of an edit that succeeds, or leaves the book as it was. -/
def result {β : Type} (b : OrderBook α) :
    Except (Fault α) (OrderBook α × β) → EStateM.Result (Fault α) (OrderBook α) β
  | .ok (b', x) => .ok x b'
  | .error f => .error f b

theorem run_place (kind : OrderKind) (r : Instruction α) (q : Quote α) (b : OrderBook α) :
    (place kind r q).run b = result b (b.place kind r q) := by
  unfold place OrderBook.place
  rw [EStateM.run_bind, EStateM.run_get]
  dsimp only
  split
  next => rfl
  next =>
    split
    next => rfl
    next => cases entryPrice? kind r q <;> rfl

theorem run_treatAll (f : OrderBook α → Order α → OrderBook α) (places : List Nat)
    (b : OrderBook α) : (treatAll f places).run b = .ok () (places.foldl (treatAt f) b) := by
  unfold treatAll
  induction places generalizing b with
  | nil => rfl
  | cons place rest ih =>
    rw [List.forM_cons, EStateM.run_bind]
    exact ih (treatAt f b place)

omit [Arith α] in
theorem placesOf_isEmpty (p : Order α → Bool) (orders : List (Order α)) :
    (placesOf p orders).isEmpty = (orders.filter p).isEmpty := by
  induction orders using List.reverseRecOn with
  | nil => rfl
  | append_singleton orders o ih =>
    rw [placesOf_concat, List.filter_append, Bool.eq_iff_iff, List.isEmpty_iff, List.isEmpty_iff,
      List.append_eq_nil_iff, List.append_eq_nil_iff, ← List.isEmpty_iff, ih, List.isEmpty_iff]
    cases hp : p o <;> simp [hp]

theorem run_matching (b : OrderBook α) (kind : OrderKind) (ticket : Int) :
    (matching kind ticket).run b = result b ((b.addressedBy kind ticket).map fun _ =>
      (b, placesOf (isAddressed kind ticket) b.openOrders)) := by
  unfold matching
  rw [EStateM.run_bind, EStateM.run_get, addressedBy_eq]
  dsimp only
  rw [placesOf_isEmpty]
  split <;> rfl

/-- An action in place gives the book that the rules give, or else leaves the book as it was. -/
theorem run_act {b : OrderBook α} (ascends : b.Ascends) (q : Quote α) (a : Action α) :
    (act q a).run b = result b ((b.act q a).map (·, ())) := by
  have whole : b.openOrders = b.openOrders ++ [] := (List.append_nil _).symm
  cases a with
  | place kind r =>
    change (place kind r q >>= fun _ => pure ()).run b = _
    rw [EStateM.run_bind, run_place, OrderBook.act]
    cases b.place kind r q <;> rfl
  | close kind ticket =>
    have same := ((local_closeOrder q).backward (p := isAddressed kind ticket) ascends whole).1
    rw [act, close, EStateM.run_bind, run_matching, OrderBook.act, OrderBook.close]
    cases found : b.addressedBy kind ticket with
    | error f => rfl
    | ok orders =>
      refine (run_treatAll ..).trans ?_
      rw [same, ← eq_filter_of_addressedBy found]
      rfl
  | update kind ticket r =>
    have same := ((local_updateOrder b r q).forward (p := isAddressed kind ticket)
      (fun _ => rfl) ⟨ascends, rfl⟩ whole).1
    rw [act, update, EStateM.run_bind, run_matching, OrderBook.act, OrderBook.update]
    cases found : b.addressedBy kind ticket with
    | error f => rfl
    | ok orders =>
      refine (run_treatAll ..).trans ?_
      rw [same, ← eq_filter_of_addressedBy found]
      rfl

def outcome : EStateM.Result (Fault α) (OrderBook α) Unit → OrderBook α × Option (Fault α)
  | .ok () b => (b, none)
  | .error f b => (b, some f)

/-- Actions in place, one after another, go as far as the rules go. -/
theorem run_forM_act {b : OrderBook α} (ascends : b.Ascends) (q : Quote α)
    (actions : List (Action α)) :
    outcome ((forM actions (act q)).run b) = b.actAll q actions := by
  induction actions generalizing b with
  | nil => rfl
  | cons a rest ih =>
    rw [List.forM_cons, EStateM.run_bind, run_act ascends, actAll]
    cases h : b.act q a with
    | error f => rfl
    | ok b' => exact ih ((act_changes ascends h).ascends ascends)

section Loops

variable {m : Type → Type} [Monad m] [LawfulMonad m] {β γ : Type}

theorem forM_filter (p : β → Bool) (f : β → m Unit) (l : List β) :
    forM (l.filter p) f = forM l fun x => if p x then f x else pure () := by
  induction l with
  | nil => rfl
  | cons x l ih =>
    rw [List.forM_cons, ← ih]
    cases h : p x <;> simp [h]

theorem forM_flatMap (f : β → List γ) (g : γ → m Unit) (l : List β) :
    forM (l.flatMap f) g = forM l fun x => forM (f x) g := by
  induction l with
  | nil => rfl
  | cons x l ih => rw [List.flatMap_cons, List.forM_append, ih, List.forM_cons]

end Loops

theorem actions_of_word {r : Instruction α} (h : r.word = 0) : r.actions = [] := by
  have nothing (kind : OrderKind) (verb : Verb) : r.asks kind verb = false := by
    unfold Instruction.asks
    rw [h, Nat.zero_testBit]
  simp [Instruction.actions, Instruction.sideActions, nothing]

/-- The loops over records, sides, verbs and kinds meet the actions of the records in their order. -/
theorem applyRecords_eq (records : List (Instruction α)) (q : Quote α) :
    applyRecords records q = forM (records.flatMap Instruction.actions) (act q) := by
  have side (r : Instruction α) (kinds : List OrderKind) :
      forM (r.sideActions kinds) (act q) = (do
        forM kinds fun kind => do if r.asks kind .place then discard (place kind r q)
        forM kinds fun kind => do if r.asks kind .close then close kind r.ticket q
        forM kinds fun kind => do if r.asks kind .update then update kind r.ticket r q) := by
    unfold Instruction.sideActions
    simp only [List.forM_append, List.forM_map, forM_filter, bind_assoc]
    rfl
  rw [forM_flatMap, applyRecords]
  congr 1
  funext r
  split
  next h => rw [actions_of_word h]; rfl
  next =>
    rw [Instruction.actions, List.forM_append, side, side, List.forM_cons, List.forM_cons,
      List.forM_nil]
    simp only [bind_pure_unit]

end Editing

/-- Actions performed until one fails have done what came before it and nothing of the one itself. -/
theorem actAll_split (b : OrderBook α) (q : Quote α) (actions : List (Action α)) :
    ∃ done left, actions = done ++ left ∧
      done.foldlM (fun b a => b.act q a) b = .ok (b.actAll q actions).1 ∧
      match (b.actAll q actions).2 with
      | none => left = []
      | some f => ∃ a later, left = a :: later ∧ (b.actAll q actions).1.act q a = .error f := by
  induction actions generalizing b with
  | nil => exact ⟨[], [], rfl, rfl, rfl⟩
  | cons a rest ih =>
    cases h : b.act q a with
    | error f =>
      have stopped : b.actAll q (a :: rest) = (b, some f) := by rw [actAll, h]
      rw [stopped]
      exact ⟨[], a :: rest, rfl, rfl, a, rest, rfl, h⟩
    | ok b' =>
      have went : b.actAll q (a :: rest) = b'.actAll q rest := by rw [actAll, h]
      obtain ⟨done, left, split, ok, fault⟩ := ih b'
      rw [went]
      refine ⟨a :: done, left, by rw [split, List.cons_append], ?_, fault⟩
      rw [List.foldlM_cons, h]
      exact ok

/-- What records do to a book is what the actions they stand for do, one after another, up to the first
that fails. It is the same when they are applied in place, with the loops over places and kinds: an action
that fails there leaves the book as it found it. -/
theorem performAll_applied_in_place (instanceId : Int) (account : Account α) (balance : α)
    (orderLimit : Nat) (operations : List (Operation α)) (records : List (Instruction α))
    (q : Quote α) :
    let b := (empty instanceId account balance orderLimit).performAll operations
    let result := b.applyRecords records q
    Editing.outcome ((Editing.applyRecords records q).run b) = result ∧
    ∃ done left, records.flatMap Instruction.demanded = done ++ left ∧
      done.foldlM (fun b a => b.act q a) b = .ok result.1 ∧
      match result.2 with
      | none => left = []
      | some f => ∃ a later, left = a :: later ∧ result.1.act q a = .error f ∧
          (Editing.act q a).run result.1 = .error f result.1 := by
  intro b result
  have start := empty_ascends instanceId account balance orderLimit
  have ascends : b.Ascends := (performAll_changes start operations).ascends start
  have listed : records.flatMap Instruction.demanded = records.flatMap Instruction.actions :=
    congrArg records.flatMap (funext fun r => r.actions_eq_demanded.symm)
  refine ⟨?_, ?_⟩
  · rw [Editing.applyRecords_eq, Editing.run_forM_act ascends]
    rfl
  · obtain ⟨done, left, split, ok, fault⟩ := actAll_split b q (records.flatMap Instruction.actions)
    refine ⟨done, left, listed.trans split, ok, ?_⟩
    change match result.2 with
      | none => left = []
      | some f => ∃ a later, left = a :: later ∧ result.1.act q a = .error f at fault
    cases h : result.2 with
    | none => rwa [h] at fault
    | some f =>
      rw [h] at fault
      obtain ⟨a, later, hleft, failed⟩ := fault
      have still : result.1.Ascends := (applyRecords_changes ascends records q).ascends ascends
      refine ⟨a, later, hleft, failed, ?_⟩
      rw [Editing.run_act still, failed]
      rfl

end OrderBook
end Backtest
