import Mathlib.Data.List.Induction
import Backtest.Proofs.OrderBook.Operation

namespace Backtest
namespace OrderBook

variable {α : Type} {b : OrderBook α} {o : Order α} {before after : List (Order α)}

/-- The tickets before and behind an open order are others than its own. -/
theorem Ascends.ne_of_split (h : b.Ascends) (hb : b.openOrders = before ++ o :: after) :
    (∀ p ∈ before, p.ticket ≠ o.ticket) ∧ ∀ p ∈ after, p.ticket ≠ o.ticket := by
  have ne := h.ne
  rw [hb] at ne
  obtain ⟨-, behind, across⟩ := List.pairwise_append.mp ne
  exact ⟨fun p hp => across p hp o List.mem_cons_self,
    fun p hp => ((List.pairwise_cons.mp behind).1 p hp).symm⟩

theorem Ascends.drop_openOrders (h : b.Ascends) (hb : b.openOrders = before ++ o :: after) :
    (b.drop o.ticket).openOrders = before ++ after := by
  obtain ⟨ahead, behind⟩ := h.ne_of_split hb
  have kept {l : List (Order α)} (ne : ∀ p ∈ l, p.ticket ≠ o.ticket) :
      l.filter (·.ticket != o.ticket) = l :=
    List.filter_eq_self.mpr fun p hp => by simpa using ne p hp
  change b.openOrders.filter (·.ticket != o.ticket) = before ++ after
  rw [hb, List.filter_append, List.filter_cons_of_neg (by simp), kept ahead, kept behind]

theorem Ascends.replace_openOrders (h : b.Ascends) (hb : b.openOrders = before ++ o :: after)
    {new : Order α} (ticket : new.ticket = o.ticket) : (b.replace new).openOrders = before ++ new :: after := by
  obtain ⟨ahead, behind⟩ := h.ne_of_split hb
  have kept {l : List (Order α)} (ne : ∀ p ∈ l, p.ticket ≠ o.ticket) :
      l.map (fun p => if p.ticket = new.ticket then new else p) = l :=
    (List.map_congr_left fun p hp => if_neg (ticket ▸ ne p hp)).trans (List.map_id' l)
  change b.openOrders.map (fun p => if p.ticket = new.ticket then new else p) = _
  rw [hb, List.map_append, List.map_cons, kept ahead, kept behind, if_pos ticket.symm]

/-- A treatment that changes the open orders only where its order stands: there stands then what `g`
makes of it, or nothing. The books that it is given, and those that it leaves, are of a kind `P`. -/
structure Local (P : OrderBook α → Prop) (f : OrderBook α → Order α → OrderBook α)
    (g : Order α → Option (Order α)) : Prop where
  keeps : ∀ {b o}, P b → o ∈ b.openOrders → P (f b o)
  openOrders : ∀ {b before o after}, P b → b.openOrders = before ++ o :: after →
    (f b o).openOrders = before ++ (g o).toList ++ after

def treatAt (f : OrderBook α → Order α → OrderBook α) (b : OrderBook α) (place : Nat) :
    OrderBook α :=
  match b.openOrders[place]? with
  | some o => f b o
  | none => b

/-- Goes through the next `n` open orders from a place on. When an order was taken out, the one behind it
has moved up, and the loop stays where it is. -/
def walk (f : OrderBook α → Order α → OrderBook α) : Nat → Nat → OrderBook α → OrderBook α
  | 0, _, b => b
  | n + 1, place, b =>
    let treated := treatAt f b place
    if treated.openOrders.length < b.openOrders.length then walk f n place treated
    else walk f n (place + 1) treated

def placesOf (p : Order α → Bool) (orders : List (Order α)) : List Nat :=
  (orders.zipIdx.filter fun entry => p entry.1).map Prod.snd

theorem placesOf_concat (p : Order α → Bool) (orders : List (Order α)) (o : Order α) :
    placesOf p (orders ++ [o]) = placesOf p orders ++ if p o then [orders.length] else [] := by
  unfold placesOf
  rw [List.zipIdx_append, List.filter_append, List.map_append]
  cases h : p o <;> simp [h]

theorem treatAt_eq (f : OrderBook α → Order α → OrderBook α)
    (hb : b.openOrders = before ++ o :: after) : treatAt f b before.length = f b o := by
  unfold treatAt
  rw [hb, List.getElem?_append_right (Nat.le_refl _), Nat.sub_self, List.getElem?_cons_zero]

namespace Local

variable {P : OrderBook α → Prop} {f : OrderBook α → Order α → OrderBook α}
  {g : Order α → Option (Order α)} {p : Order α → Bool}

theorem mem_of_split (hb : b.openOrders = before ++ o :: after) : o ∈ b.openOrders :=
  hb ▸ List.mem_append_right before List.mem_cons_self

theorem foldl (loc : Local P f g) (hP : P b) (hb : b.openOrders = before ++ after) :
    P (after.foldl f b) ∧ (after.foldl f b).openOrders = before ++ after.filterMap g := by
  induction after generalizing b before with
  | nil => exact ⟨hP, hb⟩
  | cons o after ih =>
    have left := loc.openOrders hP hb
    obtain ⟨kept, openOrders⟩ := ih (loc.keeps hP (mem_of_split hb)) left
    refine ⟨kept, openOrders.trans ?_⟩
    rw [List.append_assoc]
    cases hg : g o with
    | none => simp [hg]
    | some o' => simp [hg]

/-- Going by places skips no order and treats none twice. -/
theorem walk_eq (loc : Local P f g) (hP : P b) (hb : b.openOrders = before ++ after) :
    walk f after.length before.length b = after.foldl f b := by
  induction after generalizing b before with
  | nil => rfl
  | cons o after ih =>
    have left := loc.openOrders hP hb
    have kept := loc.keeps hP (mem_of_split hb)
    rw [List.length_cons, walk, treatAt_eq f hb, List.foldl_cons]
    cases hg : g o with
    | none =>
      rw [hg, Option.toList_none, List.append_nil] at left
      rw [if_pos (by rw [left, hb]; simp)]
      exact ih kept left
    | some o' =>
      rw [hg, Option.toList_some] at left
      rw [if_neg (by rw [left, hb]; simp)]
      simpa using ih kept left

/-- Going back through the places of some orders, what was taken out on the way stood behind. -/
theorem backward (loc : Local P f g) {orders : List (Order α)} (hP : P b)
    (hb : b.openOrders = orders ++ after) :
    (placesOf p orders).reverse.foldl (treatAt f) b = (orders.filter p).reverse.foldl f b ∧
      P ((orders.filter p).reverse.foldl f b) ∧
      ((orders.filter p).reverse.foldl f b).openOrders =
        orders.filterMap (fun o => if p o then g o else some o) ++ after := by
  induction orders using List.reverseRecOn generalizing b after with
  | nil => exact ⟨rfl, hP, hb⟩
  | append_singleton orders o ih =>
    rw [List.append_assoc, List.singleton_append] at hb
    rw [placesOf_concat, List.filter_append, List.filterMap_append]
    cases hp : p o with
    | true =>
      have left := loc.openOrders hP hb
      rw [List.append_assoc] at left
      obtain ⟨same, kept, openOrders⟩ := ih (loc.keeps hP (mem_of_split hb)) left
      simp only [if_true, List.reverse_append, List.reverse_singleton, List.singleton_append,
        List.foldl_cons, treatAt_eq f hb, List.filter_cons_of_pos hp, List.filter_nil]
      refine ⟨same, kept, openOrders.trans ?_⟩
      cases hg : g o <;> simp [hp, hg]
    | false =>
      obtain ⟨same, kept, openOrders⟩ := ih hP hb
      simp only [Bool.false_eq_true, if_false, List.append_nil,
        List.filter_cons_of_neg (Bool.eq_false_iff.mp hp), List.filter_nil]
      refine ⟨same, kept, openOrders.trans ?_⟩
      simp [hp]

/-- Going forward through the places of some orders, if none is taken out. -/
theorem forward (loc : Local P f g) (stays : ∀ o, (g o).isSome = true) {orders : List (Order α)}
    (hP : P b) (hb : b.openOrders = orders ++ after) :
    (placesOf p orders).foldl (treatAt f) b = (orders.filter p).foldl f b ∧
      P ((orders.filter p).foldl f b) ∧ ∃ treated, treated.length = orders.length ∧
        ((orders.filter p).foldl f b).openOrders = treated ++ after := by
  induction orders using List.reverseRecOn generalizing after with
  | nil => exact ⟨rfl, hP, [], rfl, hb⟩
  | append_singleton orders o ih =>
    rw [List.append_assoc, List.singleton_append] at hb
    obtain ⟨same, kept, treated, length, openOrders⟩ := ih hb
    rw [placesOf_concat, List.filter_append, List.foldl_append, List.foldl_append, same]
    cases hp : p o with
    | true =>
      obtain ⟨o', hg⟩ := Option.isSome_iff_exists.mp (stays o)
      have left := loc.openOrders kept openOrders
      rw [hg, Option.toList_some] at left
      simp only [if_true, List.filter_cons_of_pos hp, List.filter_nil, List.foldl_cons,
        List.foldl_nil, ← length, treatAt_eq f openOrders]
      exact ⟨trivial, loc.keeps kept (mem_of_split openOrders), treated ++ [o'], by simp [length],
        left⟩
    | false =>
      simp only [Bool.false_eq_true, if_false, List.foldl_nil,
        List.filter_cons_of_neg (Bool.eq_false_iff.mp hp), List.filter_nil]
      exact ⟨trivial, kept, treated ++ [o], by simp [length], by simp [openOrders]⟩

end Local

def isAddressed (kind : OrderKind) (ticket : Int) (o : Order α) : Bool :=
  o.kind = kind && (ticket = everyTicket || o.ticket = ticket)

theorem addressedBy_eq (b : OrderBook α) (kind : OrderKind) (ticket : Int) :
    b.addressedBy kind ticket =
      if (b.openOrders.filter (isAddressed kind ticket)).isEmpty && ticket ≠ everyTicket then
        .error (.unknownTicket b.instanceId ticket)
      else .ok (b.openOrders.filter (isAddressed kind ticket)) := rfl

theorem eq_filter_of_addressedBy {kind : OrderKind} {ticket : Int} {found : List (Order α)}
    (h : b.addressedBy kind ticket = .ok found) :
    found = b.openOrders.filter (isAddressed kind ticket) := by
  rw [addressedBy_eq] at h
  split at h
  next => cases h
  next =>
    cases h
    rfl

variable [Arith α]

/-- What a close leaves in the place of an order: one that opens only later stays. -/
def afterClose (q : Quote α) (o : Order α) : Option (Order α) :=
  if !o.kind.isPending && q.time < o.openTime then some o else none

theorem local_closeOrder (q : Quote α) :
    Local Ascends (fun b o => b.closeOrder o q) (afterClose q) where
  keeps ascends mem := ((treats_closeOrder q).changes _ _ mem).ascends ascends
  openOrders {b before o after} ascends split := by
    have dropped := ascends.drop_openOrders split
    unfold closeOrder afterClose
    cases hk : o.kind.isPending with
    | true =>
      change (b.drop o.ticket).openOrders = _
      simpa using dropped
    | false =>
      by_cases timely : o.openTime ≤ q.time
      · rw [if_neg Bool.false_ne_true, settle_eq b timely]
        change (b.drop o.ticket).openOrders = _
        simpa [Int.not_lt.mpr timely] using dropped
      · rw [if_neg Bool.false_ne_true, settle_of_not_le b timely]
        simpa [Int.not_le.mp timely] using split

/-- An update reads nothing of its book but the account. -/
theorem updated_congr {b b' : OrderBook α} (same : b.account = b'.account) (o : Order α)
    (r : Instruction α) (q : Quote α) : b.updated o r q = b'.updated o r q := by
  unfold updated updatedLevel
  rw [same]

theorem local_updateOrder (b₀ : OrderBook α) (r : Instruction α) (q : Quote α) :
    Local (fun b => b.Ascends ∧ b.account = b₀.account) (fun b o => b.updateOrder o r q)
      (fun o => some (b₀.updated o r q)) where
  keeps kept mem := ⟨((treats_updateOrder r q).changes _ _ mem).ascends kept.1, kept.2⟩
  openOrders {b before o after} kept split := by
    obtain ⟨ascends, same⟩ := kept
    rw [updateOrder_eq, record_openOrders, ← updated_congr same]
    simpa using ascends.replace_openOrders split (updated_ticket b o r q)

end OrderBook
end Backtest
