import Backtest.Arith.Double
import Backtest.Proofs.Calendar.Order
import Backtest.Report.Trades
import Mathlib.Data.List.Permutation

namespace Backtest

namespace Order

variable {α : Type}

/-- By closing time in seconds, then by ticket. -/
def closedBefore (a b : Order α) : Bool :=
  a.closeTime < b.closeTime || (a.closeTime == b.closeTime && a.ticket ≤ b.ticket)

theorem closedBefore_iff {a b : Order α} : a.closedBefore b = true ↔
    a.closeTime < b.closeTime ∨ a.closeTime = b.closeTime ∧ a.ticket ≤ b.ticket := by
  simp [closedBefore]

theorem closedBefore_trans (a b c : Order α) (h : a.closedBefore b = true)
    (h' : b.closedBefore c = true) : a.closedBefore c = true := by
  rw [closedBefore_iff] at h h' ⊢
  omega

theorem closedBefore_total (a b : Order α) : (a.closedBefore b || b.closedBefore a) = true := by
  rw [Bool.or_eq_true, closedBefore_iff, closedBefore_iff]
  omega

/-- Of closed orders with their places in a list, the one that is told of first: the one closed earlier; of
those closed at one time, the one of the smaller ticket; of those of one ticket, the one further up. -/
def ToldBefore (a b : Order α × Nat) : Prop :=
  a.1.closeTime < b.1.closeTime ∨ a.1.closeTime = b.1.closeTime ∧
    (a.1.ticket < b.1.ticket ∨ a.1.ticket = b.1.ticket ∧ a.2 < b.2)

end Order

namespace TradeRow

variable {α : Type}

section Records

variable [Arith α] (symbol : String) (balance : α)

theorem length_ofOrders (orders : List (Order α)) :
    (ofOrders symbol balance orders).length = orders.length := by
  induction orders generalizing balance with
  | nil => rfl
  | cons o rest ih => exact congrArg Nat.succ (ih _)

variable {symbol balance}

theorem mem_zip_ofOrders {orders : List (Order α)} {x : Order α × TradeRow α}
    (h : x ∈ orders.zip (ofOrders symbol balance orders)) :
    x.1 ∈ orders ∧ x.2.ticket = x.1.ticket ∧ x.2.closeTime = timestampText x.1.closeTime := by
  induction orders generalizing balance with
  | nil => cases h
  | cons o rest ih =>
    rcases List.mem_cons.mp h with rfl | later
    · exact ⟨List.mem_cons_self, rfl, rfl⟩
    · obtain ⟨mem, record⟩ := ih later
      exact ⟨List.mem_cons_of_mem _ mem, record⟩

theorem before_eq {orders : List (Order α)}
    (years : ∀ o ∈ orders, Date.InFourDigits (Date.ofDayNumber (o.closeTime / 86400)).year)
    {x y : Order α × TradeRow α} (hx : x ∈ orders.zip (ofOrders symbol balance orders))
    (hy : y ∈ orders.zip (ofOrders symbol balance orders)) :
    x.1.closedBefore y.1 = x.2.before y.2 := by
  obtain ⟨mem, ticket, time⟩ := mem_zip_ofOrders hx
  obtain ⟨mem', ticket', time'⟩ := mem_zip_ofOrders hy
  have less := timestampText_lt_iff (years x.1 mem) (years y.1 mem')
  have same := timestampText_inj_iff (years x.1 mem) (years y.1 mem')
  unfold Order.closedBefore before
  simp only [ticket, ticket', time, time', less, beq_eq_decide, same]

/-- In the years of four digits, the order of the texts is the order of the seconds. -/
theorem sorted_ofOrders {orders : List (Order α)}
    (years : ∀ o ∈ orders, Date.InFourDigits (Date.ofDayNumber (o.closeTime / 86400)).year) :
    sorted (ofOrders symbol balance orders) =
      ((orders.zip (ofOrders symbol balance orders)).mergeSort
        fun x y => x.1.closedBefore y.1).map Prod.snd := by
  have records : (orders.zip (ofOrders symbol balance orders)).map Prod.snd =
      ofOrders symbol balance orders :=
    List.map_snd_zip (length_ofOrders symbol balance orders).le
  rw [List.map_mergeSort (f := Prod.snd) fun x hx y hy => before_eq years hx hy, records]
  rfl

end Records

/-- Orders with something beside them, in the order of their closing times, and with their places. -/
def listing {β : Type} (pairs : List (Order α × β)) : List ((Order α × β) × Nat) :=
  pairs.zipIdx.mergeSort (List.zipIdxLE fun x y => x.1.closedBefore y.1)

section Listing

variable {β : Type} (pairs : List (Order α × β))

theorem zipIdxLE_iff {le : β → β → Bool} {x y : β × Nat} :
    List.zipIdxLE le x y = true ↔ le x.1 y.1 = true ∧ (le y.1 x.1 = true → x.2 ≤ y.2) := by
  unfold List.zipIdxLE
  cases le x.1 y.1 <;> cases le y.1 x.1 <;> simp

theorem map_listing :
    (listing pairs).map Prod.fst = pairs.mergeSort fun x y => x.1.closedBefore y.1 :=
  List.mergeSort_zipIdx

theorem listing_perm : (listing pairs).Perm pairs.zipIdx := List.mergeSort_perm _ _

theorem listing_places : (listing pairs).Pairwise (·.2 ≠ ·.2) := by
  have places := (listing_perm pairs).map Prod.snd
  rw [List.zipIdx_map_snd] at places
  exact List.pairwise_map.mp (places.nodup_iff.mpr List.nodup_range')

/-- The sort is stable: what it could swap is listed in the order of the places. -/
theorem listing_pairwise :
    (listing pairs).Pairwise fun x y => Order.ToldBefore (x.1.1, x.2) (y.1.1, y.2) := by
  have trans (x y z : Order α × β) := x.1.closedBefore_trans y.1 z.1
  have total (x y : Order α × β) := x.1.closedBefore_total y.1
  have ordered : (listing pairs).Pairwise
      (List.zipIdxLE (fun x y => x.1.closedBefore y.1) · ·) :=
    List.pairwise_mergeSort (List.zipIdxLE_trans trans) (List.zipIdxLE_total total) _
  refine (ordered.and (listing_places pairs)).imp fun {x y} ⟨le, apart⟩ => ?_
  rw [zipIdxLE_iff, Order.closedBefore_iff, Order.closedBefore_iff] at le
  unfold Order.ToldBefore
  dsimp only
  omega

end Listing

/-- Where all orders are closed in the years of four digits, the table of their records goes by the closing
times. Each record is listed once; earlier closes come first, of closes at one time the smaller ticket, and
what has both in common stays as it was. So the texts put the records in the order in which the seconds put
them: of two times in these years, the text of the earlier one is the smaller one. -/
theorem table_chronological (symbol : String) (balance : Float) {orders : List (Order Float)}
    (years : ∀ o ∈ orders, Date.InFourDigits (Date.ofDayNumber (o.closeTime / 86400)).year) :
    let records := ofOrders symbol balance orders
    (∃ listed : List ((Order Float × TradeRow Float) × Nat),
      table records =
          (if orders.isEmpty then ""
            else Table.write ',' (header :: listed.map fun x => x.1.2.fields)) ∧
        listed.Perm (orders.zip records).zipIdx ∧ (listed.map fun x => x.1.2).Perm records ∧
        listed.Pairwise fun x y => Order.ToldBefore (x.1.1, x.2) (y.1.1, y.2)) ∧
      sorted records =
        ((orders.zip records).mergeSort fun x y => x.1.closedBefore y.1).map Prod.snd ∧
      ∀ time time', Date.InFourDigits (Date.ofDayNumber (time / 86400)).year →
        Date.InFourDigits (Date.ofDayNumber (time' / 86400)).year →
        (timestampText time < timestampText time' ↔ time < time') := by
  intro records
  have bySeconds : sorted records = _ := sorted_ofOrders years
  have listed : sorted records = (listing (orders.zip records)).map fun x => x.1.2 := by
    rw [bySeconds, ← map_listing, List.map_map]
    rfl
  have empty : (ofOrders symbol balance orders).isEmpty = orders.isEmpty := by
    cases orders <;> rfl
  refine ⟨⟨listing (orders.zip records), ?_, listing_perm _, ?_, listing_pairwise _⟩, bySeconds,
    fun _ _ => timestampText_lt_iff⟩
  · unfold table
    rw [listed, List.map_map, empty]
    rfl
  · rw [← listed]
    exact List.mergeSort_perm _ _

def closedAt (ticket instanceId closeTime : Int) : Order Float :=
  ⟨ticket, instanceId, .buy, closeTime, closeTime, 0, 0, 0, 1, 1, 1, 0, 0, 0, false⟩

def centuries : List (Order Float) :=
  [closedAt 1 1 253402300799, closedAt 4 1 0, closedAt 3 2 0, closedAt 3 1 0, closedAt 2 1 (-1),
    closedAt 5 1 (-62167219200)]

theorem centuries_chronological :
    (∀ o ∈ centuries, Date.InFourDigits (Date.ofDayNumber (o.closeTime / 86400)).year) ∧
      let records := ofOrders "EURUSD" 10000 centuries
      sorted records =
          ((centuries.zip records).mergeSort fun x y => x.1.closedBefore y.1).map Prod.snd ∧
        (centuries.mergeSort Order.closedBefore).map
            (fun o => (timestampText o.closeTime, o.ticket, o.instanceId)) =
          [("0000-01-01 00:00:00", 5, 1), ("1969-12-31 23:59:59", 2, 1), ("1970-01-01 00:00:00", 3, 2),
            ("1970-01-01 00:00:00", 3, 1), ("1970-01-01 00:00:00", 4, 1),
            ("9999-12-31 23:59:59", 1, 1)] := by
  have years : ∀ o ∈ centuries, Date.InFourDigits (Date.ofDayNumber (o.closeTime / 86400)).year := by
    decide
  exact ⟨years, (table_chronological "EURUSD" 10000 years).2.1, by cbv⟩

end TradeRow
end Backtest
