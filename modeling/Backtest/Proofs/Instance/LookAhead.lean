import Backtest.Arith.Double
import Backtest.Engine.Script
import Backtest.Proofs.Instance.Twin
import Backtest.Proofs.Market.SameUntil

namespace Backtest

/-- An engine that keeps everything it is shown. -/
def Engine.recording {α σ : Type} (e : Engine α σ) : Engine α (σ × List (Snapshot α)) :=
  { e.focus Prod.fst (fun w s => (s, w.2)) with
    call := fun w x =>
      let (s, answer) := e.call w.1 x
      ((s, w.2 ++ [x]), answer) }

/-- A plan on some rates, whose engine keeps everything it is shown. -/
def InstancePlan.recording {α σ : Type} (p : InstancePlan α σ) (v : MarketView α) :
    InstancePlan α (σ × List (Snapshot α)) :=
  ⟨p.instanceId, p.engine.recording, p.engineConfig, p.settings, p.account, v⟩

namespace InstanceRun

variable {α σ : Type} [Arith α]

/-- A whole run is a play over all its bars and one step more, after which the instance is released. -/
theorem run_eq_play (c : RunScope α) (stop : StopPoint) (host : EngineHost α σ)
    (r : InstanceRun α σ) :
    r.run c stop host =
      let (host', r', fault) := r.play c stop (r.barsLeft + 1) host
      (host'.release r'.instanceId, r', fault) := by
  have hleft : (r.start c host).2.1.barsLeft = r.barsLeft := by
    obtain ⟨hcursor, hprimary⟩ := start_bars c host r
    unfold barsLeft
    rw [hcursor, hprimary]
  unfold run play
  generalize r.start c host = x at hleft ⊢
  obtain ⟨host', r', fault⟩ := x
  dsimp only at hleft
  cases fault with
  | some f => rfl
  | none => rw [← hleft]

/-- Two runs of one plan, on histories that agree until the bar at `t` opens, have shown their engine the
same, have emitted the same events and have the same balance after each of the bars up to `t`. -/
theorem no_look_ahead {m₁ m₂ : Market Float} (reached₁ : m₁.Reached) (reached₂ : m₂.Reached)
    {symbol currency : String} {timeframe digits : Nat} {requirements : List Requirement}
    {v₁ v₂ : MarketView Float}
    (setup₁ : (m₁.buildView symbol timeframe requirements digits currency).2 = .ok v₁)
    (setup₂ : (m₂.buildView symbol timeframe requirements digits currency).2 = .ok v₂)
    (positive : 0 < m₁.baseTimeframe) {times₁ times₂ : List Int}
    (coherent₁ : m₁.Coherent (Market.symbolsRead symbol requirements) times₁)
    (coherent₂ : m₂.Coherent (Market.symbolsRead symbol requirements) times₂)
    {t : Int} (bar : t ∈ times₁) (same : Market.SameUntil t symbol currency requirements m₁ m₂)
    {σ : Type} (c : RunScope Float) (p : InstancePlan Float σ) (stop : StopPoint)
    (host : EngineHost Float (σ × List (Snapshot Float))) {n : Nat}
    (upto : n ≤ (times₁.filter (· ≤ t)).length) :
    let played₁ := (ofPlan c (p.recording v₁)).play c stop n host
    let played₂ := (ofPlan c (p.recording v₂)).play c stop n host
    times₁.filter (· ≤ t) = times₂.filter (· ≤ t) ∧
      played₁.1.world.2 = played₂.1.world.2 ∧
      played₁.2.1.book.events = played₂.2.1.book.events ∧
      played₁.2.1.book.balance = played₂.2.1.book.balance ∧
      played₁.2.1.statistics = played₂.2.1.statistics ∧ played₁.2.2 = played₂.2.2 := by
  intro played₁ played₂
  have alike : Market.Alike t symbol currency requirements times₁ times₂ m₁ m₂ :=
    ⟨positive, reached₁.sound, reached₂.sound, coherent₁, coherent₂, bar, same⟩
  have views₁ := (Market.buildView_spec alike.sound₁ ..).2 v₁ setup₁
  have views₂ := (Market.buildView_spec alike.sound₂ ..).2 v₂ setup₂
  have fresh := ofPlan_twin c (p.recording v₁) (alike.sameBars views₁.primary views₂.primary)
    (alike.views views₁ views₂)
  have hpos : 0 < (times₁.filter (Series.upTo t)).length :=
    List.length_pos_of_mem (List.mem_filter.mpr ⟨bar, Series.upTo_iff.mpr (Int.le_refl t)⟩)
  have past := alike.past views₁.primary views₂.primary
  have hn : 0 + n ≤ (times₁.filter (Series.upTo t)).length := (Nat.zero_add n).le.trans upto
  have together := fresh.play c stop hpos hn host
  exact ⟨past, congrArg (·.world.2) together.host, congrArg OrderBook.events together.runs.book,
    congrArg OrderBook.balance together.runs.book, together.runs.statistics, together.fault⟩

section Sample

def sampleBar (time : Int) (openPrice close : Float) : Bar Float :=
  ⟨time, openPrice, openPrice, close, close, 0, 0, 0⟩

def sampleMarket (traded dollars : Series Float) : Market Float :=
  ((Market.empty "." 1).put "EURUSD" traded).put "GBPUSD" dollars

def quietMarket : Market Float :=
  sampleMarket
    #[sampleBar 0 1.1 1.1, sampleBar 60 1.1 1.1, sampleBar 120 1.1 1.1, sampleBar 180 1.1 1.1,
      sampleBar 240 1.1 1.1, sampleBar 300 1.1 1.1]
    #[sampleBar 0 1.2 1.2, sampleBar 150 1.3 1.3]

/-- The market jumps once the bar at 240 has opened, and the next bar comes later. -/
def wildMarket : Market Float :=
  sampleMarket
    #[sampleBar 0 1.1 1.1, sampleBar 60 1.1 1.1, sampleBar 120 1.1 1.1, sampleBar 180 1.1 1.1,
      sampleBar 240 1.1 1.5, sampleBar 420 1.5 1.1]
    #[sampleBar 0 1.2 1.1, sampleBar 150 1.3 1.7, sampleBar 250 9 9]

def sampleRequirements : List Requirement := [⟨"D", 0, 1⟩, ⟨"D", 2, 1⟩]

def samplePurchase : InstancePlan Float (ScriptLog Float) where
  instanceId := 1
  engine := (Script.mk 0 [(2, .place .buy 1 0 0.01 0.02)]).engine
  engineConfig := ""
  settings := Vector.replicate slotCount 0
  account := .standard
  rates := ⟨"EURUSD", none, "GBP", #[], [], []⟩

theorem sampleMarket_reached {traded dollars : Series Float} (ht : traded.firstUnordered? = none)
    (hd : dollars.firstUnordered? = none) : (sampleMarket traded dollars).Reached := by
  have insert_eq {m : Market Float} {symbol : String} {s : Series Float}
      (h : s.firstUnordered? = none) : m.insert symbol s = .ok (m.put symbol s) := by
    unfold Market.insert History.orderFault?
    rw [h]
    rfl
  exact .insert (.insert (.empty "." 1) (insert_eq ht)) (insert_eq hd)

def setUpSample (m : Market Float) : Except (Fault Float) (MarketView Float) :=
  (m.buildView "EURUSD" 1 sampleRequirements 5 "GBP").2

def playSample (v : MarketView Float) :
    EngineHost Float (ScriptLog Float × List (Snapshot Float)) ×
      InstanceRun Float (ScriptLog Float × List (Snapshot Float)) × Option (Fault Float) :=
  let c : RunScope Float := .start 10000 "GBP" 1
  (ofPlan c (samplePurchase.recording v)).play c none 5 (.empty (Script.log 0, []) 0)

theorem quietMarket_coherent :
    quietMarket.Coherent (Market.symbolsRead "EURUSD" sampleRequirements)
      [0, 60, 120, 180, 240, 300] where
  shared := by decide +kernel
  spaced := by unfold Spaced; decide

theorem wildMarket_coherent :
    wildMarket.Coherent (Market.symbolsRead "EURUSD" sampleRequirements)
      [0, 60, 120, 180, 240, 420] where
  shared := by decide +kernel
  spaced := by unfold Spaced; decide

theorem quiet_wild_sameUntil :
    Market.SameUntil 240 "EURUSD" "GBP" sampleRequirements quietMarket wildMarket where
  timeframe := by decide +kernel
  closed := by decide +kernel
  opening := by decide +kernel
  converting := by decide +kernel

theorem ok_of_toOption {ε β : Type} {x : Except ε β} (h : x.toOption.isSome = true) :
    ∃ b, x = .ok b := by
  cases x with
  | error e => cases h
  | ok b => exact ⟨b, rfl⟩

theorem quiet_and_wild_alike :
    quietMarket.histories ≠ wildMarket.histories ∧
    ∃ v₁ v₂, setUpSample quietMarket = .ok v₁ ∧ setUpSample wildMarket = .ok v₂ ∧
      (playSample v₁).1.world.2.length = 2 ∧
      (playSample v₁).1.world.2 = (playSample v₂).1.world.2 ∧
      (playSample v₁).2.1.book.events = (playSample v₂).2.1.book.events := by
  have reached₁ : quietMarket.Reached :=
    sampleMarket_reached (by decide +kernel) (by decide +kernel)
  have reached₂ : wildMarket.Reached :=
    sampleMarket_reached (by decide +kernel) (by decide +kernel)
  obtain ⟨v₁, setup₁⟩ : ∃ v, setUpSample quietMarket = .ok v := ok_of_toOption (by decide +kernel)
  obtain ⟨v₂, setup₂⟩ : ∃ v, setUpSample wildMarket = .ok v := ok_of_toOption (by decide +kernel)
  have asked : ((setUpSample quietMarket).toOption.map fun v => (playSample v).1.world.2.length) =
      some 2 := by decide +kernel
  rw [setup₁] at asked
  obtain ⟨-, shown, events, -⟩ := no_look_ahead reached₁ reached₂ setup₁ setup₂ (by decide)
    quietMarket_coherent wildMarket_coherent (by decide) quiet_wild_sameUntil
    (.start 10000 "GBP" 1) samplePurchase none (.empty (Script.log 0, []) 0) (n := 5) (by decide)
  exact ⟨by decide +kernel, v₁, v₂, setup₁, setup₂, Option.some.inj asked, shown, events⟩

end Sample

end InstanceRun
end Backtest
