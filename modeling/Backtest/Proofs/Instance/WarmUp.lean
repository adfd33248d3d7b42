import Backtest.Proofs.Instance.Bar
import Backtest.Proofs.Instance.Ledgers
import Backtest.Proofs.Instance.LookAhead
import Backtest.Proofs.Market.WarmUp

namespace Backtest

namespace InstanceRun

variable {α σ : Type} [Arith α]

/-- A run before a bar on which its rates are warm if they ever were, and its engine can be asked. -/
structure Ready (host : EngineHost α σ) (r : InstanceRun α σ) : Prop where
  live : host.isLive r.instanceId = true
  stands : ∀ bar, r.primary.bar? r.cursor = some bar → (r.rates.advance bar.time).StandsAt bar.time
  warm : 0 < r.engineCalls → ∀ bar, r.primary.bar? r.cursor = some bar →
    (r.rates.advance bar.time).isWarm = true

structure StaysWarm (times : List Int) (host : EngineHost α σ) (r : InstanceRun α σ) : Prop where
  furnished : r.rates.Furnished times
  increasing : r.primary.Increasing
  shared : r.primary.toList.map Bar.time = times
  ready : r.state = .running → Ready host r

namespace StaysWarm

variable {times : List Int} {host : EngineHost α σ} {r : InstanceRun α σ}

/-- The engine's answer leaves rates at the time of the bar, warm if it was ever asked for one. -/
theorem answered (h : StaysWarm times host r) (hrunning : r.state = .running) {bar : Bar α}
    (hbar : r.primary.bar? r.cursor = some bar) (c : RunScope α) :
    (r.ask c host bar).2.1.rates = r.rates.advance bar.time ∧
      (0 < (r.ask c host bar).2.1.engineCalls → (r.rates.advance bar.time).isWarm = true) := by
  obtain ⟨book, hrun⟩ := ask_run c host r bar
  rw [hrun]
  refine ⟨rfl, fun hcalls => ?_⟩
  by_cases hdue : (r.settleBar bar).1.isDue c bar.time = true
  · exact ((Bool.and_eq_true _ _).mp hdue).2
  · have hcalls' : 0 < r.engineCalls := by simpa [hdue] using hcalls
    exact (h.ready hrunning).warm hcalls' bar hbar

theorem takeBar (h : StaysWarm times host r) (hrunning : r.state = .running) {bar : Bar α}
    (hbar : r.primary.bar? r.cursor = some bar) (c : RunScope α) :
    StaysWarm times (r.takeBar c host bar).1 (r.takeBar c host bar).2.1 := by
  obtain ⟨hrates, hwarm⟩ := h.answered hrunning hbar c
  obtain ⟨book, hrun⟩ := ask_run c host r bar
  have hplan : (r.ask c host bar).2.1.plan = r.plan := by rw [hrun]; rfl
  have hcursor : (r.ask c host bar).2.1.cursor = r.cursor := by rw [hrun]; rfl
  have hlive := ask_live c host r bar
  have hcases := takeBar_cases c host r bar
  generalize r.ask c host bar = asked at hrates hwarm hplan hcursor hlive hcases
  obtain ⟨host', r', fault⟩ := asked
  dsimp only at hrates hwarm hplan hcursor hlive hcases
  have hprimary : r'.primary = r.primary := congrArg (fun p => p.rates.primary) hplan
  have furnished : r'.rates.Furnished times := hrates ▸ h.furnished.advance bar.time
  rcases hcases with ⟨f, -, heq⟩ | ⟨-, -, heq⟩
  · rw [heq]
    exact ⟨furnished, hprimary ▸ h.increasing, hprimary ▸ h.shared, fun habort => by cases habort⟩
  · rw [heq, finishBar_eq]
    refine ⟨furnished, hprimary ▸ h.increasing, hprimary ▸ h.shared, fun _ => ?_⟩
    obtain ⟨live, stands, -⟩ := h.ready hrunning
    have mem : bar.time ∈ times :=
      h.shared ▸ List.mem_map_of_mem (Array.mem_def.mp (Array.mem_of_getElem? hbar))
    have later : ∀ next, r'.primary.bar? (r'.cursor + 1) = some next → bar.time ≤ next.time := by
      intro next hnext
      rw [hprimary, hcursor] at hnext
      exact Int.le_of_lt (h.increasing.time_lt hbar hnext (Nat.lt_succ_self _))
    have stands' : r'.rates.StandsAt bar.time := hrates ▸ stands bar hbar
    refine ⟨?_, fun next hnext => stands'.advance (later next hnext), fun hcalls next hnext => ?_⟩
    · have hid : r'.instanceId = r.instanceId := congrArg InstancePlan.instanceId hplan
      unfold EngineHost.isLive EngineHost.engine? at live ⊢
      rw [hlive]
      exact hid ▸ live
    · exact furnished.isWarm_advance stands' mem (later next hnext) (hrates ▸ hwarm hcalls)

theorem step (h : StaysWarm times host r) (c : RunScope α) (stopped : Bool) :
    StaysWarm times (r.step c stopped host).1 (r.step c stopped host).2.1 := by
  have h' : StaysWarm times host { r with stepEvents := [] } := by
    refine ⟨h.furnished, h.increasing, h.shared, fun hrunning => ?_⟩
    obtain ⟨live, stands, warm⟩ := h.ready hrunning
    exact ⟨live, stands, warm⟩
  rcases step_cases c stopped host r with
    ⟨-, heq⟩ | ⟨-, -, heq⟩ | ⟨-, -, -, heq⟩ | ⟨bar, hrunning, -, hbar, heq⟩
  · rw [heq]
    exact h'
  · rw [heq]
    exact ⟨h.furnished, h.increasing, h.shared, fun hrunning => by cases hrunning⟩
  · rw [heq]
    exact ⟨h.furnished, h.increasing, h.shared, fun hrunning => by cases hrunning⟩
  · rw [heq]
    exact h'.takeBar hrunning hbar c

theorem steps (h : StaysWarm times host r) (c : RunScope α) (stop : StopPoint) (n : Nat) :
    StaysWarm times (r.steps c stop n host).1 (r.steps c stop n host).2.1 := by
  induction n generalizing host r with
  | zero => exact h
  | succ n ih =>
    unfold InstanceRun.steps
    split
    next => exact h
    next =>
      have stepped := h.step c (stop.isReached r.cursor)
      generalize r.step c (stop.isReached r.cursor) host = out at stepped ⊢
      obtain ⟨host', r', fault⟩ := out
      cases fault with
      | some f => exact stepped
      | none => exact ih stepped

end StaysWarm

/-- Rates that have not moved yet keep a run warm from its start on. -/
theorem start_staysWarm {times : List Int} {p : InstancePlan α σ} (furnished : p.rates.Furnished times)
    (increasing : p.rates.primary.Increasing) (shared : p.rates.primary.toList.map Bar.time = times)
    (stands : ∀ t, (p.rates.advance t).StandsAt t) (c : RunScope α) (host : EngineHost α σ) :
    StaysWarm times ((ofPlan c p).start c host).1 ((ofPlan c p).start c host).2.1 := by
  obtain ⟨state, failure, hrun⟩ := start_run c host (ofPlan c p)
  have hengine := start_engine? (c := c) (h := host) (r := ofPlan c p) rfl
  rw [hrun] at hengine ⊢
  refine ⟨furnished, increasing, shared, fun running => ⟨?_, fun bar _ => stands bar.time, ?_⟩⟩
  · unfold EngineHost.isLive
    exact Option.isSome_iff_exists.mpr ⟨p.engine, hengine running⟩
  · exact fun hcalls => absurd hcalls (Nat.lt_irrefl 0)

theorem play_staysWarm {times : List Int} {p : InstancePlan α σ} (furnished : p.rates.Furnished times)
    (increasing : p.rates.primary.Increasing) (shared : p.rates.primary.toList.map Bar.time = times)
    (stands : ∀ t, (p.rates.advance t).StandsAt t) (c : RunScope α) (stop : StopPoint) (n : Nat)
    (host : EngineHost α σ) :
    StaysWarm times ((ofPlan c p).play c stop n host).1 ((ofPlan c p).play c stop n host).2.1 := by
  have started := start_staysWarm furnished increasing shared stands c host
  unfold play
  generalize (ofPlan c p).start c host = out at started ⊢
  obtain ⟨host', r', fault⟩ := out
  cases fault with
  | some f => exact started
  | none => exact started.steps c stop n

theorem StaysWarm.asks_again {times : List Int} {host : EngineHost α σ} {r : InstanceRun α σ}
    (h : StaysWarm times host r) (hrunning : r.state = .running) (hcalls : 0 < r.engineCalls)
    {bar : Bar α} (hbar : r.primary.bar? r.cursor = some bar) {c : RunScope α}
    (window : c.admitsTime bar.time = true) :
    (r.step c false host).2.1.engineCalls = r.engineCalls + 1 := by
  obtain ⟨live, -, warm⟩ := h.ready hrunning
  obtain ⟨book, hrun⟩ := ask_run c host { r with stepEvents := [] } bar
  have hdue : (settleBar { r with stepEvents := [] } bar).1.isDue c bar.time = true :=
    (Bool.and_eq_true _ _).mpr ⟨window, warm hcalls bar hbar⟩
  have hasked : (ask c host { r with stepEvents := [] } bar).2.1.engineCalls = r.engineCalls + 1 := by
    have live' : host.isLive (instanceId { r with stepEvents := [] }) = true := live
    rw [hrun, hdue, live']
    rfl
  rw [step_eq hbar, if_pos hrunning, if_neg Bool.false_ne_true]
  rcases takeBar_cases c host { r with stepEvents := [] } bar with ⟨f, -, heq⟩ | ⟨-, -, heq⟩
  · rw [heq]
    exact hasked
  · rw [heq, finishBar_eq]
    exact hasked

/-- On rates as they are set up from a coherent market, with windows that reach far enough, warm-up is
never lost; and a run whose engine was asked once asks it on every further bar of the window. -/
theorem warm_up_kept {m : Market α} (sound : m.Sound) (positive : 0 < m.baseTimeframe)
    {symbol currency : String} {timeframe digits : Nat} {requirements : List Requirement}
    {times : List Int} (coherent : m.Coherent (Market.symbolsRead symbol requirements) times)
    {v : MarketView α}
    (setup : (m.buildView symbol timeframe requirements digits currency).2 = .ok v)
    (reaches : ∀ b ∈ v.buffers, BarBuffer.Reaches b.info) :
    (∀ s ∈ times, ∀ t, s ≤ t → (v.advance s).isWarm = true →
      ((v.advance s).advance t).isWarm = true) ∧
    ∀ (p : InstancePlan α σ) (c : RunScope α) (stop : StopPoint) (n : Nat) (host : EngineHost α σ),
      let played := (ofPlan c { p with rates := v }).play c stop n host
      let r := played.2.1
      r.state = .running → 0 < r.engineCalls → ∀ bar, r.primary.bar? r.cursor = some bar →
        c.admitsTime bar.time = true →
        (r.step c false played.1).2.1.engineCalls = r.engineCalls + 1 := by
  have views := (Market.buildView_spec sound symbol timeframe requirements digits currency).2 v setup
  have furnished := views.furnished sound positive coherent reaches
  have shared := coherent.shared symbol List.mem_cons_self
  rw [Market.history_of_some views.primary] at shared
  have increasing := sound.history_increasing views.primary
  refine ⟨fun s hs t hst warm => ?_, fun p c stop n host => ?_⟩
  · exact (furnished.advance s).isWarm_advance (views.standsAt s) hs hst warm
  · intro played r hrunning hcalls bar hbar window
    have stays := play_staysWarm (p := { p with rates := v }) furnished increasing shared
      views.standsAt c stop n host
    exact stays.asks_again hrunning hcalls hbar window

section Sample

def minuteMarket (times : List Int) : Market Float :=
  (Market.empty "." 1).put "EURUSD" (times.map fun time => sampleBar time 1.1 1.1).toArray

def setUpMinutes (times : List Int) (required : Requirement) :
    Except (Fault Float) (MarketView Float) :=
  ((minuteMarket times).buildView "EURUSD" 1 [required] 5 "GBP").2

def playMinutes (v : MarketView Float) (n : Nat) :
    EngineHost Float (ScriptLog Float) × InstanceRun Float (ScriptLog Float) × Option (Fault Float) :=
  (ofPlan sampleScope { samplePlan [] with rates := v }).play sampleScope none n
    (.empty (Script.log 0) 0)

def runningCalls (r : InstanceRun Float (ScriptLog Float)) : Option Nat :=
  if r.isRunning then some r.engineCalls else none

def nineMinutes : List Int := [0, 60, 120, 180, 240, 300, 360, 420, 480]

/-- The window spans six minutes: seven minutes in, the only bar that has closed reaches out of it. -/
theorem warm_up_lost :
    ∃ v, setUpMinutes nineMinutes ⟨"D", 5, 1⟩ = .ok v ∧
      (v.advance 300).isWarm = true ∧ ((v.advance 300).advance 420).isWarm = false ∧
      runningCalls (playMinutes v 7).2.1 = some 2 ∧ runningCalls (playMinutes v 8).2.1 = some 2 := by
  obtain ⟨v, setup⟩ : ∃ v, setUpMinutes nineMinutes ⟨"D", 5, 1⟩ = .ok v :=
    ok_of_toOption (by decide +kernel)
  have seen : (setUpMinutes nineMinutes ⟨"D", 5, 1⟩).toOption.all fun v =>
      (v.advance 300).isWarm && !((v.advance 300).advance 420).isWarm &&
        runningCalls (playMinutes v 7).2.1 == some 2 &&
        runningCalls (playMinutes v 8).2.1 == some 2 := by
    decide +kernel
  rw [setup] at seen
  simp only [Except.toOption, Option.all_some, Bool.and_eq_true, Bool.not_eq_true', beq_iff_eq]
    at seen
  exact ⟨v, setup, seen.1.1.1, seen.1.1.2, seen.1.2, seen.2⟩

/-- Thirteen minutes with a gap of two behind the fourth, of which five bars of two minutes are needed. -/
def gappedMinutes : List Int :=
  [0, 60, 120, 180, 360, 420, 480, 540, 600, 660, 720, 780, 840]

theorem gappedMinutes_coherent :
    (minuteMarket gappedMinutes).Coherent (Market.symbolsRead "EURUSD" [⟨"D", 2, 5⟩])
      gappedMinutes where
  shared := by decide +kernel
  spaced := by unfold Spaced; decide

theorem gappedMinutes_reached : (minuteMarket gappedMinutes).Reached := by
  let bars : Series Float := (gappedMinutes.map fun time => sampleBar time 1.1 1.1).toArray
  have hbars : bars.firstUnordered? = none := by decide +kernel
  have inserted : (Market.empty "." 1).insert "EURUSD" bars = .ok (minuteMarket gappedMinutes) := by
    unfold Market.insert History.orderFault?
    rw [hbars]
    rfl
  exact .insert (.empty "." 1) inserted

/-- The window spans the twelve minutes of six bars, and the calls go on. -/
theorem gapped_warm_up_kept :
    ∃ v, setUpMinutes gappedMinutes ⟨"D", 2, 5⟩ = .ok v ∧
      (∀ b ∈ v.buffers, BarBuffer.Reaches b.info) ∧
      (v.advance 720).isWarm = true ∧ ((v.advance 720).advance 780).isWarm = true ∧
      runningCalls (playMinutes v 11).2.1 = some 1 ∧
      ((playMinutes v 11).2.1.step sampleScope false (playMinutes v 11).1).2.1.engineCalls = 2 := by
  obtain ⟨v, setup⟩ : ∃ v, setUpMinutes gappedMinutes ⟨"D", 2, 5⟩ = .ok v :=
    ok_of_toOption (by decide +kernel)
  have seen : (setUpMinutes gappedMinutes ⟨"D", 2, 5⟩).toOption.all fun v =>
      (v.buffers.all fun b => b.info.required == 2 && b.info.actual == 1 && b.info.bars == 5 &&
        b.info.capacity == 12) &&
      (v.advance 720).isWarm && runningCalls (playMinutes v 11).2.1 == some 1 &&
      ((playMinutes v 11).2.1.primary.bar? (playMinutes v 11).2.1.cursor).isSome := by
    decide +kernel
  rw [setup] at seen
  simp only [Except.toOption, Option.all_some, Bool.and_eq_true, List.all_eq_true, beq_iff_eq]
    at seen
  obtain ⟨⟨⟨hbuffers, hwarm⟩, hcalls⟩, hnext⟩ := seen
  have reaches : ∀ b ∈ v.buffers, BarBuffer.Reaches b.info := by
    intro b hb
    obtain ⟨⟨⟨hrequired, hactual⟩, hbars⟩, hcapacity⟩ := hbuffers b hb
    exact .inr ⟨2, by omega, by omega⟩
  obtain ⟨kept, asked⟩ := warm_up_kept gappedMinutes_reached.sound (by decide)
    gappedMinutes_coherent setup reaches
  obtain ⟨bar, hbar⟩ := Option.isSome_iff_exists.mp hnext
  have hrun : (playMinutes v 11).2.1.state = .running ∧ (playMinutes v 11).2.1.engineCalls = 1 := by
    unfold runningCalls at hcalls
    split at hcalls
    next hrunning => exact ⟨of_decide_eq_true hrunning, Option.some.inj hcalls⟩
    next => cases hcalls
  have again := asked (samplePlan []) sampleScope none 11 (.empty (Script.log 0) 0) hrun.1
    (hrun.2 ▸ Nat.one_pos) bar hbar rfl
  refine ⟨v, setup, reaches, hwarm, kept 720 (by decide) 780 (by decide) hwarm, hcalls, ?_⟩
  exact again.trans (congrArg (· + 1) hrun.2)

end Sample

end InstanceRun
end Backtest
