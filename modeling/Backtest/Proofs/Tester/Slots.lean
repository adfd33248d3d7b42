import Backtest.Proofs.Config.Accepted
import Backtest.Proofs.Config.Slots
import Backtest.Proofs.Instance.Labels
import Backtest.Proofs.Portfolio.Asking
import Backtest.Proofs.Random.Draw
import Backtest.Proofs.Tester.Plans
import Backtest.Tester.Run

namespace Backtest

/-- A loader of engines that write their calls down. -/
def EngineLoader.recorded {α σ : Type} (engines : EngineLoader α σ) : EngineLoader α (σ × CallLog α σ) :=
  fun path => (engines path).map Engine.recorded

theorem EngineLoader.exists_of_recorded {α σ : Type} {engines : EngineLoader α σ} {path : String}
    {e : Engine α (σ × CallLog α σ)} (found : engines.recorded path = some e) :
    ∃ e₀ : Engine α σ, e = e₀.recorded := by
  obtain ⟨e₀, -, rfl⟩ := Option.map_eq_some_iff.mp found
  exact ⟨e₀, rfl⟩

section Shown

variable {α σ : Type} [Arith α] {P : Snapshot α → Prop} (c : RunScope α)

theorem Portfolio.run_shows (stop : StopPoint) {p : Portfolio α (σ × CallLog α σ)}
    {plans : List (InstancePlan α (σ × CallLog α σ))} (planned : Planned plans p)
    (recorded : ∀ y ∈ plans, ∃ e : Engine α σ, y.engine = e.recorded)
    (labels : ∀ y ∈ plans, ∀ x, y.Labels x → P x) (s : p.host.Shows P) :
    (p.run c stop).1.host.Shows P := by
  have asked : (p.runAll c stop).1.host.Shows P := by
    refine runAll_asks c stop (fun h x y hy hx s => s.call (labels y hy x hx)) planned
      (fun h request r hr s => ?_) s
    obtain ⟨e, he⟩ := recorded r.plan (planned r hr)
    rw [he]
    exact s.start e request
  exact asked.releaseAll

/-- A candidate shows its own id and its own slots. -/
theorem InstancePlan.runCandidate_shows {y : InstancePlan α (σ × CallLog α σ)} {e : Engine α σ}
    (recorded : y.engine = e.recorded) (worker : Nat) (w : σ) (values : Assignment α)
    (labels : ∀ id x, workerId (α := α) y.instanceId worker = .ok id → (y.candidate id values).Labels x →
      P x) :
    ∀ x ∈ CallLog.shown (y.runCandidate c worker (w, []) values).1.2, P x := by
  unfold runCandidate
  split
  next => exact fun x hx => absurd hx List.not_mem_nil
  next id hid =>
    let bare : InstancePlan α σ :=
      ⟨id, e, y.engineConfig, (y.candidate id values).settings, y.account, y.rates⟩
    have same : y.candidate id values = bare.recorded := by
      unfold candidate
      rw [recorded]
      rfl
    have shows := InstanceRun.run_shows (P := P) c none bare
      (fun x hx => labels id x hid (same ▸ hx)) (.empty P w EngineHost.standardRetries)
    rw [same]
    dsimp only
    generalize (InstanceRun.ofPlan c bare.recorded).run c none
      (EngineHost.empty (w, []) EngineHost.standardRetries) = out at shows
    obtain ⟨host, r, fault⟩ := out
    cases fault with
    | none => exact shows.releaseAll.shown
    | some f => exact shows.releaseAll.shown

end Shown

namespace Tester

variable {σ : Type}

def worldAfter (x : Tester Float) (plans : List (InstancePlan Float σ)) (stop : StopPoint) (world : σ) : σ :=
  match plans.foldlM (Portfolio.add x.scope)
      (Portfolio.empty x.scope (EngineHost.empty world EngineHost.standardRetries)) with
  | .error _ => world
  | .ok p => (p.run x.scope stop).1.host.world

/-- What comes after its portfolio does not touch the state of the engines of a test. -/
theorem runTest_world (x : Tester Float) (plans : List (InstancePlan Float σ)) (stop : StopPoint)
    (t : FileTree) (world : σ) : (x.runTest plans stop t world).world = x.worldAfter plans stop world := by
  unfold runTest worldAfter
  dsimp only
  cases plans.foldlM (Portfolio.add x.scope)
    (Portfolio.empty x.scope (EngineHost.empty world EngineHost.standardRetries)) with
  | error f => rfl
  | ok p =>
    dsimp only
    cases p.run x.scope stop with
    | mk p fault =>
      cases fault with
      | some f => rfl
      | none =>
        dsimp only
        cases x.exitDirectory t with
        | error f => rfl
        | ok t =>
          dsimp only
          split <;> rfl

theorem runTest_shows {P : Snapshot Float → Prop} (x : Tester Float)
    {plans : List (InstancePlan Float (σ × CallLog Float σ))}
    (recorded : ∀ y ∈ plans, ∃ e : Engine Float σ, y.engine = e.recorded)
    (labels : ∀ y ∈ plans, ∀ v, y.Labels v → P v) (stop : StopPoint) (t : FileTree) (w : σ) :
    ∀ v ∈ CallLog.shown (x.runTest plans stop t (w, [])).world.2, P v := by
  rw [runTest_world]
  unfold worldAfter
  split
  next => exact fun v hv => absurd hv List.not_mem_nil
  next p hassembled =>
    obtain ⟨rfl, -⟩ := Portfolio.assembled_eq hassembled
    refine (Portfolio.run_shows x.scope stop (fun r hr => ?_) recorded labels (.empty P w _)).shown
    obtain ⟨y, hy, rfl⟩ := List.mem_map.mp hr
    exact hy

/-- On every snapshot that a test shows, the order array has the size of the order limit, and the slot of
the id has the id unless the settings of the instance have another value for it. On every snapshot that a
candidate shows, the slot of the id has the candidate's id, and the slots about orders have the size of
the order limit unless the candidate has values for them. -/
theorem snapshots_labelled (x : Tester Float) (engines : EngineLoader Float σ)
    {plans : List (InstancePlan Float (σ × CallLog Float σ))}
    (made : x.plans engines.recorded = .ok plans) :
    (∀ stop t w, ∀ v ∈ CallLog.shown (x.runTest plans stop t (w, [])).world.2,
      ∃ s ∈ x.config.systems, v.instanceId = s.instanceId ∧
        v.settings.get Slot.orderArraySize = v.settings.get Slot.orderLimit ∧
        v.settings.get Slot.instanceId =
          (s.settingFor Slot.instanceId).getD (Arith.ofInt v.instanceId)) ∧
    ∀ y ∈ plans, ∃ s ∈ x.config.systems, y.instanceId = s.instanceId ∧
      y.settings.get Slot.orderLimit = (s.settingFor Slot.orderLimit).getD 1 ∧
      ∀ worker w values, ∀ v ∈ CallLog.shown (y.runCandidate x.scope worker (w, []) values).1.2,
        workerId (α := Float) s.instanceId worker = .ok v.instanceId ∧
        v.settings.get Slot.instanceId = Arith.ofInt v.instanceId ∧
        v.settings.get Slot.orderLimit =
          (values.valueFor Slot.orderLimit).getD (y.settings.get Slot.orderLimit) ∧
        v.settings.get Slot.orderArraySize =
          (values.valueFor Slot.orderArraySize).getD (y.settings.get Slot.orderLimit) := by
  have realised := planAll_realises made
  have configured : ∀ y ∈ plans, ∃ s ∈ x.config.systems,
      Realises x.config.common engines.recorded s y := fun y hy => exists_mem_left realised hy
  have recorded : ∀ y ∈ plans, ∃ e : Engine Float σ, y.engine = e.recorded := by
    intro y hy
    obtain ⟨s, -, found, -⟩ := configured y hy
    exact EngineLoader.exists_of_recorded found
  refine ⟨fun stop t w => ?_, fun y hy => ?_⟩
  · refine x.runTest_shows recorded (fun y hy v hv => ?_) stop t w
    obtain ⟨s, hs, -, id, slots⟩ := configured y hy
    obtain ⟨array, -, own⟩ := SystemConfig.slots_get slots
    rw [hv.1, hv.2, id]
    exact ⟨s, hs, rfl, array, own⟩
  · obtain ⟨s, hs, -, id, slots⟩ := configured y hy
    obtain ⟨array, limit, -⟩ := SystemConfig.slots_get slots
    obtain ⟨e, he⟩ := recorded y hy
    refine ⟨s, hs, id, limit, fun worker w values => ?_⟩
    refine y.runCandidate_shows x.scope he worker w values fun own v hown hv => ?_
    rw [hv.1, hv.2, ← id]
    have ne : Slot.orderLimit ≠ Slot.instanceId ∧ Slot.orderArraySize ≠ Slot.instanceId := by decide
    refine ⟨hown, ?_, ?_, ?_⟩
    · rw [InstancePlan.candidate_get, if_pos rfl]
      rfl
    · rw [InstancePlan.candidate_get, if_neg ne.1]
    · rw [InstancePlan.candidate_get, if_neg ne.2, array]

section Sample

def sampleTester (mode : String) (s : SystemConfig Float) : Tester Float where
  config := sampleConfig mode s
  scope :=
    { RunScope.start 10000 "USD" 1 with
      threads := 2
      exitPath := "out"
      symbols := [(7, "EURUSD")]
      conversions := [("EURUSD", [])] }
  market := { Market.empty "." 1 with histories := [("EURUSD", InstanceRun.samplePrices)] }

def sampleEngines : EngineLoader Float (ScriptLog Float) := fun _ => some (Script.mk 0 []).engine

def unsetTester (mode : String) : Tester Float := sampleTester mode (sampleSystem "EURUSD" [])

/-- An instance whose settings have another value for the slot of its id. -/
def renamedTester : Tester Float :=
  sampleTester RunConfig.testMode (sampleSystem "EURUSD" [("STRATEGY_INSTANCE_ID", 5)])

theorem exists_plans (x : Tester Float) (engines : EngineLoader Float σ)
    (P : List (InstancePlan Float σ) → Prop) [DecidablePred P]
    (h : (match x.plans engines with | .ok plans => decide (P plans) | .error _ => false) = true) :
    ∃ plans, x.plans engines = .ok plans ∧ P plans := by
  cases made : x.plans engines with
  | error e =>
    rw [made] at h
    cases h
  | ok plans =>
    rw [made] at h
    exact ⟨plans, rfl, of_decide_eq_true h⟩

/-- Without settings, the slots agree with the instance on each of the three snapshots of a test. -/
theorem unset_labelled :
    let x := unsetTester RunConfig.testMode
    ∃ plans, x.plans sampleEngines.recorded = .ok plans ∧
      let shown := CallLog.shown (x.runTest plans none .empty (Script.log 0, [])).world.2
      shown.length = 3 ∧ ∀ v ∈ shown,
        v.settings.get Slot.orderArraySize = v.settings.get Slot.orderLimit ∧
          v.settings.get Slot.instanceId = Arith.ofInt v.instanceId := by
  dsimp only
  simp only [runTest_world]
  obtain ⟨plans, made, count⟩ := exists_plans (unsetTester RunConfig.testMode) sampleEngines.recorded
    (fun plans => (CallLog.shown
      ((unsetTester RunConfig.testMode).worldAfter plans none (Script.log 0, [])).2).length = 3)
    (by decide +kernel)
  refine ⟨plans, made, count, fun v hv => ?_⟩
  rw [← runTest_world _ _ _ .empty] at hv
  obtain ⟨s, hs, -, array, own⟩ := (snapshots_labelled _ sampleEngines made).1 none .empty _ v hv
  obtain rfl := List.mem_singleton.mp hs
  exact ⟨array, own⟩

/-- Of two accepted configurations, the settings of one part the slot of the id from the instance, and a
candidate of the other, the last point of its grid, parts the two slots about orders. -/
theorem accepted_mislabelled :
    ((∃ t, renamedTester.config.check 2 .empty = .ok (renamedTester.config, t)) ∧
      RunScope.ofConfig 2 renamedTester.config = .ok renamedTester.scope ∧
      ∃ plans, renamedTester.plans sampleEngines.recorded = .ok plans ∧
        ∃ v ∈ CallLog.shown (renamedTester.runTest plans none .empty (Script.log 0, [])).world.2,
          v.instanceId = 7 ∧ v.settings.get Slot.instanceId = 5) ∧
    let x := unsetTester RunConfig.searchMode
    (∃ t, x.config.check 2 .empty = .ok (x.config, t)) ∧ RunScope.ofConfig 2 x.config = .ok x.scope ∧
      ∃ plans, x.plans sampleEngines.recorded = .ok plans ∧
        ∃ y ∈ plans, ∃ v ∈ CallLog.shown (y.runCandidate x.scope 1 (Script.log 0, []) [(45, 3)]).1.2,
          v.settings.get Slot.orderLimit = 3 ∧ v.settings.get Slot.orderArraySize = 1 := by
  refine ⟨⟨?_, rfl, ?_⟩, ?_, rfl, ?_⟩
  · exact sampleConfig_checked _ _ (by decide +kernel) (by decide +kernel) (by decide +kernel)
  · simp only [runTest_world]
    exact exists_plans _ _ _ (by decide +kernel)
  · exact sampleConfig_checked _ _ (by decide +kernel) (by decide +kernel) (by decide +kernel)
  · exact exists_plans _ _ _ (by decide +kernel)

end Sample

end Tester
end Backtest
