import Backtest.Portfolio.Report
import Backtest.Proofs.Instance.Isolation
import Backtest.Proofs.Instance.Ledgers
import Backtest.Proofs.Instance.LookAhead
import Backtest.Proofs.Portfolio.Passes

namespace Backtest
namespace Portfolio

open EngineHost (Mirrors)

variable {α σ : Type} [Arith α] {c : RunScope α} {host : EngineHost α σ}
  {served : List (Int × Engine α σ)}

/-- A run of a portfolio that has not started. -/
structure Fresh (c : RunScope α) (host : EngineHost α σ) (served : List (Int × Engine α σ))
    (h : EngineHost α σ) (r : InstanceRun α σ) : Prop where
  fresh : r = .ofPlan c r.plan
  mem : (r.instanceId, r.plan.engine) ∈ served
  mirrors : Mirrors served host.world r.instanceId h host

/-- A run of a portfolio that stands where the same plan alone stands after some steps. -/
structure AsAlone (c : RunScope α) (host : EngineHost α σ) (served : List (Int × Engine α σ))
    (h : EngineHost α σ) (r : InstanceRun α σ) : Prop where
  mem : (r.instanceId, r.plan.engine) ∈ served
  live : r.state = .running → h.engine? r.instanceId = some r.plan.engine
  played : ∃ n h', (InstanceRun.ofPlan c r.plan).play c none n host = (h', r, none) ∧
    Mirrors served host.world r.instanceId h h'

section Run

variable {h h' : EngineHost α σ} {r r' x : InstanceRun α σ}

theorem Fresh.start (fresh : Fresh c host served h r) (isolated : Isolated served host.world)
    (started : r.start c h = (h', r', none)) : AsAlone c host served h' r' := by
  obtain ⟨heq, same⟩ := InstanceRun.start_mirrors (c := c) isolated fresh.mem fresh.mirrors
  have hplan := InstanceRun.start_plan c h r
  have hstate : r.state = .notStarted := by
    rw [fresh.fresh]
    rfl
  have hlive := InstanceRun.start_engine? (c := c) (h := h) hstate
  rw [started] at heq same hplan hlive
  dsimp only at hplan hlive
  have hid : r'.instanceId = r.instanceId := congrArg InstancePlan.instanceId hplan
  -- the solo run has started and has taken no step yet
  refine ⟨?_, ?_, 0, (r.start c host).1, ?_, ?_⟩
  · rw [hid, hplan]
    exact fresh.mem
  · rw [hid, hplan]
    exact hlive
  · rw [hplan, ← fresh.fresh]
    rcases hout : r.start c host with ⟨h₂, r₂, fault⟩
    rw [hout] at heq
    cases heq
    unfold InstanceRun.play
    rw [hout]
    rfl
  · rw [hid]
    exact same

theorem Fresh.start_other (fresh : Fresh c host served h r)
    (hr : (x.instanceId, x.plan.engine) ∈ served) (hid : r.instanceId ≠ x.instanceId) :
    Fresh c host served (x.start c h).1 r :=
  ⟨fresh.fresh, fresh.mem, InstanceRun.start_mirrors_other hid.symm hr fresh.mirrors⟩

theorem AsAlone.start_other (alone : AsAlone c host served h r)
    (hr : (x.instanceId, x.plan.engine) ∈ served) (hid : r.instanceId ≠ x.instanceId) :
    AsAlone c host served (x.start c h).1 r := by
  obtain ⟨n, h₂, played, same⟩ := alone.played
  refine ⟨alone.mem, fun running => ?_, n, h₂, played, ?_⟩
  · rw [InstanceRun.start_engine?_other hid.symm]
    exact alone.live running
  · exact InstanceRun.start_mirrors_other hid.symm hr same

theorem AsAlone.engine_served (alone : AsAlone c host served h r) (running : r.state = .running)
    (e : Engine α σ) (he : h.engine? r.instanceId = some e) : (r.instanceId, e) ∈ served := by
  rw [alone.live running] at he
  cases he
  exact alone.mem

theorem AsAlone.step (alone : AsAlone c host served h r) (isolated : Isolated served host.world)
    (running : r.state = .running) (stepped : r.step c false h = (h', r', none)) :
    AsAlone c host served h' r' := by
  obtain ⟨n, h₂, played, same⟩ := alone.played
  obtain ⟨heq, same'⟩ := InstanceRun.step_mirrors (c := c) isolated (alone.engine_served running) same
    false
  have hplan := InstanceRun.step_plan c false h r
  have hlive := InstanceRun.step_live (c := c) (r := r) false h
  rw [stepped] at heq same' hplan hlive
  dsimp only at hplan hlive
  have hid : r'.instanceId = r.instanceId := congrArg InstancePlan.instanceId hplan
  -- where the solo run stands after `n` steps it takes the same step
  refine ⟨?_, fun _ => ?_, n + 1, (r.step c false h₂).1, ?_, ?_⟩
  · rw [hid, hplan]
    exact alone.mem
  · have live := alone.live running
    unfold EngineHost.engine? at live ⊢
    rw [hid, hplan, hlive]
    exact live
  · rw [hplan]
    unfold InstanceRun.play at played ⊢
    generalize (InstanceRun.ofPlan c r.plan).start c host = out at played ⊢
    obtain ⟨h₁, r₁, fault⟩ := out
    cases fault with
    | some f => cases played
    | none =>
      have played' : r₁.steps c none n h₁ = (h₂, r, none) := played
      dsimp only
      rw [InstanceRun.steps_add, played']
      dsimp only
      rw [InstanceRun.steps_succ c none 0 h₂ running]
      rcases hout : r.step c false h₂ with ⟨h₃, r₃, fault⟩
      rw [hout] at heq
      cases heq
      have hout' : r.step c (StopPoint.isReached none r.cursor) h₂ = (h₃, r', none) := hout
      rw [hout']
      rfl
  · rw [hid]
    exact same'

theorem AsAlone.step_other (alone : AsAlone c host served h r) (other : AsAlone c host served h x)
    (running : x.state = .running) (hid : r.instanceId ≠ x.instanceId) :
    AsAlone c host served (x.step c false h).1 r := by
  obtain ⟨n, h₂, played, same⟩ := alone.played
  refine ⟨alone.mem, fun hr => ?_, n, h₂, played, ?_⟩
  · have live := alone.live hr
    unfold EngineHost.engine? at live ⊢
    rw [InstanceRun.step_live]
    exact live
  · exact InstanceRun.step_mirrors_other hid.symm (other.engine_served running) same false

theorem AsAlone.run_eq (alone : AsAlone c host served h r) (halted : r.state ≠ .running) :
    ((InstanceRun.ofPlan c r.plan).run c none host).2 = (r, none) := by
  obtain ⟨n, h₂, played, -⟩ := alone.played
  rw [InstanceRun.run_eq_play, InstanceRun.play_of_halted played halted]

end Run

def Each (property : EngineHost α σ → InstanceRun α σ → Prop) (plans : List (InstancePlan α σ))
    (p : Portfolio α σ) : Prop :=
  (∀ r ∈ p.runs, property p.host r) ∧ p.runs.map InstanceRun.plan = plans

section Pass

variable {f : EngineHost α σ → Statistics α → Nat → InstanceRun α σ →
  (EngineHost α σ × Statistics α × Nat × InstanceRun α σ) × Option (Fault α)}
  {before after : EngineHost α σ → InstanceRun α σ → Prop}

omit [Arith α] in
/-- A pass turns what holds of each run into what its own turn makes of it, if the turns of the others
do no harm. -/
theorem eachRun_turns
    (own : ∀ {h s n r h' s' n' r'}, before h r → f h s n r = ((h', s', n', r'), none) →
      after h' r' ∧ r'.plan = r.plan)
    (others : ∀ {h s n r h' s' n' r' x}, before h r → f h s n r = ((h', s', n', r'), none) →
      x.instanceId ≠ r.instanceId → (before h x → before h' x) ∧ (after h x → after h' x))
    {plans : List (InstancePlan α σ)} (distinct : (plans.map InstancePlan.instanceId).Nodup)
    {p q : Portfolio α σ} (first : Each before plans p) (passed : p.eachRun f = (q, none)) :
    Each after plans q := by
  have turned := eachRun_induction
    (motive := fun done rest h _ _ => (∀ r ∈ done, after h r) ∧ (∀ r ∈ rest, before h r) ∧
      (done ++ rest).map InstanceRun.plan = plans)
    ?_ ⟨fun _ hr => absurd hr List.not_mem_nil, first⟩ passed
  · obtain ⟨hdone, -, hplans⟩ := turned
    rw [List.append_nil] at hplans
    exact ⟨hdone, hplans⟩
  · rintro done r rest h s n h' s' n' r' ⟨hdone, hrest, hplans⟩ stepped
    have hr := hrest r List.mem_cons_self
    obtain ⟨hr', hplan⟩ := own hr stepped
    -- an id is that of the plan, so the one whose turn it is meets no other run of its id
    have apart : ∀ x ∈ done ++ rest, x.instanceId ≠ r.instanceId := by
      rw [← hplans, List.map_map] at distinct
      have moved := (List.perm_middle.map InstanceRun.instanceId).nodup_iff.mp distinct
      rw [List.map_cons, List.nodup_cons] at moved
      exact fun x hx heq => moved.1 (heq ▸ List.mem_map_of_mem hx)
    refine ⟨fun x hx => ?_, fun x hx => ?_, ?_⟩
    · rcases List.mem_append.mp hx with hx | hx
      · exact (others hr stepped (apart x (List.mem_append_left _ hx))).2 (hdone x hx)
      · rw [List.mem_singleton.mp hx]
        exact hr'
    · refine (others hr stepped (apart x (List.mem_append_right _ hx))).1 ?_
      exact hrest x (List.mem_cons_of_mem _ hx)
    · rw [← hplans]
      simp [hplan]

end Pass

variable {p q : Portfolio α σ} {plans : List (InstancePlan α σ)}

theorem start_asAlone (isolated : Isolated served host.world)
    (distinct : (plans.map InstancePlan.instanceId).Nodup)
    (fresh : Each (Fresh c host served) plans p) (started : p.start c = (q, none)) :
    Each (AsAlone c host served) plans q := by
  have turn : ∀ {h : EngineHost α σ} {s : Statistics α} {n : Nat} {r : InstanceRun α σ}
      {h' : EngineHost α σ} {s' : Statistics α} {n' : Nat} {r' : InstanceRun α σ},
      (((r.start c h).1, s, n, (r.start c h).2.1), (r.start c h).2.2) = ((h', s', n', r'), none) →
      r.start c h = (h', r', none) := by
    intro h s n r h' s' n' r' heq
    rcases hout : r.start c h with ⟨h₂, r₂, fault⟩
    rw [hout] at heq
    cases heq
    rfl
  refine eachRun_turns ?_ ?_ distinct fresh started
  · intro h s n r h' s' n' r' hr heq
    have hstart := turn heq
    have hplan := InstanceRun.start_plan c h r
    rw [hstart] at hplan
    exact ⟨hr.start isolated hstart, hplan⟩
  · intro h s n r h' s' n' r' x hr heq hid
    have hhost : h' = (r.start c h).1 := by rw [turn heq]
    subst hhost
    exact ⟨fun hx => hx.start_other hr.mem hid, fun hx => hx.start_other hr.mem hid⟩

theorem stepAt_asAlone (isolated : Isolated served host.world)
    (distinct : (plans.map InstancePlan.instanceId).Nodup)
    (alone : Each (AsAlone c host served) plans p) {time : Option Int}
    (passed : p.eachRun (stepAt c none time) = (q, none)) :
    Each (AsAlone c host served) plans q := by
  refine eachRun_turns ?_ ?_ distinct alone passed
  · intro h s n r h' s' n' r' hr stepped
    rcases stepAt_cases stepped with ⟨running, -, hstep, -⟩ | ⟨-, rfl, rfl, -⟩
    · have hplan := InstanceRun.step_plan c false h r
      have hstep' : r.step c false h = (h', r', none) := hstep
      rw [hstep'] at hplan
      exact ⟨hr.step isolated running hstep, hplan⟩
    · exact ⟨hr, rfl⟩
  · intro h s n r h' s' n' r' x hr stepped hid
    rcases stepAt_cases stepped with ⟨running, -, hstep, -⟩ | ⟨-, rfl, rfl, -⟩
    · have hstep' : r.step c false h = (h', r', none) := hstep
      have hhost : h' = (r.step c false h).1 := by rw [hstep']
      subst hhost
      exact ⟨fun hx => hx.step_other hr running hid, fun hx => hx.step_other hr running hid⟩
    · exact ⟨id, id⟩

theorem run_asAlone (assembled : plans.foldlM (add c) (empty c host) = .ok p)
    (own : ∀ s ∈ plans, (s.instanceId, s.engine) ∈ served) (isolated : Isolated served host.world)
    (ran : p.run c none = (q, none)) :
    (∀ r ∈ q.runs, ((InstanceRun.ofPlan c r.plan).run c none host).2 = (r, none)) ∧
      q.runs.map InstanceRun.plan = plans := by
  obtain ⟨hp, distinct⟩ := assembled_eq assembled
  obtain ⟨p₁, p₂, p₃, n, started, enough, lock, last, rfl⟩ := run_passes ran
  have fresh : Each (Fresh c host served) plans p := by
    unfold Each
    rw [hp, List.map_map]
    refine ⟨fun r hr => ?_, List.map_id _⟩
    obtain ⟨s, hs, rfl⟩ := List.mem_map.mp hr
    exact ⟨rfl, own s hs, .refl _ _ host⟩
  have alone₁ := start_asAlone isolated distinct fresh started
  have alone₂ : Each (AsAlone c host served) plans p₂ := by
    refine lockstep_induction (fun {p' _ time} alone _ passed => ?_) alone₁ lock
    have noted : Each (AsAlone c host served) plans
        { p' with combined := p'.combined.noteTime time } := alone
    exact stepAt_asAlone isolated distinct noted passed
  obtain ⟨alone₃, hplans⟩ := stepAt_asAlone isolated distinct alone₂ last
  have halted := eachRun_halts (lockstep_nextTime? enough lock) last
  exact ⟨fun r hr => (alone₃ r hr).run_eq (halted r hr), hplans⟩

/-- If engines keep their instances apart and no stop is asked for, each instance of a portfolio that
runs without a fault of its own has the report that a run of its plan alone has. -/
theorem instances_isolated (assembled : plans.foldlM (add c) (empty c host) = .ok p)
    (isolated : Isolated (plans.map fun s => (s.instanceId, s.engine)) host.world)
    (ok : (p.run c none).2 = none) :
    ((p.run c none).1.report c).instances =
        plans.map (fun s => ((InstanceRun.ofPlan c s).run c none host).2.1.report c) ∧
      ∀ s ∈ plans, ((InstanceRun.ofPlan c s).run c none host).2.2 = none := by
  rcases ran : p.run c none with ⟨q, fault⟩
  rw [ran] at ok
  cases ok
  have own : ∀ s ∈ plans, (s.instanceId, s.engine) ∈ plans.map fun s => (s.instanceId, s.engine) :=
    fun s hs => List.mem_map.mpr ⟨s, hs, rfl⟩
  obtain ⟨alone, hplans⟩ := run_asAlone assembled own isolated ran
  subst hplans
  refine ⟨?_, fun s hs => ?_⟩
  · rw [List.map_map]
    refine List.map_congr_left fun r hr => ?_
    rw [Function.comp_apply, alone r hr]
  · obtain ⟨r, hr, rfl⟩ := List.mem_map.mp hs
    rw [alone r hr]

section Sample

open InstanceRun (sampleScope samplePlan samplePrices failingSale)

/-- A sale that fails on its third bar, a purchase on bars that come a minute later, and an instance that
does not start. -/
def samplePlans : List (InstancePlan Float (ScriptLog Float)) :=
  [failingSale,
   { samplePlan [(0, .marketBuy 1), (2, .closeAll .buy)] with
     instanceId := 2
     rates :=
       { (samplePlan []).rates with
         primary := samplePrices.map fun bar => { bar with time := bar.time + 60 } } },
   { samplePlan [] with
     instanceId := 3
     engine := (Script.mk 3023 []).engine }]

def samplePortfolio : Portfolio Float (ScriptLog Float) :=
  { empty sampleScope (.empty (Script.log 0) 0) with runs := samplePlans.map (.ofPlan sampleScope) }

/-- Two of the instances fail, and what they do has no part in the purchase of the other. -/
theorem samplePlans_isolated :
    let report := (samplePortfolio.run sampleScope none).1.report sampleScope
    report.instances = samplePlans.map (fun s =>
      ((InstanceRun.ofPlan sampleScope s).run sampleScope none
        (.empty (Script.log 0) 0)).2.1.report sampleScope) ∧
      report.failed = [1, 3] ∧
      report.instances.map (fun i => i.result.finalBalance == 10000) = [false, false, true] := by
  have assembled : samplePlans.foldlM (add sampleScope)
      (empty sampleScope (.empty (Script.log 0) 0)) = .ok samplePortfolio := rfl
  have scripted : ∀ s ∈ samplePlans.map (fun s => (s.instanceId, s.engine)),
      ∃ script : Script Float, s.2 = script.engine := by
    intro s hs
    simp only [samplePlans, List.map_cons, List.map_nil, List.mem_cons, List.not_mem_nil,
      or_false] at hs
    rcases hs with rfl | rfl | rfl
    all_goals exact ⟨_, rfl⟩
  have isolated := instances_isolated assembled (Script.isolated scripted rfl)
    (Option.isNone_iff_eq_none.mp (by decide +kernel))
  exact ⟨isolated.1, by decide +kernel, by decide +kernel⟩

end Sample

end Portfolio
end Backtest
