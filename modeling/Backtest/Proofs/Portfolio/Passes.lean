import Backtest.Portfolio.Basic
import Backtest.Proofs.Instance.Progress

namespace Backtest
namespace Portfolio

variable {α σ : Type}

section Pass

variable {f : EngineHost α σ → Statistics α → Nat → InstanceRun α σ →
  (EngineHost α σ × Statistics α × Nat × InstanceRun α σ) × Option (Fault α)}
  {motive : List (InstanceRun α σ) → List (InstanceRun α σ) → EngineHost α σ → Statistics α → Nat → Prop}

/-- What holds before a pass, and stays when the next run is carried on, holds after the pass. The runs
that were carried on stand apart from those that were not. -/
theorem eachRun_induction
    (carry : ∀ {done r rest h s n h' s' n' r'}, motive done (r :: rest) h s n →
      f h s n r = ((h', s', n', r'), none) → motive (done ++ [r']) rest h' s' n')
    {p q : Portfolio α σ} (first : motive [] p.runs p.host p.combined p.stepsTaken)
    (passed : p.eachRun f = (q, none)) : motive q.runs [] q.host q.combined q.stepsTaken := by
  -- the pass collects the runs it has carried on in reverse
  have go : ∀ rest h s n done, motive done.reverse rest h s n →
      eachRun.go f h s n done rest = (q, none) → motive q.runs [] q.host q.combined q.stepsTaken := by
    intro rest
    induction rest with
    | nil =>
      intro h s n done before heq
      unfold eachRun.go at heq
      cases heq
      exact before
    | cons r rest ih =>
      intro h s n done before heq
      unfold eachRun.go at heq
      split at heq
      next h' s' n' r' hf =>
        refine ih h' s' n' (r' :: done) ?_ heq
        rw [List.reverse_cons]
        exact carry before hf
      next => cases heq
  exact go p.runs p.host p.combined p.stepsTaken [] first passed

end Pass

variable [Arith α] {c : RunScope α} {stop : StopPoint}

/-- What a step at a time does to a run: a step of the run if it is due then, and nothing otherwise. -/
theorem stepAt_cases {time : Option Int} {h h' : EngineHost α σ} {s s' : Statistics α} {n n' : Nat}
    {r r' : InstanceRun α σ} (stepped : stepAt c stop time h s n r = ((h', s', n', r'), none)) :
    (r.state = .running ∧ r.nextTime? = time ∧
      r.step c (stop.isReached n) h = (h', r', none) ∧ s' = s.addEvents r'.stepEvents) ∨
    (¬(r.state = .running ∧ r.nextTime? = time) ∧ h' = h ∧ r' = r ∧ s' = s) := by
  unfold stepAt InstanceRun.isRunning at stepped
  by_cases due : r.state = .running ∧ r.nextTime? = time
  · rw [if_pos (by simpa using due)] at stepped
    split at stepped
    next => cases stepped
    next hstep =>
      cases stepped
      exact .inl ⟨due.1, due.2, hstep, rfl⟩
  · rw [if_neg (by simpa using due)] at stepped
    cases stepped
    exact .inr ⟨due, rfl, rfl, rfl⟩

/-- What holds before the lockstep, and stays in each pass at the earliest time ahead, holds after it. -/
theorem lockstep_induction {motive : Portfolio α σ → Prop}
    (pass : ∀ {p q : Portfolio α σ} {time : Int}, motive p → p.nextTime? = some time →
      eachRun (stepAt c stop (some time)) { p with combined := p.combined.noteTime time } = (q, none) →
      motive q)
    {n : Nat} {p q : Portfolio α σ} (first : motive p) (ran : p.lockstep c stop n = (q, none)) :
    motive q := by
  induction n generalizing p with
  | zero =>
    cases ran
    exact first
  | succ n ih =>
    unfold lockstep at ran
    split at ran
    next =>
      cases ran
      exact first
    next time htime =>
      dsimp only at ran
      split at ran
      next => cases ran
      next p' hpass => exact ih (pass first htime hpass) ran

section Times

variable {p : Portfolio α σ}

omit [Arith α] in
theorem exists_of_nextTime? {time : Int} (h : p.nextTime? = some time) :
    ∃ r ∈ p.runs, r.state = .running ∧ r.nextTime? = some time := by
  have mem := List.min?_mem h
  obtain ⟨r, hr, htime⟩ := List.mem_filterMap.mp mem
  obtain ⟨hruns, hrunning⟩ := List.mem_filter.mp hr
  exact ⟨r, hruns, of_decide_eq_true hrunning, htime⟩

omit [Arith α] in
theorem nextTime?_le {time next : Int} (h : p.nextTime? = some time) {r : InstanceRun α σ}
    (hr : r ∈ p.runs) (running : r.state = .running) (hnext : r.nextTime? = some next) :
    time ≤ next := by
  have hr' : r ∈ p.runs.filter InstanceRun.isRunning :=
    List.mem_filter.mpr ⟨hr, decide_eq_true running⟩
  exact (List.le_min?_iff h).mp (Int.le_refl time) next (List.mem_filterMap.mpr ⟨r, hr', hnext⟩)

omit [Arith α] in
theorem nextTime?_eq_none (h : p.nextTime? = none) {r : InstanceRun α σ} (hr : r ∈ p.runs)
    (running : r.state = .running) : r.nextTime? = none := by
  have empty := List.filterMap_eq_nil_iff.mp (List.min?_eq_none_iff.mp h)
  exact empty r (List.mem_filter.mpr ⟨hr, decide_eq_true running⟩)

end Times

def pending (runs : List (InstanceRun α σ)) : Nat := runs.foldr (fun r n => r.pending + n) 0

omit [Arith α] in
theorem pending_append (runs₁ runs₂ : List (InstanceRun α σ)) :
    pending (runs₁ ++ runs₂) = pending runs₁ + pending runs₂ := by
  induction runs₁ with
  | nil => exact (Nat.zero_add _).symm
  | cons r rest ih =>
    unfold pending at ih ⊢
    rw [List.cons_append, List.foldr_cons, List.foldr_cons, ih, Nat.add_assoc]

theorem eachRun_pending {time : Int} {p q : Portfolio α σ}
    (due : ∃ r ∈ p.runs, r.state = .running ∧ r.nextTime? = some time)
    (passed : p.eachRun (stepAt c stop (some time)) = (q, none)) :
    pending q.runs < pending p.runs := by
  have spent := eachRun_induction
    (motive := fun done rest _ _ _ => pending (done ++ rest) ≤ pending p.runs ∧
      (pending (done ++ rest) < pending p.runs ∨
        ∃ r ∈ rest, r.state = .running ∧ r.nextTime? = some time))
    ?_ ⟨Nat.le_refl _, .inr due⟩ passed
  · rw [List.append_nil] at spent
    exact spent.2.resolve_right fun ⟨r, hr, _⟩ => absurd hr List.not_mem_nil
  · rintro done r rest h s n h' s' n' r' ⟨hle, hdue⟩ stepped
    have hsum : ∀ x : InstanceRun α σ, pending (done ++ x :: rest) =
        x.pending + pending (done ++ rest) := by
      intro x
      rw [pending_append, pending_append]
      change pending done + (x.pending + pending rest) = x.pending + (pending done + pending rest)
      omega
    have hdone : done ++ [r'] ++ rest = done ++ r' :: rest := by simp
    rw [hdone, hsum]
    rw [hsum] at hle hdue
    rcases stepAt_cases stepped with ⟨running, htime, hstep, -⟩ | ⟨notDue, -, rfl, -⟩
    · have hpending := InstanceRun.step_pending_le c (stop.isReached n) h r
      have positive := r.barsLeft_pos_of_nextTime? htime
      rw [hstep] at hpending
      have hr : r.pending = r.barsLeft := if_pos running
      dsimp only at hpending
      omega
    · refine ⟨hle, hdue.imp_right fun ⟨x, hx, hxdue⟩ => ⟨x, ?_, hxdue⟩⟩
      rcases List.mem_cons.mp hx with rfl | hx
      · exact absurd hxdue notDue
      · exact hx

theorem lockstep_nextTime? {n : Nat} {p q : Portfolio α σ} (enough : pending p.runs < n)
    (ran : p.lockstep c stop n = (q, none)) : q.nextTime? = none := by
  induction n generalizing p with
  | zero => exact absurd enough (Nat.not_lt_zero _)
  | succ n ih =>
    unfold lockstep at ran
    split at ran
    next hnone =>
      cases ran
      exact hnone
    next time htime =>
      dsimp only at ran
      split at ran
      next => cases ran
      next p' hpass =>
        have less := eachRun_pending (p := { p with combined := p.combined.noteTime time })
          (exists_of_nextTime? htime) hpass
        refine ih ?_ ran
        dsimp only at less
        omega

omit [Arith α] in
theorem pending_le_barsLeft (p : Portfolio α σ) : pending p.runs ≤ p.barsLeft := by
  unfold barsLeft
  induction p.runs with
  | nil => exact Nat.le_refl 0
  | cons r rest ih =>
    have hr := r.pending_le_barsLeft
    unfold pending at ih ⊢
    rw [List.foldr_cons, List.foldr_cons]
    omega

/-- The passes of a whole run without a fault: the starts, the lockstep, and a last one for the runs that
are running yet and have no bar. -/
theorem run_passes {p q : Portfolio α σ} (ran : p.run c stop = (q, none)) :
    ∃ p₁ p₂ p₃ n, p.start c = (p₁, none) ∧ pending p₁.runs < n ∧
      p₁.lockstep c stop n = (p₂, none) ∧ p₂.eachRun (stepAt c stop none) = (p₃, none) ∧
      q = { p₃ with host := p₃.host.releaseAll } := by
  unfold run runAll at ran
  rcases hstart : p.start c with ⟨p₁, _ | f⟩
  · rw [hstart] at ran
    rcases hlock : p₁.lockstep c stop (p₁.barsLeft + 1) with ⟨p₂, _ | f⟩
    · dsimp only at ran
      rw [hlock] at ran
      rcases hlast : p₂.eachRun (stepAt c stop none) with ⟨p₃, _ | f⟩
      · dsimp only at ran
        rw [hlast] at ran
        cases ran
        exact ⟨p₁, p₂, p₃, _, rfl, Nat.lt_succ_of_le p₁.pending_le_barsLeft, hlock, hlast, rfl⟩
      · dsimp only at ran
        rw [hlast] at ran
        cases ran
    · dsimp only at ran
      rw [hlock] at ran
      cases ran
  · rw [hstart] at ran
    cases ran

theorem eachRun_halts {p q : Portfolio α σ} (none_ahead : p.nextTime? = none)
    (passed : p.eachRun (stepAt c stop none) = (q, none)) :
    ∀ r ∈ q.runs, r.state ≠ .running := by
  have first : ∀ r ∈ p.runs, r.state = .running → r.nextTime? = none :=
    fun r hr running => nextTime?_eq_none none_ahead hr running
  have last := eachRun_induction
    (motive := fun done rest _ _ _ => (∀ r ∈ done, r.state ≠ .running) ∧
      ∀ r ∈ rest, r.state = .running → r.nextTime? = none)
    ?_ ⟨fun _ hr => absurd hr List.not_mem_nil, first⟩ passed
  · exact last.1
  · rintro done r rest h s n h' s' n' r' ⟨hdone, hrest⟩ stepped
    refine ⟨fun x hx => ?_, fun x hx => hrest x (List.mem_cons_of_mem _ hx)⟩
    rcases List.mem_append.mp hx with hx | hx
    · exact hdone x hx
    · rw [List.mem_singleton.mp hx]
      rcases stepAt_cases stepped with ⟨-, htime, hstep, -⟩ | ⟨notDue, -, rfl, -⟩
      · have halted := InstanceRun.step_halts c (stop.isReached n) h
          (InstanceRun.barsLeft_eq_zero_of_nextTime? htime)
        rwa [hstep] at halted
      · exact fun running => notDue ⟨running, hrest _ List.mem_cons_self running⟩

theorem foldlM_add {plans : List (InstancePlan α σ)} {before p : Portfolio α σ}
    (distinct : (before.runs.map InstanceRun.instanceId).Nodup)
    (assembled : plans.foldlM (add c) before = .ok p) :
    p = { before with runs := before.runs ++ plans.map (.ofPlan c) } ∧
      (p.runs.map InstanceRun.instanceId).Nodup := by
  induction plans generalizing before with
  | nil =>
    cases assembled
    exact ⟨by rw [List.map_nil, List.append_nil], distinct⟩
  | cons plan rest ih =>
    rw [List.foldlM_cons] at assembled
    unfold add at assembled
    split at assembled
    next => cases assembled
    next hnew =>
      have distinct' : ((before.runs ++ [InstanceRun.ofPlan c plan]).map InstanceRun.instanceId).Nodup := by
        rw [List.map_append, List.map_cons, List.map_nil]
        refine List.nodup_append.mpr ⟨distinct, List.pairwise_singleton _ _, ?_⟩
        rintro id hid other hother rfl
        obtain ⟨r, hr, hrid⟩ := List.mem_map.mp hid
        refine hnew (List.any_eq_true.mpr ⟨r, hr, decide_eq_true ?_⟩)
        exact hrid.trans (List.mem_singleton.mp hother)
      obtain ⟨heq, hnodup⟩ := ih distinct' assembled
      refine ⟨?_, hnodup⟩
      rw [heq, List.map_cons, List.append_assoc, List.singleton_append]

/-- A portfolio that some plans are added to holds a fresh run of each, and their ids differ. -/
theorem assembled_eq {host : EngineHost α σ} {plans : List (InstancePlan α σ)} {p : Portfolio α σ}
    (assembled : plans.foldlM (add c) (empty c host) = .ok p) :
    p = { empty c host with runs := plans.map (.ofPlan c) } ∧
      (plans.map InstancePlan.instanceId).Nodup := by
  have none_yet : ((empty c host).runs.map InstanceRun.instanceId).Nodup := List.nodup_nil
  obtain ⟨heq, distinct⟩ := foldlM_add none_yet assembled
  rw [heq, List.map_append, List.map_map] at distinct
  exact ⟨heq, distinct⟩

end Portfolio
end Backtest
