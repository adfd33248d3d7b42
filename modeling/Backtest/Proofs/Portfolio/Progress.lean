import Backtest.Proofs.Instance.Faults
import Backtest.Proofs.Portfolio.Conservation
import Backtest.Proofs.Portfolio.Isolation

namespace Backtest

namespace InstanceRun

variable {α σ : Type}

/-- The run is running, and its next bar opens at the time. -/
def DueAt (r : InstanceRun α σ) (time : Int) : Prop :=
  r.state = .running ∧ r.nextTime? = some time

/-- A run gets over some bars: those from its next one on without a gap, of which the last one alone may
be a bar that it is aborted on. -/
structure GetsOver (r : InstanceRun α σ) (bars : List Nat) (r' : InstanceRun α σ) : Prop where
  consecutive : bars = List.range' r.cursor bars.length
  idle : bars = [] → r' = r
  running : bars ≠ [] → r.state = .running
  cursor : r'.cursor = r.cursor + bars.length ∨
    r'.state = .aborted ∧ r'.cursor + 1 = r.cursor + bars.length

theorem GetsOver.refl (r : InstanceRun α σ) : r.GetsOver [] r :=
  ⟨rfl, fun _ => rfl, fun habs => absurd rfl habs, .inl rfl⟩

/-- A run that is aborted on a bar gets over no other. -/
theorem GetsOver.cons {r r₁ r₂ : InstanceRun α σ} {bars : List Nat} (first : r.GetsOver [r.cursor] r₁)
    (rest : r₁.GetsOver bars r₂) : r.GetsOver (r.cursor :: bars) r₂ := by
  by_cases some_bar : bars = []
  · rw [some_bar] at rest ⊢
    rw [rest.idle rfl]
    exact first
  · have cursor : r₁.cursor = r.cursor + 1 := by
      rcases first.cursor with cursor | ⟨aborted, -⟩
      · exact cursor
      · rw [rest.running some_bar] at aborted
        cases aborted
    refine ⟨?_, fun habs => (List.cons_ne_nil _ _ habs).elim,
      fun _ => first.running (List.cons_ne_nil _ _), ?_⟩
    · rw [List.length_cons, List.range'_succ, ← cursor, ← rest.consecutive]
    · rw [List.length_cons]
      rcases rest.cursor with last | ⟨aborted, last⟩
      · exact .inl (by omega)
      · exact .inr ⟨aborted, by omega⟩

variable [Arith α]

theorem step_getsOver (c : RunScope α) (stopped : Bool) (h : EngineHost α σ) {r : InstanceRun α σ}
    {time : Int} (due : r.DueAt time) : r.GetsOver [r.cursor] (r.step c stopped h).2.1 := by
  refine ⟨rfl, fun habs => (List.cons_ne_nil _ _ habs).elim, fun _ => due.1, ?_⟩
  rcases step_cases c stopped h r with
    ⟨halted, -⟩ | ⟨-, -, heq⟩ | ⟨-, -, hnone, -⟩ | ⟨bar, -, -, -, heq⟩
  · exact absurd due.1 halted
  · rw [heq]
    exact .inr ⟨rfl, rfl⟩
  · have ahead := due.2
    unfold nextTime? Series.timeAt? at ahead
    unfold Series.bar? at hnone
    rw [hnone] at ahead
    cases ahead
  · have asked := ask_cursor c h { r with stepEvents := [] } bar
    rw [heq]
    rcases takeBar_cases c h { r with stepEvents := [] } bar with ⟨f, -, taken⟩ | ⟨-, -, taken⟩
    · rw [taken]
      exact .inr ⟨rfl, congrArg (· + 1) asked⟩
    · rw [taken, finishBar_eq]
      exact .inl (congrArg (· + 1) asked)

theorem step_fatal {c : RunScope α} {stopped : Bool} {h : EngineHost α σ} {r : InstanceRun α σ}
    {f : Fault α} (failed : (r.step c stopped h).2.2 = some f) : f.isFatal = true := by
  rcases step_cases c stopped h r with
    ⟨-, heq⟩ | ⟨-, -, heq⟩ | ⟨-, -, -, heq⟩ | ⟨bar, -, -, -, heq⟩
  · rw [heq] at failed
    cases failed
  · rw [heq] at failed
    cases failed
  · rw [heq] at failed
    cases failed
  · rw [heq] at failed
    rcases takeBar_cases c h { r with stepEvents := [] } bar with ⟨g, -, taken⟩ | ⟨-, -, taken⟩
    · rw [taken] at failed
      obtain ⟨rfl, fatal⟩ := abort_snd_eq_some failed
      exact fatal
    · rw [taken] at failed
      cases failed

end InstanceRun

namespace Portfolio

variable {α σ : Type}

structure Turn (α σ : Type) where
  before : InstanceRun α σ
  after : InstanceRun α σ
  stepped : Bool

def Turn.visited? (t : Turn α σ) : Option Nat := if t.stepped then some t.before.cursor else none

/-- A pass at a time: what became of the runs, and the fault that ended it. -/
structure Pass (α σ : Type) where
  time : Int
  turns : List (Turn α σ)
  fault : Option (Fault α)

/-- The bars that the run of some place was stepped on. -/
def visits (i : Nat) (passes : List (Pass α σ)) : List Nat :=
  passes.filterMap fun x => x.turns[i]?.bind Turn.visited?

section Turns

variable [Arith α]

/-- The turns of a pass from a host and a number of steps on. A run that is due is stepped, another one
stays as it is, and after a step that hands on a fault all runs do. -/
inductive Turns (c : RunScope α) (stop : StopPoint) (time : Int) :
    EngineHost α σ → Nat → List (Turn α σ) → EngineHost α σ → Nat → Option (Fault α) → Prop
  | nil {h : EngineHost α σ} {n : Nat} : Turns c stop time h n [] h n none
  | step {h h₁ h₂ : EngineHost α σ} {n m : Nat} {r r₁ : InstanceRun α σ} {rest : List (Turn α σ)}
      {fault : Option (Fault α)} : r.DueAt time → r.step c (stop.isReached n) h = (h₁, r₁, none) →
      Turns c stop time h₁ (n + 1) rest h₂ m fault →
      Turns c stop time h n (⟨r, r₁, true⟩ :: rest) h₂ m fault
  | skip {h h₂ : EngineHost α σ} {n m : Nat} {r : InstanceRun α σ} {rest : List (Turn α σ)}
      {fault : Option (Fault α)} : ¬r.DueAt time → Turns c stop time h n rest h₂ m fault →
      Turns c stop time h n (⟨r, r, false⟩ :: rest) h₂ m fault
  | fault {h h₁ : EngineHost α σ} {n : Nat} {r r₁ : InstanceRun α σ} {f : Fault α}
      (rest : List (InstanceRun α σ)) : r.DueAt time →
      r.step c (stop.isReached n) h = (h₁, r₁, some f) →
      Turns c stop time h n (⟨r, r₁, true⟩ :: rest.map fun x => ⟨x, x, false⟩) h₁ (n + 1) (some f)

variable {c : RunScope α} {stop : StopPoint} {time : Int}

theorem stepAt_of_due (h : EngineHost α σ) (s : Statistics α) (n : Nat) {r : InstanceRun α σ}
    (due : r.DueAt time) :
    stepAt c stop (some time) h s n r =
      match r.step c (stop.isReached n) h with
      | (h, r, some f) => ((h, s, n + 1, r), some f)
      | (h, r, none) => ((h, s.addEvents r.stepEvents, n + 1, r), none) :=
  if_pos (by simpa [InstanceRun.isRunning, InstanceRun.DueAt] using due)

theorem stepAt_of_not_due (h : EngineHost α σ) (s : Statistics α) (n : Nat) {r : InstanceRun α σ}
    (notDue : ¬r.DueAt time) : stepAt c stop (some time) h s n r = ((h, s, n, r), none) :=
  if_neg (by simpa [InstanceRun.isRunning, InstanceRun.DueAt] using notDue)

/-- Every pass, whether a fault ends it or not, consists of turns. -/
theorem exists_turns {p q : Portfolio α σ} {fault : Option (Fault α)}
    (passed : p.eachRun (stepAt c stop (some time)) = (q, fault)) :
    ∃ turns, Turns c stop time p.host p.stepsTaken turns q.host q.stepsTaken fault ∧
      turns.map Turn.before = p.runs ∧ turns.map Turn.after = q.runs := by
  -- the pass collects the runs it has carried on in reverse
  have go : ∀ rest h s n done, eachRun.go (stepAt c stop (some time)) h s n done rest = (q, fault) →
      ∃ turns, Turns c stop time h n turns q.host q.stepsTaken fault ∧
        turns.map Turn.before = rest ∧ done.reverse ++ turns.map Turn.after = q.runs := by
    intro rest
    induction rest with
    | nil =>
      intro h s n done heq
      unfold eachRun.go at heq
      cases heq
      exact ⟨[], .nil, rfl, List.append_nil _⟩
    | cons r rest ih =>
      intro h s n done heq
      unfold eachRun.go at heq
      by_cases due : r.DueAt time
      · rw [stepAt_of_due h s n due] at heq
        rcases hstep : r.step c (stop.isReached n) h with ⟨h₁, r₁, _ | f⟩
        · rw [hstep] at heq
          obtain ⟨turns, htail, hbefore, hafter⟩ := ih _ _ _ _ heq
          refine ⟨_, .step due hstep htail, congrArg (r :: ·) hbefore, ?_⟩
          rw [← hafter, List.reverse_cons, List.append_assoc]
          rfl
        · rw [hstep] at heq
          cases heq
          refine ⟨_, .fault rest due hstep, ?_, ?_⟩
          · simp [Function.comp_def]
          · simp [Function.comp_def]
      · rw [stepAt_of_not_due h s n due] at heq
        obtain ⟨turns, htail, hbefore, hafter⟩ := ih _ _ _ _ heq
        refine ⟨_, .skip due htail, congrArg (r :: ·) hbefore, ?_⟩
        rw [← hafter, List.reverse_cons, List.append_assoc]
        rfl
  exact go p.runs p.host p.combined p.stepsTaken [] passed

namespace Turns

variable {h h' : EngineHost α σ} {n m : Nat} {turns : List (Turn α σ)} {fault : Option (Fault α)}

theorem turn_cases (ts : Turns c stop time h n turns h' m fault) {t : Turn α σ} (ht : t ∈ turns) :
    (t.stepped = true ∧ t.before.DueAt time ∧
      ∃ stopped host, t.after = (t.before.step c stopped host).2.1) ∨
    (t.stepped = false ∧ t.after = t.before) := by
  induction ts with
  | nil => cases ht
  | step due hstep _ ih =>
    rcases List.mem_cons.mp ht with rfl | ht
    · exact .inl ⟨rfl, due, _, _, by rw [hstep]⟩
    · exact ih ht
  | skip _ _ ih =>
    rcases List.mem_cons.mp ht with rfl | ht
    · exact .inr ⟨rfl, rfl⟩
    · exact ih ht
  | fault rest due hstep =>
    rcases List.mem_cons.mp ht with rfl | ht
    · exact .inl ⟨rfl, due, _, _, by rw [hstep]⟩
    · obtain ⟨r, -, rfl⟩ := List.mem_map.mp ht
      exact .inr ⟨rfl, rfl⟩

/-- Without a fault a pass comes to all runs that are due. -/
theorem stepped_of_due (ts : Turns c stop time h n turns h' m none) {t : Turn α σ} (ht : t ∈ turns)
    (due : t.before.DueAt time) : t.stepped = true := by
  generalize hfault : (none : Option (Fault α)) = fault at ts
  induction ts with
  | nil => cases ht
  | step _ _ _ ih =>
    rcases List.mem_cons.mp ht with rfl | ht
    · rfl
    · exact ih ht hfault
  | skip notDue _ ih =>
    rcases List.mem_cons.mp ht with rfl | ht
    · exact absurd due notDue
    · exact ih ht hfault
  | fault => cases hfault

/-- A fault comes from the last step of its pass. -/
theorem split_of_fault {f : Fault α} (ts : Turns c stop time h n turns h' m (some f)) :
    f.isFatal = true ∧ ∃ done t rest, turns = done ++ t :: rest ∧
      (∀ u ∈ done, u.before.DueAt time → u.stepped = true) ∧ t.stepped = true ∧
      ∀ u ∈ rest, u.stepped = false := by
  generalize hfault : some f = fault at ts
  induction ts with
  | nil => cases hfault
  | step _ _ _ ih =>
    obtain ⟨fatal, done, t, rest, rfl, hdone, ht, hrest⟩ := ih hfault
    refine ⟨fatal, _ :: done, t, rest, rfl, fun u hu => ?_, ht, hrest⟩
    rcases List.mem_cons.mp hu with rfl | hu
    · exact fun _ => rfl
    · exact hdone u hu
  | skip notDue _ ih =>
    obtain ⟨fatal, done, t, rest, rfl, hdone, ht, hrest⟩ := ih hfault
    refine ⟨fatal, _ :: done, t, rest, rfl, fun u hu => ?_, ht, hrest⟩
    rcases List.mem_cons.mp hu with rfl | hu
    · exact fun due => absurd due notDue
    · exact hdone u hu
  | fault rest _ hstep =>
    cases hfault
    refine ⟨InstanceRun.step_fatal (by rw [hstep]), [], _, _, rfl, fun _ hu => ?_, rfl, fun u hu => ?_⟩
    · cases hu
    · obtain ⟨r, -, rfl⟩ := List.mem_map.mp hu
      rfl

end Turns

end Turns

variable [Arith α] {c : RunScope α} {stop : StopPoint} {p q : Portfolio α σ} {x : Pass α σ}
  {passes : List (Pass α σ)} {out : Portfolio α σ × Option (Fault α)}

/-- A pass at the earliest time ahead leads from one portfolio to the next. -/
structure Pass.Leads (x : Pass α σ) (c : RunScope α) (stop : StopPoint) (p q : Portfolio α σ) :
    Prop where
  next : p.nextTime? = some x.time
  passed : eachRun (stepAt c stop (some x.time))
    { p with combined := p.combined.noteTime x.time } = (q, x.fault)
  turns : Turns c stop x.time p.host p.stepsTaken x.turns q.host q.stepsTaken x.fault
  before : x.turns.map Turn.before = p.runs
  after : x.turns.map Turn.after = q.runs

/-- The passes of a lockstep and what it comes to: no time is left, or the last pass ends on a fault. -/
inductive Lockstep (c : RunScope α) (stop : StopPoint) :
    Portfolio α σ → List (Pass α σ) → Portfolio α σ × Option (Fault α) → Prop
  | done {p : Portfolio α σ} : p.nextTime? = none → Lockstep c stop p [] (p, none)
  | cut {p q : Portfolio α σ} {x : Pass α σ} {f : Fault α} : x.Leads c stop p q → x.fault = some f →
      Lockstep c stop p [x] (q, some f)
  | pass {p q : Portfolio α σ} {x : Pass α σ} {passes : List (Pass α σ)}
      {out : Portfolio α σ × Option (Fault α)} : x.Leads c stop p q → x.fault = none →
      Lockstep c stop q passes out → Lockstep c stop p (x :: passes) out

theorem exists_leads (c : RunScope α) (stop : StopPoint) {time : Int} (next : p.nextTime? = some time) :
    ∃ (x : Pass α σ) (q : Portfolio α σ), x.Leads c stop p q := by
  rcases passed : eachRun (stepAt c stop (some time))
    { p with combined := p.combined.noteTime time } with ⟨q, fault⟩
  obtain ⟨turns, hturns, before, after⟩ := exists_turns passed
  exact ⟨⟨time, turns, fault⟩, q, next, passed, hturns, before, after⟩

/-- A pass steps runs that are due and leaves the others, steps one at least, and steps all that are due
unless a fatal fault ends it, which comes from the last run it steps. -/
structure Pass.StepsDue (x : Pass α σ) (c : RunScope α) : Prop where
  due : ∀ t ∈ x.turns, t.stepped = true →
    t.before.DueAt x.time ∧ ∃ stopped host, t.after = (t.before.step c stopped host).2.1
  kept : ∀ t ∈ x.turns, t.stepped = false → t.after = t.before
  some_stepped : ∃ t ∈ x.turns, t.stepped = true
  all_due : x.fault = none → ∀ t ∈ x.turns, t.before.DueAt x.time → t.stepped = true
  up_to_fault : ∀ f, x.fault = some f → f.isFatal = true ∧ ∃ done t rest, x.turns = done ++ t :: rest ∧
    (∀ u ∈ done, u.before.DueAt x.time → u.stepped = true) ∧ t.stepped = true ∧
    ∀ u ∈ rest, u.stepped = false

namespace Pass.Leads

variable (leads : x.Leads c stop p q)

include leads

theorem turn {i : Nat} {r : InstanceRun α σ} (hr : p.runs[i]? = some r) :
    ∃ t, x.turns[i]? = some t ∧ t.before = r ∧ q.runs[i]? = some t.after := by
  rw [← leads.before, List.getElem?_map] at hr
  obtain ⟨t, ht, rfl⟩ := Option.map_eq_some_iff.mp hr
  refine ⟨t, ht, rfl, ?_⟩
  rw [← leads.after, List.getElem?_map, ht]
  rfl

theorem exists_due : ∃ t ∈ x.turns, t.before.DueAt x.time := by
  obtain ⟨r, hr, due⟩ := exists_of_nextTime? leads.next
  rw [← leads.before] at hr
  obtain ⟨t, ht, rfl⟩ := List.mem_map.mp hr
  exact ⟨t, ht, due⟩

theorem stepsDue : x.StepsDue c where
  due t ht stepped := by
    rcases leads.turns.turn_cases ht with ⟨-, due, hstep⟩ | ⟨idle, -⟩
    · exact ⟨due, hstep⟩
    · rw [stepped] at idle
      cases idle
  kept t ht idle := by
    rcases leads.turns.turn_cases ht with ⟨stepped, -⟩ | ⟨-, kept⟩
    · rw [idle] at stepped
      cases stepped
    · exact kept
  some_stepped := by
    have turns := leads.turns
    rcases hfault : x.fault with _ | f
    · rw [hfault] at turns
      obtain ⟨t, ht, due⟩ := leads.exists_due
      exact ⟨t, ht, turns.stepped_of_due ht due⟩
    · rw [hfault] at turns
      obtain ⟨-, done, t, rest, split, -, stepped, -⟩ := turns.split_of_fault
      rw [split]
      exact ⟨t, List.mem_append_right _ List.mem_cons_self, stepped⟩
  all_due quiet t ht due := by
    have turns := leads.turns
    rw [quiet] at turns
    exact turns.stepped_of_due ht due
  up_to_fault f hfault := by
    have turns := leads.turns
    rw [hfault] at turns
    exact turns.split_of_fault

theorem increasing (before : ∀ r ∈ p.runs, r.primary.Increasing) :
    ∀ r ∈ q.runs, r.primary.Increasing := by
  intro r hr
  rw [← leads.after] at hr
  rw [← leads.before] at before
  obtain ⟨t, ht, rfl⟩ := List.mem_map.mp hr
  have hbefore := before t.before (List.mem_map_of_mem ht)
  rcases leads.turns.turn_cases ht with ⟨-, -, stopped, host, hafter⟩ | ⟨-, hafter⟩
  · rw [hafter, InstanceRun.step_primary]
    exact hbefore
  · rwa [hafter]

theorem time_lt {time : Int} (ahead : ∀ r ∈ p.runs, AheadOf time r) : time < x.time := by
  obtain ⟨r, hr, running, hnext⟩ := exists_of_nextTime? leads.next
  exact ahead r hr running _ hnext

theorem aheadOf (quiet : x.fault = none) (before : ∀ r ∈ p.runs, r.primary.Increasing) :
    ∀ r ∈ q.runs, AheadOf x.time r := by
  intro r hr running next hnext
  rw [← leads.after] at hr
  obtain ⟨t, ht, rfl⟩ := List.mem_map.mp hr
  have hmem : t.before ∈ p.runs := leads.before ▸ List.mem_map_of_mem ht
  rcases leads.turns.turn_cases ht with ⟨-, due, stopped, host, hafter⟩ | ⟨idle, hafter⟩
  · rw [hafter] at running hnext
    exact InstanceRun.step_nextTime?_lt (before _ hmem) due.2 running hnext
  · rw [hafter] at running hnext
    have reached := nextTime?_le leads.next hmem running hnext
    have other : x.time ≠ next := by
      rintro rfl
      have stepped := leads.stepsDue.all_due quiet t ht ⟨running, hnext⟩
      rw [idle] at stepped
      cases stepped
    omega

theorem pending_pos : 0 < pending p.runs := by
  obtain ⟨r, hr, running, hnext⟩ := exists_of_nextTime? leads.next
  obtain ⟨runs₁, runs₂, split⟩ := List.append_of_mem hr
  have hpending : 0 < r.pending := by
    rw [InstanceRun.pending, if_pos running]
    exact InstanceRun.barsLeft_pos_of_nextTime? hnext
  rw [split, pending_append]
  exact Nat.add_pos_right _ (Nat.add_pos_left hpending _)

theorem pending_lt (quiet : x.fault = none) : pending q.runs < pending p.runs := by
  have passed := leads.passed
  rw [quiet] at passed
  exact eachRun_pending (p := { p with combined := p.combined.noteTime x.time })
    (exists_of_nextTime? leads.next) passed

theorem getsOver {i : Nat} {r : InstanceRun α σ} (hr : p.runs[i]? = some r) :
    ∃ r', q.runs[i]? = some r' ∧
      ((∀ passes, visits i (x :: passes) = r.cursor :: visits i passes) ∧ r.GetsOver [r.cursor] r' ∨
        (∀ passes, visits i (x :: passes) = visits i passes) ∧ r' = r) := by
  obtain ⟨t, ht, rfl, hafter⟩ := leads.turn hr
  have hmem := List.mem_of_getElem? ht
  refine ⟨t.after, hafter, ?_⟩
  cases stepped : t.stepped with
  | true =>
    obtain ⟨due, stop, host, hstep⟩ := leads.stepsDue.due t hmem stepped
    refine .inl ⟨fun passes => List.filterMap_cons_some ?_, ?_⟩
    · rw [ht, Option.bind_some, Turn.visited?, if_pos stepped]
    · rw [hstep]
      exact InstanceRun.step_getsOver c stop host due
  | false =>
    refine .inr ⟨fun passes => List.filterMap_cons_none ?_, leads.stepsDue.kept t hmem stepped⟩
    rw [ht, Option.bind_some, Turn.visited?, if_neg (by simp [stepped])]

end Pass.Leads

namespace Lockstep

/-- Every lockstep comes to an end: a pass without a fault takes a bar from what is pending. -/
theorem exists_passes (c : RunScope α) (stop : StopPoint) (p : Portfolio α σ) :
    ∃ passes out, Lockstep c stop p passes out := by
  induction hn : pending p.runs using Nat.strong_induction_on generalizing p with
  | _ n ih =>
    rcases hnext : p.nextTime? with _ | time
    · exact ⟨[], _, .done hnext⟩
    · obtain ⟨x, q, leads⟩ := exists_leads c stop hnext
      rcases hfault : x.fault with _ | f
      · obtain ⟨passes, out, rest⟩ := ih _ (hn ▸ leads.pending_lt hfault) q rfl
        exact ⟨_, _, .pass leads hfault rest⟩
      · exact ⟨_, _, .cut leads hfault⟩

variable (ran : Lockstep c stop p passes out)

include ran

theorem length_le_pending : passes.length ≤ pending p.runs := by
  induction ran with
  | done => exact Nat.zero_le _
  | cut leads _ => exact leads.pending_pos
  | pass leads quiet _ ih => exact Nat.lt_of_le_of_lt ih (leads.pending_lt quiet)

theorem lockstep_eq {n : Nat} (enough : passes.length < n) : p.lockstep c stop n = out := by
  induction ran generalizing n with
  | done hnext =>
    obtain ⟨n, rfl⟩ := Nat.exists_eq_succ_of_ne_zero (Nat.ne_of_gt enough)
    rw [lockstep, hnext]
  | cut leads hfault =>
    obtain ⟨n, rfl⟩ := Nat.exists_eq_succ_of_ne_zero (Nat.ne_of_gt (Nat.zero_lt_of_lt enough))
    rw [lockstep, leads.next]
    dsimp only
    rw [leads.passed, hfault]
  | pass leads quiet _ ih =>
    obtain ⟨n, rfl⟩ := Nat.exists_eq_succ_of_ne_zero (Nat.ne_of_gt (Nat.zero_lt_of_lt enough))
    rw [lockstep, leads.next]
    dsimp only
    rw [leads.passed, quiet]
    exact ih (Nat.lt_of_succ_lt_succ enough)

theorem nextTime?_eq_none (quiet : out.2 = none) : out.1.nextTime? = none := by
  induction ran with
  | done hnext => exact hnext
  | cut => cases quiet
  | pass _ _ _ ih => exact ih quiet

theorem faults : (∀ x ∈ passes.dropLast, x.fault = none) ∧
    out.2 = passes.getLast?.bind Pass.fault := by
  induction ran with
  | done => exact ⟨fun _ hx => absurd hx List.not_mem_nil, rfl⟩
  | cut _ hfault => exact ⟨fun _ hx => absurd hx List.not_mem_nil, hfault.symm⟩
  | @pass _ _ x passes _ _ quiet rest ih =>
    cases passes with
    | nil =>
      cases rest
      exact ⟨fun _ hx => absurd hx List.not_mem_nil, quiet.symm⟩
    | cons y passes =>
      refine ⟨fun z hz => ?_, ih.2⟩
      rcases List.mem_cons.mp hz with rfl | hz
      · exact quiet
      · exact ih.1 z hz

theorem stepsDue : ∀ x ∈ passes, x.StepsDue c := by
  induction ran with
  | done => exact fun _ hx => absurd hx List.not_mem_nil
  | cut leads _ =>
    intro x hx
    rw [List.mem_singleton.mp hx]
    exact leads.stepsDue
  | pass leads _ _ ih =>
    intro x hx
    rcases List.mem_cons.mp hx with rfl | hx
    · exact leads.stepsDue
    · exact ih x hx

theorem times_increase (increasing : ∀ r ∈ p.runs, r.primary.Increasing) :
    (passes.map Pass.time).Pairwise (· < ·) ∧
      ∀ time, (∀ r ∈ p.runs, AheadOf time r) → ∀ x ∈ passes, time < x.time := by
  induction ran with
  | done => exact ⟨.nil, fun _ _ _ hx => absurd hx List.not_mem_nil⟩
  | cut leads _ =>
    refine ⟨List.pairwise_singleton _ _, fun time ahead x hx => ?_⟩
    rw [List.mem_singleton.mp hx]
    exact leads.time_lt ahead
  | pass leads quiet _ ih =>
    obtain ⟨times, later⟩ := ih (leads.increasing increasing)
    have after := later _ (leads.aheadOf quiet increasing)
    refine ⟨List.pairwise_cons.mpr ⟨fun time htime => ?_, times⟩, fun time ahead x hx => ?_⟩
    · obtain ⟨y, hy, rfl⟩ := List.mem_map.mp htime
      exact after y hy
    · rcases List.mem_cons.mp hx with rfl | hx
      · exact leads.time_lt ahead
      · exact Int.lt_trans (leads.time_lt ahead) (after x hx)

theorem getsOver {i : Nat} {r : InstanceRun α σ} (hr : p.runs[i]? = some r) :
    ∃ r', out.1.runs[i]? = some r' ∧ r.GetsOver (visits i passes) r' := by
  induction ran generalizing r with
  | done => exact ⟨r, hr, .refl r⟩
  | cut leads _ =>
    obtain ⟨r', hr', ⟨visited, first⟩ | ⟨idle, rfl⟩⟩ := leads.getsOver hr
    · exact ⟨r', hr', visited [] ▸ first⟩
    · exact ⟨r', hr', idle [] ▸ .refl r'⟩
  | @pass _ _ x passes _ leads _ _ ih =>
    obtain ⟨r₁, hr₁, carried⟩ := leads.getsOver hr
    obtain ⟨r', hr', rest⟩ := ih hr₁
    obtain ⟨visited, first⟩ | ⟨idle, rfl⟩ := carried
    · exact ⟨r', hr', visited passes ▸ first.cons rest⟩
    · exact ⟨r', hr', idle passes ▸ rest⟩

end Lockstep

/-- How a lockstep with some passes proceeds to what it comes to. -/
structure Proceeds (c : RunScope α) (stop : StopPoint) (p : Portfolio α σ) (passes : List (Pass α σ))
    (out : Portfolio α σ × Option (Fault α)) : Prop where
  ran : Lockstep c stop p passes out
  ends : ∀ n, p.barsLeft < n → p.lockstep c stop n = out
  none_ahead : out.2 = none → out.1.nextTime? = none
  times : (passes.map Pass.time).Pairwise (· < ·)
  stepsDue : ∀ x ∈ passes, x.StepsDue c
  faults : (∀ x ∈ passes.dropLast, x.fault = none) ∧ out.2 = passes.getLast?.bind Pass.fault
  bars : ∀ (i : Nat) (r : InstanceRun α σ), p.runs[i]? = some r →
    ∃ r', out.1.runs[i]? = some r' ∧ r.GetsOver (visits i passes) r'

/-- Over increasing histories every lockstep comes to an end, whatever the engines do. Its times increase,
each of its passes but a last one that ends on a fatal fault steps exactly the runs that are due, one at
least, and each run gets from bar to bar. -/
theorem lockstep_proceeds (c : RunScope α) (stop : StopPoint) {p : Portfolio α σ}
    (increasing : ∀ r ∈ p.runs, r.primary.Increasing) :
    ∃ passes out, Proceeds c stop p passes out := by
  obtain ⟨passes, out, ran⟩ := Lockstep.exists_passes c stop p
  refine ⟨passes, out, ran, fun n enough => ran.lockstep_eq ?_, ran.nextTime?_eq_none,
    (ran.times_increase increasing).1, ran.stepsDue, ran.faults, fun _ _ => ran.getsOver⟩
  calc
    passes.length ≤ pending p.runs := ran.length_le_pending
    _ ≤ p.barsLeft := pending_le_barsLeft p
    _ < n := enough

section Sample

open InstanceRun (sampleScope samplePlan)

/-- The sale ends on its failure, the purchase goes on to its last bar. -/
theorem samplePortfolio_proceeds :
    let p := (samplePortfolio.start sampleScope).1
    (∀ r ∈ p.runs, r.primary.Increasing) ∧
      ∃ passes out, Proceeds sampleScope none p passes out ∧ out.2 = none ∧
        out.1.runs.map (fun r => (r.cursor, r.state)) =
          [(2, .aborted), (4, .finished), (0, .aborted)] := by
  intro p
  have increasing : ∀ r ∈ p.runs, r.primary.Increasing := by
    unfold Series.Increasing
    decide +kernel
  obtain ⟨passes, out, proceeds⟩ := lockstep_proceeds sampleScope none increasing
  have hout := proceeds.ends (p.barsLeft + 1) (Nat.lt_succ_self _)
  refine ⟨increasing, passes, out, proceeds, ?_, ?_⟩
  · rw [← hout]
    exact Option.isNone_iff_eq_none.mp (by decide +kernel)
  · rw [← hout]
    decide +kernel

/-- An instance that closes an order that is not there, and one that does nothing. -/
def strayPortfolio : Portfolio Float (ScriptLog Float) :=
  { empty sampleScope (.empty (Script.log 0) 0) with
    runs :=
      [.ofPlan sampleScope (samplePlan [(0, .close .sell 42)]),
        .ofPlan sampleScope { samplePlan [] with instanceId := 2 }] }

/-- Both instances are due at the first time, and the fault of the first one keeps the pass from the
other. -/
theorem strayPortfolio_leaves_due :
    let p := (strayPortfolio.start sampleScope).1
    let (q, fault) := p.lockstep sampleScope none (p.barsLeft + 1)
    p.nextTime? = some 0 ∧ (∀ r ∈ p.runs, r.state = .running ∧ r.nextTime? = some 0) ∧
      fault.isSome ∧ q.stepsTaken = 1 ∧
      q.runs.map (fun r => (r.cursor, r.engineCalls, r.state)) =
        [(0, 1, .aborted), (0, 0, .running)] := by
  decide +kernel

end Sample

end Portfolio
end Backtest
