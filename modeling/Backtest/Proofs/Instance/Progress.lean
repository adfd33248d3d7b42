import Backtest.Proofs.Instance.Bar

namespace Backtest
namespace InstanceRun

variable {α σ : Type} [Arith α]

theorem ask_plan (c : RunScope α) (h : EngineHost α σ) (r : InstanceRun α σ) (bar : Bar α) :
    (r.ask c h bar).2.1.plan = r.plan := by
  obtain ⟨book, hrun⟩ := ask_run c h r bar
  rw [hrun]
  rfl

theorem ask_cursor (c : RunScope α) (h : EngineHost α σ) (r : InstanceRun α σ) (bar : Bar α) :
    (r.ask c h bar).2.1.cursor = r.cursor := by
  obtain ⟨book, hrun⟩ := ask_run c h r bar
  rw [hrun]
  rfl

theorem takeBar_plan (c : RunScope α) (h : EngineHost α σ) (r : InstanceRun α σ) (bar : Bar α) :
    (r.takeBar c h bar).2.1.plan = r.plan := by
  rcases takeBar_cases c h r bar with ⟨f, -, heq⟩ | ⟨-, -, heq⟩
  · rw [heq]
    exact ask_plan c h r bar
  · rw [heq, finishBar_eq]
    exact ask_plan c h r bar

theorem le_takeBar_cursor (c : RunScope α) (h : EngineHost α σ) (r : InstanceRun α σ) (bar : Bar α) :
    r.cursor ≤ (r.takeBar c h bar).2.1.cursor := by
  have asked := ask_cursor c h r bar
  rcases takeBar_cases c h r bar with ⟨f, -, heq⟩ | ⟨-, -, heq⟩
  · rw [heq]
    exact asked.ge
  · rw [heq, finishBar_eq]
    exact Nat.le_succ_of_le asked.ge

theorem step_plan (c : RunScope α) (stopped : Bool) (h : EngineHost α σ) (r : InstanceRun α σ) :
    (r.step c stopped h).2.1.plan = r.plan := by
  rcases step_cases c stopped h r with
    ⟨-, heq⟩ | ⟨-, -, heq⟩ | ⟨-, -, -, heq⟩ | ⟨bar, -, -, -, heq⟩
  all_goals rw [heq]
  exact takeBar_plan c h { r with stepEvents := [] } bar

theorem start_plan (c : RunScope α) (h : EngineHost α σ) (r : InstanceRun α σ) :
    (r.start c h).2.1.plan = r.plan := by
  obtain ⟨state, failure, hrun⟩ := start_run c h r
  rw [hrun]

theorem step_running {c : RunScope α} {stopped : Bool} {h : EngineHost α σ} {r : InstanceRun α σ}
    (running : (r.step c stopped h).2.1.state = .running) :
    r.state = .running ∧ 0 < (r.step c stopped h).2.1.barsLeft ∧
      (r.step c stopped h).2.1.barsLeft + 1 = r.barsLeft := by
  rcases step_cases c stopped h r with
    ⟨hstate, heq⟩ | ⟨-, -, heq⟩ | ⟨-, -, -, heq⟩ | ⟨bar, hstate, -, hbar, heq⟩
  · rw [heq] at running
    exact absurd running hstate
  · rw [heq] at running
    cases running
  · rw [heq] at running
    cases running
  · have hplan := ask_plan c h { r with stepEvents := [] } bar
    have hcursor := ask_cursor c h { r with stepEvents := [] } bar
    have hsize : r.cursor < r.primary.size := (Array.getElem?_eq_some_iff.mp hbar).1
    rw [heq] at running ⊢
    rcases takeBar_cases c h { r with stepEvents := [] } bar with ⟨f, -, hbar⟩ | ⟨-, -, hbar⟩
    · rw [hbar] at running
      cases running
    · rw [hbar, finishBar_eq] at running ⊢
      generalize (ask c h { r with stepEvents := [] } bar).2.1 = r' at hplan hcursor running
      have hprimary : r'.primary = r.primary := congrArg (fun p => p.rates.primary) hplan
      dsimp only at running hcursor
      split at running
      next => cases running
      next hnext =>
        have hleft : r'.cursor + 1 < r'.primary.size := by
          have := (not_or.mp hnext).2
          omega
        unfold barsLeft
        change r.state = .running ∧ 0 < r'.primary.size - (r'.cursor + 1) ∧
          r'.primary.size - (r'.cursor + 1) + 1 = r.primary.size - r.cursor
        rw [hprimary, hcursor] at hleft ⊢
        refine ⟨hstate, ?_, ?_⟩ <;> omega

theorem step_primary (c : RunScope α) (stopped : Bool) (h : EngineHost α σ) (r : InstanceRun α σ) :
    (r.step c stopped h).2.1.primary = r.primary :=
  congrArg (fun p => p.rates.primary) (step_plan c stopped h r)

/-- The next bar of a run that goes on opens later than the one it has taken. -/
theorem step_nextTime?_lt {c : RunScope α} {stopped : Bool} {h : EngineHost α σ}
    {r : InstanceRun α σ} (increasing : r.primary.Increasing) {time next : Int}
    (due : r.nextTime? = some time) (running : (r.step c stopped h).2.1.state = .running)
    (hnext : (r.step c stopped h).2.1.nextTime? = some next) : time < next := by
  obtain ⟨-, positive, hleft⟩ := step_running running
  have hprimary := step_primary c stopped h r
  unfold nextTime? Series.timeAt? at due hnext
  unfold barsLeft at positive hleft
  rw [hprimary] at positive hleft hnext
  obtain ⟨bar, hbar, rfl⟩ := Option.map_eq_some_iff.mp due
  obtain ⟨bar', hbar', rfl⟩ := Option.map_eq_some_iff.mp hnext
  exact increasing.time_lt hbar hbar' (by omega)

def pending (r : InstanceRun α σ) : Nat := if r.state = .running then r.barsLeft else 0

omit [Arith α] in
theorem pending_le_barsLeft (r : InstanceRun α σ) : r.pending ≤ r.barsLeft := by
  unfold pending
  split
  next => exact Nat.le_refl _
  next => exact Nat.zero_le _

omit [Arith α] in
theorem barsLeft_pos_of_nextTime? {r : InstanceRun α σ} {time : Int} (h : r.nextTime? = some time) :
    0 < r.barsLeft := by
  unfold nextTime? Series.timeAt? at h
  obtain ⟨bar, hbar, -⟩ := Option.map_eq_some_iff.mp h
  exact Nat.sub_pos_of_lt (Array.getElem?_eq_some_iff.mp hbar).1

omit [Arith α] in
theorem barsLeft_eq_zero_of_nextTime? {r : InstanceRun α σ} (h : r.nextTime? = none) :
    r.barsLeft = 0 := by
  unfold nextTime? Series.timeAt? at h
  exact Nat.sub_eq_zero_of_le (Array.getElem?_eq_none_iff.mp (Option.map_eq_none_iff.mp h))

theorem step_pending_le (c : RunScope α) (stopped : Bool) (h : EngineHost α σ) (r : InstanceRun α σ) :
    (r.step c stopped h).2.1.pending ≤ r.pending - 1 := by
  by_cases running : (r.step c stopped h).2.1.state = .running
  · obtain ⟨before, -, hleft⟩ := step_running running
    unfold pending
    rw [if_pos running, if_pos before]
    omega
  · rw [pending, if_neg running]
    exact Nat.zero_le _

theorem step_halts (c : RunScope α) (stopped : Bool) (h : EngineHost α σ) {r : InstanceRun α σ}
    (none_left : r.barsLeft = 0) : (r.step c stopped h).2.1.state ≠ .running := by
  intro running
  have := (step_running running).2.2
  omega

theorem steps_eq_of_halted (c : RunScope α) (stop : StopPoint) (n : Nat) (h : EngineHost α σ)
    {r : InstanceRun α σ} (halted : r.state ≠ .running) : r.steps c stop n h = (h, r, none) := by
  cases n with
  | zero => rfl
  | succ n =>
    unfold steps isRunning
    rw [if_pos (by simpa using halted)]

theorem steps_succ (c : RunScope α) (stop : StopPoint) (n : Nat) (h : EngineHost α σ)
    {r : InstanceRun α σ} (running : r.state = .running) :
    r.steps c stop (n + 1) h =
      match r.step c (stop.isReached r.cursor) h with
      | (h, r, some f) => (h, r, some f)
      | (h, r, none) => r.steps c stop n h := by
  rw [steps, isRunning, running]
  rfl

theorem steps_add (c : RunScope α) (stop : StopPoint) (n m : Nat) (h : EngineHost α σ)
    (r : InstanceRun α σ) :
    r.steps c stop (n + m) h =
      match r.steps c stop n h with
      | (h, r, some f) => (h, r, some f)
      | (h, r, none) => r.steps c stop m h := by
  induction n generalizing h r with
  | zero =>
    rw [Nat.zero_add]
    rfl
  | succ n ih =>
    by_cases running : r.state = .running
    · rw [Nat.succ_add, steps_succ c stop (n + m) h running, steps_succ c stop n h running]
      generalize r.step c (stop.isReached r.cursor) h = out
      obtain ⟨h', r', fault⟩ := out
      cases fault with
      | some f => rfl
      | none => exact ih h' r'
    · rw [steps_eq_of_halted c stop (n + 1) h running]
      dsimp only
      rw [steps_eq_of_halted c stop _ h running, steps_eq_of_halted c stop _ h running]

theorem steps_halt {c : RunScope α} {stop : StopPoint} {n : Nat} {h h' : EngineHost α σ}
    {r r' : InstanceRun α σ} (enough : r.barsLeft < n) (taken : r.steps c stop n h = (h', r', none)) :
    r'.state ≠ .running := by
  induction n generalizing h r with
  | zero => exact absurd enough (Nat.not_lt_zero _)
  | succ n ih =>
    by_cases running : r.state = .running
    · rw [steps_succ c stop n h running] at taken
      have hleft : (r.step c (stop.isReached r.cursor) h).2.1.state = .running → _ := step_running
      generalize r.step c (stop.isReached r.cursor) h = out at taken hleft
      obtain ⟨h₁, r₁, fault⟩ := out
      dsimp only at taken hleft
      cases fault with
      | some f => cases taken
      | none =>
        by_cases running₁ : r₁.state = .running
        · have := (hleft running₁).2.2
          exact ih (by omega) taken
        · dsimp only at taken
          rw [steps_eq_of_halted c stop n h₁ running₁] at taken
          cases taken
          exact running₁
    · rw [steps_eq_of_halted c stop _ h running] at taken
      cases taken
      exact running

/-- A run that has come to an end after some steps has come to that end after all. -/
theorem play_of_halted {c : RunScope α} {stop : StopPoint} {n : Nat} {h h' : EngineHost α σ}
    {r r' : InstanceRun α σ} (played : r.play c stop n h = (h', r', none))
    (halted : r'.state ≠ .running) : r.play c stop (r.barsLeft + 1) h = (h', r', none) := by
  have hbars := start_bars c h r
  unfold play at played ⊢
  generalize r.start c h = out at played hbars ⊢
  obtain ⟨h₁, r₁, fault⟩ := out
  cases fault with
  | some f => cases played
  | none =>
    dsimp only at played hbars ⊢
    have hleft : r₁.barsLeft = r.barsLeft := by
      unfold barsLeft
      rw [hbars.1, hbars.2]
    rcases Nat.le_total n (r.barsLeft + 1) with hle | hle
    · obtain ⟨m, hm⟩ := Nat.exists_eq_add_of_le hle
      rw [hm, steps_add, played]
      exact steps_eq_of_halted c stop m h' halted
    · obtain ⟨m, rfl⟩ := Nat.exists_eq_add_of_le hle
      have enough : r₁.barsLeft < r.barsLeft + 1 := hleft ▸ Nat.lt_succ_self _
      rw [steps_add] at played
      rcases hout : r₁.steps c stop (r.barsLeft + 1) h₁ with ⟨h₂, r₂, fault⟩
      rw [hout] at played
      cases fault with
      | some f => cases played
      | none =>
        have played' : r₂.steps c stop m h₂ = (h', r', none) := played
        rw [steps_eq_of_halted c stop m h₂ (steps_halt enough hout)] at played'
        exact played'

end InstanceRun
end Backtest
