import Mathlib.Data.List.Forall2
import Backtest.Random.Draw

namespace Backtest

theorem exists_mem_left {β γ : Type} {relates : β → γ → Prop} {xs : List β} {ys : List γ}
    (h : List.Forall₂ relates xs ys) {y : γ} (hy : y ∈ ys) : ∃ x ∈ xs, relates x y := by
  induction h with
  | nil => cases hy
  | cons hxy _ ih =>
    rcases List.mem_cons.mp hy with rfl | hy
    · exact ⟨_, List.mem_cons_self, hxy⟩
    · obtain ⟨x, hx, hxy⟩ := ih hy
      exact ⟨x, List.mem_cons_of_mem _ hx, hxy⟩

namespace Rand

variable {ρ β γ : Type} {good : β → Prop} {fine : γ → Prop}

/-- From every state of the source there is a result, and it is good. -/
def Always (good : β → Prop) (m : Rand ρ β) : Prop := ∀ s, ∃ x s', m.run s = .ok (x, s') ∧ good x

theorem always_pure {x : β} (h : good x) : Always good (pure x : Rand ρ β) := fun s => ⟨x, s, rfl, h⟩

theorem Always.bind {m : Rand ρ β} {f : β → Rand ρ γ} (h : Always good m)
    (step : ∀ x, good x → Always fine (f x)) : Always fine (m >>= f) := by
  intro s
  obtain ⟨x, s', hx, hgood⟩ := h s
  obtain ⟨y, s'', hy, hfine⟩ := step x hgood s'
  refine ⟨y, s'', ?_, hfine⟩
  rw [StateT.run_bind, hx]
  exact hy

theorem Always.mono {m : Rand ρ β} {good' : β → Prop} (h : Always good m)
    (weaker : ∀ x, good x → good' x) : Always good' m := by
  intro s
  obtain ⟨x, s', hx, hgood⟩ := h s
  exact ⟨x, s', hx, weaker x hgood⟩

theorem Always.of_run {m : Rand ρ β} (h : Always good m) {s s' : ρ} {x : β}
    (run : m.run s = .ok (x, s')) : good x := by
  obtain ⟨_, _, hx, hgood⟩ := h s
  cases run.symm.trans hx
  exact hgood

theorem always_pick {xs : List β} {i : Nat} (inside : i < xs.length) :
    Always (· ∈ xs) (Breach.pick xs i : Rand ρ β) := by
  intro s
  refine ⟨xs[i], s, ?_, List.getElem_mem inside⟩
  unfold Breach.pick
  rw [List.getElem?_eq_getElem inside]
  rfl

theorem always_mapM {relates : β → γ → Prop} {f : β → Rand ρ γ} {xs : List β}
    (h : ∀ x ∈ xs, Always (relates x) (f x)) : Always (List.Forall₂ relates xs) (xs.mapM f) := by
  induction xs with
  | nil =>
    rw [List.mapM_nil]
    exact always_pure .nil
  | cons x xs ih =>
    rw [List.mapM_cons]
    refine (h x List.mem_cons_self).bind fun y hy => ?_
    refine (ih fun x' hx' => h x' (List.mem_cons_of_mem x hx')).bind fun ys hys => ?_
    exact always_pure (.cons hy hys)

theorem always_mapM_all {f : β → Rand ρ γ} {xs : List β} (h : ∀ x ∈ xs, Always fine (f x)) :
    Always (fun ys => ys.length = xs.length ∧ ∀ y ∈ ys, fine y) (xs.mapM f) := by
  refine (always_mapM h).mono fun ys hys => ⟨hys.length_eq.symm, fun y hy => ?_⟩
  obtain ⟨-, -, hfine⟩ := exists_mem_left hys hy
  exact hfine

variable [RandomSource ρ] {n : Nat}

theorem word_lt : Always (· < wordRange) (word : Rand ρ Nat) :=
  fun s => ⟨_, _, rfl, Nat.mod_lt _ (by decide)⟩

/-- The high word of a product with a word is below the other factor. -/
theorem high_lt (positive : 0 < n) {w : Nat} (h : w < wordRange) : w * n / wordRange < n := by
  refine Nat.div_lt_of_lt_mul ?_
  exact Nat.mul_lt_mul_of_pos_right h positive

theorem belowFrom_lt (positive : 0 < n) (fuel : Nat) :
    Always (· < n) (belowFrom n fuel : Rand ρ Nat) := by
  induction fuel with
  | zero => exact word_lt.bind fun w hw => always_pure (high_lt positive hw)
  | succ fuel ih =>
    refine word_lt.bind fun w hw => ?_
    split
    next => exact always_pure (high_lt positive hw)
    next => exact ih

theorem below_lt (positive : 0 < n) : Always (· < n) (below n : Rand ρ Nat) := by
  unfold below
  rw [if_neg (Nat.ne_of_gt positive)]
  exact belowFrom_lt positive 200

theorem always_chance {α : Type} [Arith α] (p : α) : Always (fun _ => True) (chance p : Rand ρ Bool) := by
  unfold chance
  split
  next => exact always_pure trivial
  next => exact word_lt.bind fun _ _ => always_pure trivial

end Rand
end Backtest
