import Backtest.History.Resample
import Backtest.Proofs.History.Front

namespace Backtest
namespace Series

variable {α : Type}

theorem lt_spanStart_add (period time : Int) (hp : 0 < period) :
    time < spanStart period time + period := by
  have h := Int.lt_ediv_add_one_mul_self time hp
  unfold spanStart
  rwa [Int.add_mul, Int.one_mul] at h

theorem spanStart_mono {period a b : Int} (hp : 0 < period) (h : a ≤ b) :
    spanStart period a ≤ spanStart period b :=
  Int.mul_le_mul_of_nonneg_right (Int.ediv_le_ediv hp h) (Int.le_of_lt hp)

/-- The last base bar of a closed span has closed, if the spans end where a bar opens. -/
theorem closedBy_of_span {base period t : Int} (hp : 0 < period) (hb : 0 < base) {times : List Int}
    (spaced : Spaced base times) (ht : t ∈ times) {time : Int} (hm : time ∈ times)
    (h : closedBy period t (spanStart period time) = true) : closedBy base t time = true := by
  have hlt := lt_spanStart_add period time hp
  rw [closedBy_iff] at h ⊢
  exact spaced.gap_le hb hm ht (by omega)

/-- Two histories with a bar at `t`, of bars a base period or more apart, that agree on the bars that have
closed by then. -/
structure Alike (base t : Int) (s₁ s₂ : Series α) : Prop where
  positive : 0 < base
  increasing₁ : s₁.Increasing
  increasing₂ : s₂.Increasing
  spaced₁ : Spaced base (s₁.toList.map Bar.time)
  spaced₂ : Spaced base (s₂.toList.map Bar.time)
  bar₁ : t ∈ s₁.toList.map Bar.time
  bar₂ : t ∈ s₂.toList.map Bar.time
  closed : s₁.front (closedBy base t) = s₂.front (closedBy base t)

variable [Arith α]

/-- A bar joins the last coarse bar, which is of its span, or makes a new one. -/
theorem addToSpans_cases (period : Int) (out : Series α) (b : Bar α) :
    (∃ init last, out.toList = init ++ [last] ∧ last.time = spanStart period b.time ∧
      (addToSpans period out b).toList = init ++ [last.absorb b]) ∨
    (addToSpans period out b).toList =
      out.toList ++ [{ b with time := spanStart period b.time }] := by
  unfold addToSpans
  dsimp only
  split
  next last hlast =>
    split
    next htime =>
      refine .inl ⟨out.toList.dropLast, last, ?_, htime, by simp⟩
      refine (List.dropLast_append_getLast? last ?_).symm
      rwa [Array.getLast?_toList]
    next => exact .inr (by simp)
  next => exact .inr (by simp)

theorem addToSpans_times {period : Int} {early : Int → Bool} {out : Series α} {b : Bar α}
    (ho : ∀ x ∈ out.toList, early x.time = true)
    (hb : early (spanStart period b.time) = true) :
    ∀ x ∈ (addToSpans period out b).toList, early x.time = true := by
  rcases addToSpans_cases period out b with ⟨init, last, hout, htime, hnew⟩ | hnew
  · intro x hx
    rw [hnew] at hx
    rcases List.mem_append.mp hx with hi | hl
    · exact ho x (hout ▸ List.mem_append_left [last] hi)
    · obtain rfl := List.mem_singleton.mp hl
      exact ho last (hout ▸ List.mem_append_right init List.mem_cons_self)
  · intro x hx
    rw [hnew] at hx
    rcases List.mem_append.mp hx with hi | hl
    · exact ho x hi
    · obtain rfl := List.mem_singleton.mp hl
      exact hb

theorem addToSpans_late {period : Int} {early : Int → Bool} {out : Series α} {b : Bar α}
    {done open' : List (Bar α)} (hout : out.toList = done ++ open')
    (hdone : ∀ x ∈ done, early x.time = true) (hopen : ∀ x ∈ open', early x.time = false)
    (hb : early (spanStart period b.time) = false) :
    ∃ open'', (addToSpans period out b).toList = done ++ open'' ∧
      ∀ x ∈ open'', early x.time = false := by
  rcases addToSpans_cases period out b with ⟨init, last, hlast, htime, hnew⟩ | hnew
  · rcases List.eq_nil_or_concat open' with hnil | ⟨before, x, hopen'⟩
    · -- the last coarse bar cannot be an early one
      subst hnil
      have hm : last ∈ done := by
        rw [List.append_nil] at hout
        rw [← hout, hlast]
        exact List.mem_append_right init List.mem_cons_self
      rw [← htime, hdone last hm] at hb
      cases hb
    · rw [List.concat_eq_append] at hopen'
      subst hopen'
      rw [hlast, ← List.append_assoc] at hout
      obtain ⟨rfl, hx⟩ := List.append_inj' hout rfl
      obtain rfl := List.head_eq_of_cons_eq hx
      refine ⟨before ++ [last.absorb b], by rw [hnew, List.append_assoc], ?_⟩
      intro y hy
      rcases List.mem_append.mp hy with hi | hl
      · exact hopen y (List.mem_append_left _ hi)
      · obtain rfl := List.mem_singleton.mp hl
        exact hopen last (List.mem_append_right _ List.mem_cons_self)
  · refine ⟨open' ++ [{ b with time := spanStart period b.time }],
      by rw [hnew, hout, List.append_assoc], ?_⟩
    intro y hy
    rcases List.mem_append.mp hy with hi | hl
    · exact hopen y hi
    · obtain rfl := List.mem_singleton.mp hl
      exact hb

theorem foldl_addToSpans_times {period : Int} {early : Int → Bool} {bars : List (Bar α)}
    (hbars : ∀ b ∈ bars, early (spanStart period b.time) = true) {out : Series α}
    (ho : ∀ x ∈ out.toList, early x.time = true) :
    ∀ x ∈ (bars.foldl (addToSpans period) out).toList, early x.time = true := by
  induction bars generalizing out with
  | nil => exact ho
  | cons b bars ih =>
    exact ih (fun x hx => hbars x (List.mem_cons_of_mem b hx))
      (addToSpans_times ho (hbars b List.mem_cons_self))

theorem foldl_addToSpans_late {period : Int} {early : Int → Bool} {bars : List (Bar α)}
    (hbars : ∀ b ∈ bars, early (spanStart period b.time) = false) {out : Series α}
    {done open' : List (Bar α)} (hout : out.toList = done ++ open')
    (hdone : ∀ x ∈ done, early x.time = true) (hopen : ∀ x ∈ open', early x.time = false) :
    ∃ open'', (bars.foldl (addToSpans period) out).toList = done ++ open'' ∧
      ∀ x ∈ open'', early x.time = false := by
  induction bars generalizing out open' with
  | nil => exact ⟨open', hout, hopen⟩
  | cons b bars ih =>
    obtain ⟨next, hnext, hlate⟩ := addToSpans_late hout hdone hopen (hbars b List.mem_cons_self)
    exact ih (fun x hx => hbars x (List.mem_cons_of_mem b hx)) hnext hlate

/-- The early coarse bars are those of the base bars whose span is early. -/
theorem resample_front {s coarse : Series α} {base target : Nat} (hne : target ≠ base)
    (h : s.resample base target = .ok coarse) (increasing : s.Increasing) {early : Int → Bool}
    (down : Downward early) :
    coarse.front early =
      ((s.front fun time => early (spanStart (target * 60 : Nat) time)).foldl
        (addToSpans (target * 60 : Nat)) #[]).toList := by
  unfold resample at h
  rw [if_neg hne] at h
  split at h
  next => cases h
  next hvalid =>
    cases h
    simp only [Bool.or_eq_true, decide_eq_true_eq, not_or, Nat.not_lt] at hvalid
    have hp : (0 : Int) < (target * 60 : Nat) := by omega
    have down' : Downward fun time => early (spanStart (target * 60 : Nat) time) :=
      fun a b hab hb => down _ _ (spanStart_mono hp hab) hb
    obtain ⟨rest, hs, late⟩ := front_append increasing down'
    have hbars : ∀ b ∈ s.front (fun time => early (spanStart (target * 60 : Nat) time)),
        early (spanStart (target * 60 : Nat) b.time) = true := fun b hb => early_of_mem_front hb
    have done : ∀ x ∈ ((s.front fun time => early (spanStart (target * 60 : Nat) time)).foldl
        (addToSpans (target * 60 : Nat)) #[]).toList, early x.time = true :=
      foldl_addToSpans_times hbars (by simp)
    obtain ⟨last, hlast, hopen⟩ :=
      foldl_addToSpans_late late (List.append_nil _).symm done (by simp)
    refine front_eq ?_ done hopen
    rw [← hlast, ← List.foldl_append, ← hs, Array.foldl_toList]

/-- Where all base bars agree that have closed by the opening of a bar, all coarse bars agree that have
closed by then. -/
theorem Alike.resample {s₁ s₂ coarse₁ coarse₂ : Series α} {base target : Nat} {t : Int}
    (h : Alike (base * 60 : Nat) t s₁ s₂) (hne : target ≠ base)
    (h₁ : s₁.resample base target = .ok coarse₁) (h₂ : s₂.resample base target = .ok coarse₂) :
    coarse₁.front (closedBy (target * 60 : Nat) t) =
      coarse₂.front (closedBy (target * 60 : Nat) t) := by
  have hp : (0 : Int) < (target * 60 : Nat) := by
    have hb := h.positive
    unfold Series.resample at h₁
    split at h₁
    next => cases h₁
    next hvalid =>
      simp only [Bool.or_eq_true, decide_eq_true_eq, not_or, Nat.not_lt] at hvalid
      omega
  have within {s : Series α} (spaced : Spaced (base * 60 : Nat) (s.toList.map Bar.time))
      (ht : t ∈ s.toList.map Bar.time) :=
    front_of_imp (fun time => closedBy (target * 60 : Nat) t (spanStart _ time)) _
      fun b (hm : b ∈ s.toList) => closedBy_of_span hp h.positive spaced ht (List.mem_map_of_mem hm)
  rw [resample_front hne h₁ h.increasing₁ (closedBy_down _ t),
    resample_front hne h₂ h.increasing₂ (closedBy_down _ t),
    ← within h.spaced₁ h.bar₁, ← within h.spaced₂ h.bar₂, h.closed]

end Series
end Backtest
