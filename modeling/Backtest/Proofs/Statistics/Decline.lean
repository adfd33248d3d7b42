import Backtest.Proofs.Arith.Exact
import Backtest.Statistics.Basic
import Mathlib.Order.Bounds.Basic
import Mathlib.Order.MinMax

namespace Backtest

open Arith (Exact)
open Arith.Exact (value)

variable {α : Type}

/-- At some point of a curve, `P` holds of the points before it and the point. -/
def Along (P : List (CurvePoint α) → CurvePoint α → Prop) (points : List (CurvePoint α)) : Prop :=
  ∃ before p after, points = before ++ p :: after ∧ P before p

theorem along_snoc {P : List (CurvePoint α) → CurvePoint α → Prop} {points : List (CurvePoint α)}
    {p : CurvePoint α} : Along P (points ++ [p]) ↔ Along P points ∨ P points p := by
  constructor
  · rintro ⟨before, q, after, split, h⟩
    rcases List.eq_nil_or_concat after with rfl | ⟨rest, last, rfl⟩
    · obtain ⟨rfl, single⟩ := List.append_inj' split rfl
      obtain rfl := List.singleton_inj.mp single
      exact .inr h
    · rw [List.concat_eq_append, ← List.cons_append, ← List.append_assoc] at split
      exact .inl ⟨before, q, rest, (List.append_inj' split rfl).1, h⟩
  · rintro (⟨before, q, after, rfl, h⟩ | h)
    · exact ⟨before, q, after ++ [p], by rw [List.append_assoc, List.cons_append], h⟩
    · exact ⟨points, p, [], rfl, h⟩

theorem not_along_nil {P : List (CurvePoint α) → CurvePoint α → Prop} : ¬Along P [] := by
  rintro ⟨before, p, after, split, -⟩
  exact List.append_ne_nil_of_right_ne_nil before (List.cons_ne_nil p after) split.symm

variable [Arith α] [Exact α]

/-- The highest balance of a curve. -/
def IsPeak (points : List (CurvePoint α)) (peak : ℝ) : Prop :=
  IsGreatest {x | ∃ p ∈ points, value p.balance = x} peak

/-- What a measure gives for the balances of a curve, each with the peak up to it. -/
def measured (measure : ℝ → ℝ → ℝ) (points : List (CurvePoint α)) : Set ℝ :=
  {x | Along (fun before p =>
    ∃ peak, IsPeak (before ++ [p]) peak ∧ measure peak (value p.balance) = x) points}

/-- `top` is the last of the highest points of a curve, and `below` comes after it. -/
def LastTop (points : List (CurvePoint α)) (top : CurvePoint α) (below : List (CurvePoint α)) :
    Prop :=
  ∃ before, points = before ++ top :: below ∧
    (∀ p ∈ before, value p.balance ≤ value top.balance) ∧
    ∀ p ∈ below, value p.balance < value top.balance

/-- A curve ends below its highest point, which was last reached at `top`. -/
def Lingers (points : List (CurvePoint α)) (top : CurvePoint α) : Prop :=
  ∃ below, LastTop points top below ∧ below ≠ []

/-- How long a curve was below a peak each time before it reached it again. -/
def recoveries (points : List (CurvePoint α)) : Set Int :=
  {l | Along (fun before p => ∃ top, Lingers before top ∧
    value top.balance ≤ value p.balance ∧ p.time - top.time = l) points}

/-- How long a curve was below a peak each time: until it reached it again, or until `stop` if it never
did. -/
def stretches (points : List (CurvePoint α)) (stop : Int) : Set Int :=
  recoveries points ∪ {l | ∃ top, Lingers points top ∧ stop - top.time = l}

variable {points below : List (CurvePoint α)} {top p : CurvePoint α} {time stop : Int}

theorem lastTop_singleton (p : CurvePoint α) : LastTop [p] p [] :=
  ⟨[], rfl, fun _ h => absurd h List.not_mem_nil, fun _ h => absurd h List.not_mem_nil⟩

theorem Lingers.mem (h : Lingers points top) : top ∈ points := by
  obtain ⟨below, ⟨before, rfl, -⟩, -⟩ := h
  exact List.mem_append_right _ List.mem_cons_self

theorem not_lingers_nil : ¬Lingers [] top := by
  rintro ⟨below, ⟨before, split, -⟩, -⟩
  exact List.append_ne_nil_of_right_ne_nil before (List.cons_ne_nil top below) split.symm

/-- No stretch is longer than the time that the curve takes. -/
theorem le_of_mem_stretches {begun stop l : Int}
    (within : ∀ p ∈ points, begun ≤ p.time ∧ p.time ≤ stop) (h : l ∈ stretches points stop) :
    l ≤ stop - begun := by
  rcases h with ⟨before, p, after, rfl, top, lingers, -, rfl⟩ | ⟨top, lingers, rfl⟩
  · have ended := (within p (by simp)).2
    have from_top := (within top (List.mem_append_left _ lingers.mem)).1
    omega
  · have from_top := (within top lingers.mem).1
    omega

theorem recoveries_singleton (p : CurvePoint α) : recoveries [p] = ∅ := by
  refine Set.eq_empty_of_forall_notMem fun l along => ?_
  rcases along_snoc.mp (show Along _ ([] ++ [p]) from along) with nowhere | ⟨top, lingers, -⟩
  · exact not_along_nil nowhere
  · exact not_lingers_nil lingers

namespace LastTop

theorem mem (h : LastTop points top below) : top ∈ points := by
  obtain ⟨before, rfl, -⟩ := h
  exact List.mem_append_right _ List.mem_cons_self

theorem le (h : LastTop points top below) (hp : p ∈ points) :
    value p.balance ≤ value top.balance := by
  obtain ⟨before, rfl, upTo, after⟩ := h
  rcases List.mem_append.mp hp with hp | hp
  · exact upTo p hp
  · rcases List.mem_cons.mp hp with rfl | hp
    · exact le_rfl
    · exact (after p hp).le

theorem isPeak (h : LastTop points top below) : IsPeak points (value top.balance) := by
  refine ⟨⟨top, h.mem, rfl⟩, ?_⟩
  rintro x ⟨p, hp, rfl⟩
  exact h.le hp

theorem snoc_lt (h : LastTop points top below) (lower : value p.balance < value top.balance) :
    LastTop (points ++ [p]) top (below ++ [p]) := by
  obtain ⟨before, rfl, upTo, after⟩ := h
  refine ⟨before, by rw [List.append_assoc, List.cons_append], upTo, ?_⟩
  intro q hq
  rcases List.mem_append.mp hq with hq | hq
  · exact after q hq
  · rwa [List.mem_singleton.mp hq]

theorem snoc_ge (h : LastTop points top below) (reached : value top.balance ≤ value p.balance) :
    LastTop (points ++ [p]) p [] :=
  ⟨points, rfl, fun _ hq => (h.le hq).trans reached, fun _ hq => absurd hq List.not_mem_nil⟩

theorem unique {top' : CurvePoint α} {below' : List (CurvePoint α)} (h : LastTop points top below)
    (h' : LastTop points top' below') : top = top' ∧ below = below' := by
  obtain ⟨before, rfl, upTo, after⟩ := h
  obtain ⟨before', split, upTo', after'⟩ := h'
  rcases List.append_eq_append_iff.mp split with ⟨between, rfl, rest⟩ | ⟨between, rfl, rest⟩
  · cases between with
    | nil => exact List.cons_eq_cons.mp rest
    | cons first between =>
      obtain ⟨rfl, rfl⟩ := List.cons_eq_cons.mp rest
      have lower := after top' (List.mem_append_right _ List.mem_cons_self)
      exact absurd (upTo' top (List.mem_append_right _ List.mem_cons_self)) (not_le.mpr lower)
  · cases between with
    | nil =>
      obtain ⟨rfl, rfl⟩ := List.cons_eq_cons.mp rest
      exact ⟨rfl, rfl⟩
    | cons first between =>
      obtain ⟨rfl, rfl⟩ := List.cons_eq_cons.mp rest
      have lower := after' top (List.mem_append_right _ List.mem_cons_self)
      exact absurd (upTo top' (List.mem_append_right _ List.mem_cons_self)) (not_le.mpr lower)

/-- A curve ends below its last top just if there are points after it. -/
theorem last_lt_iff (h : LastTop points top below) (last : points.getLast? = some p) :
    value p.balance < value top.balance ↔ below ≠ [] := by
  obtain ⟨before, rfl, -, after⟩ := h
  rw [List.getLast?_append_of_ne_nil _ (List.cons_ne_nil top below)] at last
  cases below with
  | nil =>
    obtain rfl := Option.some.inj last
    exact iff_of_false (lt_irrefl _) fun nonempty => nonempty rfl
  | cons first rest =>
    rw [List.getLast?_cons_cons] at last
    exact iff_of_true (after p (List.mem_of_getLast? last)) (List.cons_ne_nil first rest)

theorem lingers_iff (h : LastTop points top below) {t : CurvePoint α} :
    Lingers points t ↔ below ≠ [] ∧ t = top := by
  constructor
  · rintro ⟨below', h', nonempty⟩
    obtain ⟨rfl, rfl⟩ := h.unique h'
    exact ⟨nonempty, rfl⟩
  · rintro ⟨nonempty, rfl⟩
    exact ⟨below, h, nonempty⟩

theorem level_mem (h : LastTop points top below) (measure : ℝ → ℝ → ℝ) :
    measure (value top.balance) (value top.balance) ∈ measured measure points := by
  obtain ⟨before, rfl, upTo, -⟩ := h
  have reached : LastTop (before ++ [top]) top [] :=
    ⟨before, rfl, upTo, fun _ hq => absurd hq List.not_mem_nil⟩
  exact ⟨before, top, below, rfl, value top.balance, reached.isPeak, rfl⟩

theorem stretches_eq (h : LastTop points top below) (stop : Int) :
    stretches points stop =
      recoveries points ∪ {l | below ≠ [] ∧ stop - top.time = l} := by
  ext l
  simp only [stretches, Set.mem_union, Set.mem_ofPred_eq, h.lingers_iff, and_assoc,
    exists_and_left, exists_eq_left]

theorem recoveries_snoc (h : LastTop points top below) :
    recoveries (points ++ [p]) = recoveries points ∪
      {l | below ≠ [] ∧ value top.balance ≤ value p.balance ∧ p.time - top.time = l} := by
  ext l
  simp only [recoveries, Set.mem_union, Set.mem_ofPred_eq, along_snoc, h.lingers_iff, and_assoc,
    exists_and_left, exists_eq_left]

/-- As long as the curve is below its top, and when it reaches it again, the stretch is that of the last
point. -/
theorem stretches_snoc (h : LastTop points top below)
    (declined : value p.balance < value top.balance ∨ below ≠ []) :
    stretches (points ++ [p]) p.time = recoveries points ∪ {p.time - top.time} := by
  by_cases lower : value p.balance < value top.balance
  · have none : recoveries (points ++ [p]) = recoveries points := by
      rw [h.recoveries_snoc]
      simp [not_le.mpr lower]
    rw [(h.snoc_lt lower).stretches_eq, none]
    simp
  · have one : recoveries (points ++ [p]) = recoveries points ∪ {p.time - top.time} := by
      rw [h.recoveries_snoc]
      simp [not_lt.mp lower, declined.resolve_left lower]
    rw [(h.snoc_ge (not_lt.mp lower)).stretches_eq, one]
    simp

/-- A point that reaches a top at which the curve stood adds no stretch. -/
theorem stretches_snoc_nil (h : LastTop points top [])
    (reached : value top.balance ≤ value p.balance) (stop stop' : Int) :
    stretches (points ++ [p]) stop' = stretches points stop := by
  rw [(h.snoc_ge reached).stretches_eq, h.stretches_eq, h.recoveries_snoc]
  ext l
  simp

end LastTop

theorem measured_snoc (measure : ℝ → ℝ → ℝ) {peak : ℝ} (h : IsPeak (points ++ [p]) peak) :
    measured measure (points ++ [p]) =
      insert (measure peak (value p.balance)) (measured measure points) := by
  ext x
  simp only [measured, Set.mem_ofPred_eq, along_snoc, Set.mem_insert_iff]
  rw [or_comm]
  refine or_congr_left ⟨?_, fun eq => ⟨peak, h, eq.symm⟩⟩
  rintro ⟨peak', h', rfl⟩
  rw [h.unique h']

theorem measured_singleton (measure : ℝ → ℝ → ℝ) (p : CurvePoint α) :
    measured measure [p] = {measure (value p.balance) (value p.balance)} := by
  have nothing : measured measure ([] : List (CurvePoint α)) = ∅ :=
    Set.eq_empty_of_forall_notMem fun x => not_along_nil
  have alone : IsPeak ([] ++ [p]) (value p.balance) := (lastTop_singleton p).isPeak
  rw [← List.nil_append [p], measured_snoc measure alone, nothing, insert_empty_eq]

theorem LastTop.measured_snoc_ge (h : LastTop points top below)
    (reached : value top.balance ≤ value p.balance) {measure : ℝ → ℝ → ℝ}
    (level : ∀ x, measure x x = 0) : measured measure (points ++ [p]) = measured measure points := by
  rw [measured_snoc measure (h.snoc_ge reached).isPeak]
  refine Set.insert_eq_of_mem ?_
  rw [level, ← level (value top.balance)]
  exact h.level_mem measure

/-- The longest stretch grows with the one that goes on since the top. -/
theorem LastTop.isGreatest_extend (h : LastTop points top below) {last now longest : Int}
    (later : last ≤ now) (greatest : IsGreatest (insert 0 (stretches points last)) longest) :
    IsGreatest (insert 0 (recoveries points ∪ {now - top.time})) (max longest (now - top.time)) := by
  rw [h.stretches_eq] at greatest
  obtain ⟨mem, upper⟩ := greatest
  refine ⟨?_, ?_⟩
  · rcases le_total longest (now - top.time) with le | ge
    · rw [max_eq_right le]
      exact .inr (.inr rfl)
    · rw [max_eq_left ge]
      rcases mem with zero | old | ⟨-, ongoing⟩
      · exact .inl zero
      · exact .inr (.inl old)
      · have shorter : longest ≤ now - top.time := ongoing ▸ Int.sub_le_sub_right later _
        exact .inr (.inr (le_antisymm shorter ge))
  · rintro l (rfl | old | rfl)
    · exact (upper (.inl rfl)).trans (le_max_left _ _)
    · exact (upper (.inr (.inl old))).trans (le_max_left _ _)
    · exact le_max_right _ _

end Backtest
