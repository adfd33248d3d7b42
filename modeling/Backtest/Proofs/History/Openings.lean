import Backtest.Proofs.History.Spans

namespace Backtest
namespace Series

variable {α : Type}

/-- The bars that have closed by a time. -/
def closedBars (period t : Int) (s : Series α) : List (Bar α) :=
  s.toList.filter fun b => closedBy period t b.time

/-- Time and opening of each bar up to a time. -/
def openings (t : Int) (s : Series α) : List (Int × α) :=
  (s.toList.filter fun b => upTo t b.time).map fun b => (b.time, b.openPrice)

def openingsAt (t : Int) (s : Series α) : List α :=
  (s.toList.filter fun b => b.time = t).map Bar.openPrice

/-- The latest opening that is not after a time. -/
def latest? (openings : List (Int × α)) (time : Int) : Option α :=
  ((openings.takeWhile fun x => upTo time x.1).getLast?).map (·.2)

theorem mem_times_iff {s : Series α} {t : Int} :
    t ∈ s.toList.map Bar.time ↔ s.openingsAt t ≠ [] := by
  unfold openingsAt
  rw [Ne, List.map_eq_nil_iff, List.filter_eq_nil_iff]
  simp

theorem front_upTo_times {s : Series α} (h : s.Increasing) (t : Int) :
    (s.front (upTo t)).map Bar.time = (s.toList.map Bar.time).filter (upTo t) := by
  rw [front_eq_filter h (upTo_down t), List.filter_map]
  rfl

theorem openings_times (t : Int) (s : Series α) :
    (s.openings t).map (·.1) = (s.toList.map Bar.time).filter (upTo t) := by
  unfold openings
  rw [List.map_map, List.filter_map]
  rfl

theorem filter_upTo {s : Series α} (h : s.Increasing) (t : Int) :
    (s.toList.filter fun b => upTo t b.time) =
      (s.toList.filter fun b => b.time < t) ++ s.toList.filter fun b => b.time = t := by
  unfold Increasing at h
  generalize s.toList = l at h
  induction l with
  | nil => rfl
  | cons a l ih =>
    obtain ⟨ha, hl⟩ := List.pairwise_cons.mp h
    rcases Int.lt_trichotomy a.time t with hlt | heq | hgt
    · have hup : upTo t a.time = true := upTo_iff.mpr (Int.le_of_lt hlt)
      simp only [List.filter_cons, hup, hlt, Int.ne_of_lt hlt, decide_true, decide_false,
        ↓reduceIte, Bool.false_eq_true, ih hl, List.cons_append]
    · subst heq
      have hup : upTo a.time a.time = true := upTo_iff.mpr (Int.le_refl _)
      have hnone : (l.filter fun b => b.time < a.time) = [] := by
        refine List.filter_eq_nil_iff.mpr fun b hb => ?_
        have hh := ha b hb
        simpa using Int.le_of_lt hh
      simp only [List.filter_cons, hup, Int.lt_irrefl, decide_true, decide_false,
        ↓reduceIte, Bool.false_eq_true, ih hl, hnone, List.nil_append]
    · have hlt : ¬a.time < t := by omega
      have hup : upTo t a.time = false := by
        refine Bool.eq_false_iff.mpr fun h => ?_
        rw [upTo_iff] at h
        omega
      simp only [List.filter_cons, hup, Int.ne_of_gt hgt, hlt, decide_false,
        ↓reduceIte, Bool.false_eq_true, ih hl]

/-- What closed by the opening of a bar, and that opening, make up all openings until then. -/
theorem openings_eq {s : Series α} (h : s.Increasing) {base t : Int} (hb : 0 < base)
    (spaced : Spaced base (s.toList.map Bar.time)) (ht : t ∈ s.toList.map Bar.time) :
    s.openings t =
      (s.closedBars base t).map (fun b => (b.time, b.openPrice)) ++ (s.openingsAt t).map (t, ·) := by
  have hclosed : (s.toList.filter fun b => b.time < t) = s.closedBars base t := by
    refine List.filter_congr fun b hm => ?_
    have hgap := spaced.gap_le hb (List.mem_map_of_mem hm) ht
    rw [Bool.eq_iff_iff, closedBy_iff, decide_eq_true_eq]
    exact ⟨hgap, fun h => by omega⟩
  have hat : (s.toList.filter fun b => b.time = t).map (fun b => (b.time, b.openPrice)) =
      (s.openingsAt t).map (t, ·) := by
    unfold openingsAt
    rw [List.map_map]
    refine List.map_congr_left fun b hm => ?_
    have htime : b.time = t := by simpa using (List.mem_filter.mp hm).2
    rw [htime]
    rfl
  unfold openings
  rw [filter_upTo h, List.map_append, hclosed, hat]

/-- Two histories whose bars up to `t` open at the times `past`: these bars open alike, and all but the last
of them are the same. -/
structure SameBars (t : Int) (past : List Int) (s₁ s₂ : Series α) : Prop where
  opening : ∀ k time, past[k]? = some time → time ≤ t ∧ ∃ b₁ b₂, s₁.bar? k = some b₁ ∧
    s₂.bar? k = some b₂ ∧ b₁.time = time ∧ b₂.time = time ∧ b₁.openPrice = b₂.openPrice
  closed : ∀ k, k + 1 < past.length → s₁.bar? k = s₂.bar? k

theorem openings_getElem? {s : Series α} (h : s.Increasing) {t : Int} {k : Nat} {time : Int}
    (hk : ((s.openings t).map (·.1))[k]? = some time) :
    time ≤ t ∧ ∃ b, s.bar? k = some b ∧ b.time = time ∧
      (s.openings t)[k]? = some (b.time, b.openPrice) := by
  unfold openings at hk ⊢
  rw [← front_eq_filter h (upTo_down t)] at hk ⊢
  rw [List.map_map, List.getElem?_map] at hk
  obtain ⟨b, hb, rfl⟩ := Option.map_eq_some_iff.mp hk
  have hlt : k < (s.front (upTo t)).length := (List.getElem?_eq_some_iff.mp hb).1
  refine ⟨upTo_iff.mp (early_of_mem_front (List.mem_of_getElem? hb)), b, ?_, rfl, ?_⟩
  · rw [bar?_of_lt_front hlt, hb]
  · rw [List.getElem?_map, hb]
    rfl

theorem Alike.sameBars {base t : Int} {s₁ s₂ : Series α} (h : Alike base t s₁ s₂)
    (hopen : s₁.openings t = s₂.openings t) :
    SameBars t ((s₁.openings t).map (·.1)) s₁ s₂ := by
  have opening : ∀ k time, ((s₁.openings t).map (·.1))[k]? = some time → time ≤ t ∧
      ∃ b₁ b₂, s₁.bar? k = some b₁ ∧ s₂.bar? k = some b₂ ∧ b₁.time = time ∧ b₂.time = time ∧
        b₁.openPrice = b₂.openPrice := by
    intro k time hk
    obtain ⟨hle, b₁, hb₁, htime₁, hx₁⟩ := openings_getElem? h.increasing₁ hk
    obtain ⟨-, b₂, hb₂, htime₂, hx₂⟩ := openings_getElem? h.increasing₂ (hopen ▸ hk)
    rw [hopen, hx₂, Option.some.injEq, Prod.mk.injEq] at hx₁
    exact ⟨hle, b₁, b₂, hb₁, hb₂, htime₁, htime₂, hx₁.2.symm⟩
  refine ⟨opening, fun k hk => ?_⟩
  obtain ⟨-, b₁, b₂, hb₁, hb₂, htime₁, htime₂, -⟩ :=
    opening k _ (List.getElem?_eq_getElem (by omega))
  obtain ⟨hle, c₁, -, hc₁, -, htime, -⟩ := opening (k + 1) _ (List.getElem?_eq_getElem hk)
  have hlt : b₁.time < t := by
    have := h.increasing₁.time_lt hb₁ hc₁ (Nat.lt_succ_self k)
    omega
  have hmem : b₁.time ∈ s₁.toList.map Bar.time :=
    List.mem_map_of_mem (Array.mem_def.mp (Array.mem_of_getElem? hb₁))
  have hgap := closedBy_iff.mpr (h.spaced₁.gap_le h.positive hmem h.bar₁ hlt)
  have hk₁ := lt_front_length h.increasing₁ (closedBy_down base t) hb₁ hgap
  have hk₂ := lt_front_length h.increasing₂ (closedBy_down base t) hb₂ (htime₂ ▸ htime₁ ▸ hgap)
  rw [bar?_of_lt_front hk₁, bar?_of_lt_front hk₂, h.closed]

end Series

end Backtest
