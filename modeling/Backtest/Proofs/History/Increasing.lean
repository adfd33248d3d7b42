import Mathlib.Data.List.Chain
import Mathlib.Data.List.Forall2
import Backtest.History.Alignment
import Backtest.History.Reader
import Backtest.Proofs.History.Front

namespace Backtest

theorem bind_eq_ok {ε β γ : Type} {x : Except ε β} {f : β → Except ε γ} {c : γ} :
    (x >>= f) = .ok c ↔ ∃ b, x = .ok b ∧ f b = .ok c := by
  constructor
  · intro h
    cases x with
    | error e => cases h
    | ok b => exact ⟨b, rfl, h⟩
  · rintro ⟨b, rfl, h⟩
    exact h

theorem bind_eq_error {ε β γ : Type} {x : Except ε β} {f : β → Except ε γ} {e : ε} :
    (x >>= f) = .error e ↔ x = .error e ∨ ∃ b, x = .ok b ∧ f b = .error e := by
  cases x with
  | error e' => simp [bind, Except.bind]
  | ok b => simp [bind, Except.bind]

theorem map_eq_ok {ε β γ : Type} {x : Except ε β} {f : β → γ} {c : γ} :
    x.map f = .ok c ↔ ∃ b, x = .ok b ∧ f b = c := by
  constructor
  · intro h
    cases x with
    | error e => cases h
    | ok b => exact ⟨b, rfl, Except.ok.inj h⟩
  · rintro ⟨b, rfl, rfl⟩
    rfl

theorem map_eq_error {ε β γ : Type} {x : Except ε β} {f : β → γ} {e : ε} :
    x.map f = .error e ↔ x = .error e := by
  cases x with
  | error e' => simp [Except.map]
  | ok b => simp [Except.map]

theorem exists_mem_of_mapM_ok {ε β γ : Type} {f : β → Except ε γ} {l : List β} {out : List γ}
    (h : l.mapM f = .ok out) : ∀ c ∈ out, ∃ b ∈ l, f b = .ok c := by
  induction l generalizing out with
  | nil =>
    cases h
    exact fun c hc => absurd hc List.not_mem_nil
  | cons b l ih =>
    rw [List.mapM_cons] at h
    obtain ⟨c, hc, h⟩ := bind_eq_ok.mp h
    obtain ⟨rest, hrest, h⟩ := bind_eq_ok.mp h
    cases h
    intro x hx
    rcases List.mem_cons.mp hx with rfl | hx
    · exact ⟨b, List.mem_cons_self, hc⟩
    · obtain ⟨b', hb', made⟩ := ih hrest x hx
      exact ⟨b', List.mem_cons_of_mem b hb', made⟩

theorem exists_of_mapM_error {ε β γ : Type} {f : β → Except ε γ} {l : List β} {e : ε}
    (h : l.mapM f = .error e) : ∃ b ∈ l, f b = .error e := by
  induction l with
  | nil => cases h
  | cons b l ih =>
    rw [List.mapM_cons] at h
    rcases bind_eq_error.mp h with h | ⟨c, -, h⟩
    · exact ⟨b, List.mem_cons_self, h⟩
    · rcases bind_eq_error.mp h with h | ⟨rest, -, h⟩
      · obtain ⟨b', hb', h⟩ := ih h
        exact ⟨b', List.mem_cons_of_mem b hb', h⟩
      · cases h

theorem exists_of_mapM_ok {ε β γ : Type} {f : β → Except ε γ} {l : List β} {out : List γ}
    (h : l.mapM f = .ok out) : ∀ b ∈ l, ∃ c ∈ out, f b = .ok c := by
  induction l generalizing out with
  | nil => exact fun b hb => absurd hb List.not_mem_nil
  | cons b l ih =>
    rw [List.mapM_cons] at h
    obtain ⟨c, hc, h⟩ := bind_eq_ok.mp h
    obtain ⟨rest, hrest, h⟩ := bind_eq_ok.mp h
    cases h
    intro x hx
    rcases List.mem_cons.mp hx with rfl | hx
    · exact ⟨c, List.mem_cons_self, hc⟩
    · obtain ⟨c', hc', hx⟩ := ih hrest x hx
      exact ⟨c', List.mem_cons_of_mem c hc', hx⟩

theorem mapM_eq_ok_iff {ε β γ : Type} {f : β → Except ε γ} {l : List β} {out : List γ} :
    l.mapM f = .ok out ↔ List.Forall₂ (fun b c => f b = .ok c) l out := by
  induction l generalizing out with
  | nil =>
    rw [List.mapM_nil, List.forall₂_nil_left_iff]
    exact ⟨fun h => (Except.ok.inj h).symm, fun h => congrArg Except.ok h.symm⟩
  | cons b l ih =>
    rw [List.mapM_cons, bind_eq_ok, List.forall₂_cons_left_iff]
    simp only [bind_eq_ok, ih]
    constructor
    · rintro ⟨c, hc, rest, hrest, h⟩
      exact ⟨c, rest, hc, hrest, (Except.ok.inj h).symm⟩
    · rintro ⟨c, rest, hc, hrest, rfl⟩
      exact ⟨c, hc, rest, hrest, rfl⟩

theorem exists_mapM_eq_ok {ε β γ : Type} {f : β → Except ε γ} {relates : β → γ → Prop} {l : List β}
    (h : ∀ b ∈ l, ∃ c, f b = .ok c ∧ relates b c) :
    ∃ out, l.mapM f = .ok out ∧ List.Forall₂ relates l out := by
  induction l with
  | nil => exact ⟨[], rfl, .nil⟩
  | cons b l ih =>
    obtain ⟨c, hc, related⟩ := h b List.mem_cons_self
    obtain ⟨out, hout, rest⟩ := ih fun x hx => h x (List.mem_cons_of_mem b hx)
    refine ⟨c :: out, ?_, .cons related rest⟩
    rw [List.mapM_cons, hc, hout]
    rfl

theorem lookup_isSome_iff {β γ : Type} [BEq β] [LawfulBEq β] {l : List (β × γ)} {k : β} :
    (l.lookup k).isSome = true ↔ k ∈ l.map (·.1) := by
  rw [Option.isSome_iff_ne_none, ne_eq, List.lookup_eq_none_iff, List.mem_map]
  constructor
  · intro found
    by_contra absent
    exact found fun entry hentry => bne_iff_ne.mpr fun same => absent ⟨entry, hentry, same.symm⟩
  · rintro ⟨entry, hentry, rfl⟩ absent
    exact bne_iff_ne.mp (absent entry hentry) rfl

namespace Series

variable {α : Type}

theorem empty_increasing : Increasing (#[] : Series α) := List.Pairwise.nil

theorem Increasing.filter {s : Series α} (h : s.Increasing) (p : Bar α → Bool) :
    Increasing (Array.filter p s) := by
  unfold Increasing
  rw [Array.toList_filter]
  exact List.Pairwise.filter p h

theorem Increasing.push {s : Series α} (h : s.Increasing) {last b : Bar α} (hl : s.back? = some last)
    (hb : last.time < b.time) : Increasing (Array.push s b) := by
  unfold Increasing at h ⊢
  have hs : s.toList = s.toList.dropLast ++ [last] :=
    (List.dropLast_append_getLast? last (by rwa [Array.getLast?_toList])).symm
  have hlast : ∀ a ∈ s.toList.dropLast, a.time < last.time := by
    rw [hs] at h
    exact fun a ha => (List.pairwise_append.mp h).2.2 a ha last List.mem_cons_self
  rw [Array.toList_push]
  refine List.pairwise_append.mpr ⟨h, List.pairwise_singleton _ _, fun a ha x hx => ?_⟩
  obtain rfl := List.mem_singleton.mp hx
  rw [hs] at ha
  rcases List.mem_append.mp ha with ha | ha
  · exact Int.lt_trans (hlast a ha) hb
  · obtain rfl := List.mem_singleton.mp ha
    exact hb

theorem increasing_of_firstUnordered? {s : Series α} (h : s.firstUnordered? = none) :
    s.Increasing := by
  have trans : IsTrans (Bar α) fun a b => a.time < b.time := ⟨fun a b c => Int.lt_trans⟩
  refine List.isChain_iff_pairwise.mp (List.isChain_iff_getElem.mpr fun i hi => ?_)
  have hlt : i + 1 < s.size := hi
  have hnot := List.find?_eq_none.mp h i (List.mem_range.mpr (by omega))
  simp only [timeAt?, Array.getElem?_eq_getElem hlt,
    Array.getElem?_eq_getElem (by omega : i < s.size), Option.map_some,
    decide_eq_true_eq, Int.not_le] at hnot
  simpa using hnot

theorem aligned_increasing {all : List (Series α)} (h : ∀ s ∈ all, s.Increasing) :
    ∀ s ∈ aligned all, s.Increasing := by
  unfold aligned
  split
  next => exact h
  next => exact h
  next =>
    intro s hs
    obtain ⟨whole, hwhole, rfl⟩ := List.mem_map.mp hs
    exact (h whole hwhole).filter _

theorem aligned_length (all : List (Series α)) : (aligned all).length = all.length := by
  unfold aligned
  split
  next => rfl
  next => rfl
  next => exact List.length_map _

end Series

namespace History

theorem orderFault?_increasing {α : Type} {s : Series α} {label : String}
    (h : orderFault? s label = none) : s.Increasing :=
  Series.increasing_of_firstUnordered? (Option.map_eq_none_iff.mp h)

theorem append_increasing {path : String} {row : Nat} {s out : Series Float} {b : Bar Float}
    (hs : s.Increasing) (h : append path row s b = .ok out) : out.Increasing := by
  unfold append at h
  split at h
  next hback =>
    cases h
    rw [Array.back?_eq_none_iff.mp hback]
    exact List.pairwise_singleton _ _
  next last hback =>
    split at h
    next => cases h; exact hs
    next hne =>
      split at h
      next => cases h
      next hge =>
        cases h
        exact hs.push hback (by omega)

theorem readRows_increasing {path : String} {rows : List (List (List UInt8))} {row : Nat}
    {s out : Series Float} (hs : s.Increasing) (h : readRows path row s rows = .ok out) :
    out.Increasing := by
  induction rows generalizing row s with
  | nil => cases h; exact hs
  | cons fields rows ih =>
    unfold readRows at h
    split at h
    next =>
      obtain ⟨b, -, h⟩ := bind_eq_ok.mp h
      obtain ⟨s', hs', h⟩ := bind_eq_ok.mp h
      exact ih (append_increasing hs hs') h
    next => cases h

theorem load_increasing {t : FileTree} {path : String} {s : Series Float}
    (h : load t path = .ok s) : s.Increasing := by
  unfold load at h
  split at h
  next => cases h
  next => exact readRows_increasing Series.empty_increasing h

end History
end Backtest
