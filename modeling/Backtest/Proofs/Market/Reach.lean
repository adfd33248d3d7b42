import Backtest.Arith.Double
import Backtest.Market.Basic
import Backtest.Proofs.History.Increasing

namespace Backtest
namespace Market

variable {α : Type}

theorem mem_of_lookup {β γ : Type} [BEq β] [LawfulBEq β] {l : List (β × γ)} {k : β} {v : γ}
    (h : l.lookup k = some v) : (k, v) ∈ l := by
  obtain ⟨before, after, rfl, -⟩ := List.lookup_eq_some_iff.mp h
  simp

/-- Two markets with the same histories, whatever they remember of resampled ones. -/
structure SameHistories (m m' : Market α) : Prop where
  histories : m'.histories = m.histories
  conversions : m'.conversions = m.conversions
  baseTimeframe : m'.baseTimeframe = m.baseTimeframe

theorem SameHistories.refl (m : Market α) : m.SameHistories m := ⟨rfl, rfl, rfl⟩

theorem SameHistories.trans {m m' m'' : Market α} (h : m.SameHistories m')
    (h' : m'.SameHistories m'') : m.SameHistories m'' :=
  ⟨h'.histories.trans h.histories, h'.conversions.trans h.conversions,
    h'.baseTimeframe.trans h.baseTimeframe⟩

theorem SameHistories.history? {m m' : Market α} (h : m.SameHistories m') (symbol : String) :
    m'.history? symbol = m.history? symbol := by
  unfold Market.history?
  rw [h.histories]

variable [Arith α]

/-- Histories in order, and no stale resampled ones. -/
structure Sound (m : Market α) : Prop where
  histories : ∀ entry ∈ m.histories, entry.2.Increasing
  conversions : ∀ entry ∈ m.conversions, entry.2.Increasing
  resampled : ∀ symbol timeframe s, m.resampled.lookup (symbol, timeframe) = some s →
    ∃ base, m.history? symbol = some base ∧ base.resample m.baseTimeframe timeframe = .ok s

theorem Sound.history_increasing {m : Market α} (h : m.Sound) {symbol : String} {s : Series α}
    (hs : m.history? symbol = some s) : s.Increasing :=
  h.histories _ (mem_of_lookup hs)

theorem empty_sound (directory : String) (baseTimeframe : Nat) :
    (empty directory baseTimeframe : Market α).Sound :=
  ⟨by simp [empty], by simp [empty], by simp [empty]⟩

omit [Arith α] in
theorem mem_enter {m : Market α} {symbol : String} {s : Series α} {entry : String × Series α}
    (h : entry ∈ (m.enter symbol s).histories) : entry = (symbol, s) ∨ entry ∈ m.histories := by
  unfold enter at h
  split at h
  next =>
    obtain ⟨old, hold, rfl⟩ := List.mem_map.mp h
    split
    next => exact .inl rfl
    next => exact .inr hold
  next =>
    rcases List.mem_append.mp h with h | h
    · exact .inr h
    · exact .inl (List.mem_singleton.mp h)

omit [Arith α] in
theorem enter_frame (m : Market α) (symbol : String) (s : Series α) :
    (m.enter symbol s).conversions = m.conversions ∧
      (m.enter symbol s).resampled = m.resampled ∧
      (m.enter symbol s).baseTimeframe = m.baseTimeframe ∧
      (m.enter symbol s).directory = m.directory := by
  unfold enter
  split <;> exact ⟨rfl, rfl, rfl, rfl⟩

omit [Arith α] in
theorem foldl_enter_frame (loaded : List (String × Series α)) (m : Market α) :
    (loaded.foldl (fun m h => m.enter h.1 h.2) m).baseTimeframe = m.baseTimeframe ∧
      (loaded.foldl (fun m h => m.enter h.1 h.2) m).directory = m.directory := by
  induction loaded generalizing m with
  | nil => exact ⟨rfl, rfl⟩
  | cons entry loaded ih =>
    obtain ⟨-, -, base, directory⟩ := m.enter_frame entry.1 entry.2
    obtain ⟨base', directory'⟩ := ih (m.enter entry.1 entry.2)
    exact ⟨base'.trans base, directory'.trans directory⟩

omit [Arith α] in
theorem align_frame (m : Market α) :
    m.align.baseTimeframe = m.baseTimeframe ∧ m.align.directory = m.directory := by
  unfold align
  split <;> exact ⟨rfl, rfl⟩

omit [Arith α] in
theorem enter_history?_of_ne (m : Market α) {symbol other : String} (s : Series α)
    (h : other ≠ symbol) : (m.enter symbol s).history? other = m.history? other := by
  have unlike : (other == symbol) = false := beq_eq_false_iff_ne.mpr h
  unfold history? enter
  split
  next =>
    dsimp only
    generalize m.histories = entries
    induction entries with
    | nil => rfl
    | cons entry entries ih =>
      obtain ⟨key, old⟩ := entry
      by_cases same : key = symbol
      · subst same
        rw [List.map_cons, if_pos (beq_self_eq_true key), List.lookup_cons, List.lookup_cons, unlike]
        exact ih
      · rw [List.map_cons, if_neg (by simpa using same), List.lookup_cons, List.lookup_cons, ih]
  next =>
    dsimp only
    rw [List.lookup_append, List.lookup_cons, unlike, List.lookup_nil, Option.or_none]

omit [Arith α] in
theorem enter_increasing {m : Market α} (h : ∀ entry ∈ m.histories, entry.2.Increasing)
    (symbol : String) {s : Series α} (hs : s.Increasing) :
    ∀ entry ∈ (m.enter symbol s).histories, entry.2.Increasing := by
  intro entry he
  rcases mem_enter he with rfl | he
  · exact hs
  · exact h entry he

/-- A history may be entered as long as nothing resampled from an older one of its symbol is left. -/
theorem enter_sound {m : Market α} (h : m.Sound) {symbol : String} {s : Series α}
    (hs : s.Increasing) (fresh : ∀ timeframe, m.resampled.lookup (symbol, timeframe) = none) :
    (m.enter symbol s).Sound := by
  obtain ⟨conversions, resampled, base, -⟩ := m.enter_frame symbol s
  refine ⟨enter_increasing h.histories symbol hs, ?_, fun other timeframe t ht => ?_⟩
  · rw [conversions]
    exact h.conversions
  · rw [resampled] at ht
    have unlike : other ≠ symbol := by
      rintro rfl
      rw [fresh timeframe] at ht
      cases ht
    rw [m.enter_history?_of_ne s unlike, base]
    exact h.resampled other timeframe t ht

theorem put_sound {m : Market α} (h : m.Sound) {symbol : String} {s : Series α}
    (hs : s.Increasing) : (m.put symbol s).Sound := by
  refine ⟨enter_increasing h.histories symbol hs, ?_, fun _ _ _ hl => by cases hl⟩
  have conversions : (m.put symbol s).conversions = m.conversions := (m.enter_frame symbol s).1
  rw [conversions]
  exact h.conversions

theorem insert_sound {m m' : Market α} (h : m.Sound) {symbol : String} {s : Series α}
    (hm : m.insert symbol s = .ok m') : m'.Sound := by
  unfold insert at hm
  split at hm
  next => cases hm
  next hnone =>
    cases hm
    exact put_sound h (History.orderFault?_increasing hnone)

theorem align_sound {m : Market α} (h : m.Sound) : m.align.Sound := by
  unfold align
  split
  next => exact h
  next =>
    refine ⟨fun entry he => ?_, h.conversions, fun _ _ _ hl => by cases hl⟩
    refine Series.aligned_increasing (fun s hs => ?_) entry.2 (List.of_mem_zip he).2
    obtain ⟨old, hold, rfl⟩ := List.mem_map.mp hs
    exact h.histories old hold

theorem foldl_enter_sound {loaded : List (String × Series α)}
    (hl : ∀ entry ∈ loaded, entry.2.Increasing) {m : Market α} (h : m.Sound)
    (fresh : ∀ entry ∈ loaded, ∀ timeframe, m.resampled.lookup (entry.1, timeframe) = none) :
    (loaded.foldl (fun m h => m.enter h.1 h.2) m).Sound := by
  induction loaded generalizing m with
  | nil => exact h
  | cons entry loaded ih =>
    refine ih (fun x hx => hl x (List.mem_cons_of_mem entry hx))
      (enter_sound h (hl entry List.mem_cons_self) (fresh entry List.mem_cons_self)) ?_
    rw [(m.enter_frame entry.1 entry.2).2.1]
    exact fun x hx => fresh x (List.mem_cons_of_mem entry hx)

theorem Sound.forgotten {m : Market α} (h : m.Sound) {symbol : String}
    (absent : m.history? symbol = none) (timeframe : Nat) :
    m.resampled.lookup (symbol, timeframe) = none := by
  rw [Option.eq_none_iff_forall_ne_some]
  intro s hs
  obtain ⟨base, hbase, -⟩ := h.resampled symbol timeframe s hs
  rw [absent] at hbase
  cases hbase

omit [Arith α] in
theorem mem_missing {m : Market α} {symbols : List String} {symbol : String} :
    symbol ∈ m.missing symbols ↔ symbol ∈ symbols ∧ m.history? symbol = none := by
  unfold missing
  rw [List.mem_eraseDups, List.mem_filter, Option.isNone_iff_eq_none]

theorem mem_loaded {m : Market Float} {t : FileTree} {symbols : List String}
    {loaded : List (String × Series Float)}
    (h : (m.missing symbols).mapM (fun s => do return (s, ← History.load t (m.historyPath s))) =
      .ok loaded) {entry : String × Series Float} (he : entry ∈ loaded) :
    entry.1 ∈ m.missing symbols ∧ History.load t (m.historyPath entry.1) = .ok entry.2 := by
  obtain ⟨symbol, hsymbol, made⟩ := exists_mem_of_mapM_ok h entry he
  obtain ⟨s, hs, made⟩ := bind_eq_ok.mp made
  cases made
  exact ⟨hsymbol, hs⟩

theorem load_sound {m m' : Market Float} (h : m.Sound) {t : FileTree} {symbols : List String}
    (hm : m.load t symbols = .ok m') : m'.Sound := by
  unfold load at hm
  obtain ⟨loaded, hloaded, hm⟩ := bind_eq_ok.mp hm
  cases hm
  refine align_sound (foldl_enter_sound (fun entry he => ?_) h fun entry he => ?_)
  · exact History.load_increasing (mem_loaded hloaded he).2
  · exact h.forgotten (mem_missing.mp (mem_loaded hloaded he).1).2

theorem loadConversion_sound {m m' : Market Float} (h : m.Sound) {t : FileTree} {symbol : String}
    (hm : m.loadConversion t symbol = .ok m') : m'.Sound := by
  unfold loadConversion at hm
  dsimp only at hm
  split at hm
  next => cases hm; exact h
  next =>
    obtain ⟨s, hs, hm⟩ := bind_eq_ok.mp hm
    cases hm
    refine ⟨h.histories, fun entry he => ?_, h.resampled⟩
    rcases List.mem_append.mp he with he | he
    · exact h.conversions entry he
    · obtain rfl := List.mem_singleton.mp he
      exact History.load_increasing hs

theorem loadConversionList_sound {t : FileTree} {symbols : List String} {m : Market Float}
    (h : m.Sound) : (m.loadConversionList t symbols).1.Sound := by
  induction symbols generalizing m with
  | nil => exact h
  | cons symbol symbols ih =>
    unfold loadConversionList
    split
    next hm => exact ih (loadConversion_sound h hm)
    next => exact h

theorem loadConversions_sound {t : FileTree} {currency : String} {symbols : List String}
    {m : Market Float} (h : m.Sound) : (m.loadConversions t currency symbols).1.Sound := by
  induction symbols generalizing m with
  | nil => exact h
  | cons symbol symbols ih =>
    unfold loadConversions
    split
    next => exact h
    next legs _ =>
      have hlist : (m.loadConversionList t (legs.map (·.2))).1.Sound := loadConversionList_sound h
      split
      next hm => exact ih (by simpa only [hm] using hlist)
      next hm => simpa only [hm] using hlist

def OnTimeframe (m : Market α) (base : Series α) (timeframe : Nat) (s : Series α) : Prop :=
  (timeframe = m.baseTimeframe ∧ s = base) ∨
    (timeframe ≠ m.baseTimeframe ∧ base.resample m.baseTimeframe timeframe = .ok s)

theorem Sound.resample {m : Market α} (h : m.Sound) {symbol : String} {base s : Series α}
    (hb : m.history? symbol = some base) {timeframe : Nat}
    (hs : m.resample symbol base timeframe = .ok s) : m.OnTimeframe base timeframe s := by
  unfold Market.resample at hs
  split at hs
  next heq =>
    cases hs
    exact .inl ⟨heq, rfl⟩
  next hne =>
    split at hs
    next s' hl =>
      cases hs
      obtain ⟨base', hb', hr⟩ := h.resampled symbol timeframe s hl
      obtain rfl := Option.some.inj (hb.symm.trans hb')
      exact .inr ⟨hne, hr⟩
    next => exact .inr ⟨hne, hs⟩

theorem remember_same (m : Market α) (symbol : String) (timeframe : Nat) :
    m.SameHistories (m.remember symbol timeframe) := by
  unfold remember
  split
  next => exact .refl m
  next =>
    split
    next =>
      split
      next => exact .refl m
      next => exact ⟨rfl, rfl, rfl⟩
    next => exact .refl m

theorem remember_sound {m : Market α} (h : m.Sound) (symbol : String) (timeframe : Nat) :
    (m.remember symbol timeframe).Sound := by
  unfold remember
  split
  next => exact h
  next base hb =>
    split
    next s hs =>
      split
      next => exact h
      next hnew =>
        simp only [Bool.or_eq_true, decide_eq_true_eq, not_or] at hnew
        refine ⟨h.histories, h.conversions, fun symbol' timeframe' s' hl => ?_⟩
        rw [List.lookup_cons] at hl
        split at hl
        next hkey =>
          cases hl
          obtain ⟨rfl, rfl⟩ := Prod.mk.inj (beq_iff_eq.mp hkey)
          rcases h.resample hb hs with ⟨heq, -⟩ | ⟨-, hr⟩
          · exact absurd heq hnew.1
          · exact ⟨base, hb, hr⟩
        next => exact h.resampled symbol' timeframe' s' hl
    next => exact h

/-- The buffer that a requirement is given, from the histories alone. -/
def Buffers (m : Market α) (symbol : String) (timeframe digits : Nat) (r : Requirement × Nat)
    (b : BarBuffer α) : Prop :=
  ∃ base series, m.history? (r.1.symbolFor symbol) = some base ∧
    m.OnTimeframe base (r.1.timeframeFor timeframe) series ∧
    b = .ofSeries
      { slot := r.2
        required := r.1.timeframeFor timeframe
        actual := m.baseTimeframe
        bars := r.1.bars
        capacity := windowLength α r.1.bars (r.1.timeframeFor timeframe) m.baseTimeframe
        symbol := r.1.symbolFor symbol
        digits := digits
        point := 1 / Arith.intPow 10.0 ((digits : Int).bmod 4294967296) } base series

theorem Buffers.of_same {m m' : Market α} (h : m.SameHistories m') {symbol : String}
    {timeframe digits : Nat} {r : Requirement × Nat} {b : BarBuffer α}
    (hb : m'.Buffers symbol timeframe digits r b) : m.Buffers symbol timeframe digits r b := by
  unfold Buffers OnTimeframe at hb ⊢
  simpa only [h.history?, h.baseTimeframe] using hb

theorem Sound.buildBuffer {m : Market α} (h : m.Sound) {symbol : String}
    {timeframe digits slot : Nat} {r : Requirement} {b : BarBuffer α}
    (hb : m.buildBuffer symbol timeframe digits slot r = .ok b) :
    m.Buffers symbol timeframe digits (r, slot) b := by
  unfold Market.buildBuffer at hb
  dsimp only at hb
  split at hb
  next => cases hb
  next =>
    split at hb
    next base hbase =>
      obtain ⟨series, hseries, hb⟩ := bind_eq_ok.mp hb
      split at hb
      next => cases hb
      next =>
        cases hb
        exact ⟨base, series, hbase, h.resample hbase hseries, rfl⟩
    next => cases hb

theorem buildBuffers_spec (symbol : String) (timeframe digits : Nat)
    (requirements : List (Requirement × Nat)) {m : Market α} (h : m.Sound) :
    (m.buildBuffers symbol timeframe digits requirements).1.Sound ∧
      m.SameHistories (m.buildBuffers symbol timeframe digits requirements).1 ∧
      ∀ buffers, (m.buildBuffers symbol timeframe digits requirements).2 = .ok buffers →
        List.Forall₂ (m.Buffers symbol timeframe digits) requirements buffers := by
  induction requirements generalizing m with
  | nil => exact ⟨h, .refl m, fun buffers hb => by cases hb; exact .nil⟩
  | cons r requirements ih =>
    obtain ⟨r, slot⟩ := r
    have same := m.remember_same (r.symbolFor symbol) (r.timeframeFor timeframe)
    have sound := remember_sound h (r.symbolFor symbol) (r.timeframeFor timeframe)
    unfold buildBuffers
    dsimp only
    generalize m.remember (r.symbolFor symbol) (r.timeframeFor timeframe) = m' at same sound ⊢
    split
    next => exact ⟨sound, same, fun buffers hb => by cases hb⟩
    next b hb =>
      obtain ⟨sound', same', rest⟩ := ih sound
      refine ⟨sound', same.trans same', fun buffers hbuffers => ?_⟩
      obtain ⟨built, hbuilt, rfl⟩ := map_eq_ok.mp hbuffers
      refine .cons ((sound.buildBuffer hb).of_same same) ?_
      exact (rest built hbuilt).imp fun _ _ hx => hx.of_same same

def converting? (m : Market α) (symbol : String) : Option (Series α) :=
  (m.conversions.lookup symbol).or (m.history? symbol)

structure Views (m : Market α) (symbol : String) (timeframe : Nat) (requirements : List Requirement)
    (digits : Nat) (currency : String) (v : MarketView α) : Prop where
  traded : v.symbol = symbol
  account : v.accountCurrency = currency
  pair : (Pair.ofSymbol symbol : Except (Fault α) _) = .ok v.pair
  primary : m.history? symbol = some v.primary
  buffers : List.Forall₂ (m.Buffers symbol timeframe digits) requirements.zipIdx v.buffers
  conversions : v.conversions = m.conversionHistories (v.pair.elim [] (·.conversions currency))

theorem buildView_spec {m : Market α} (h : m.Sound) (symbol : String) (timeframe : Nat)
    (requirements : List Requirement) (digits : Nat) (currency : String) :
    (m.buildView symbol timeframe requirements digits currency).1.Sound ∧
      ∀ v, (m.buildView symbol timeframe requirements digits currency).2 = .ok v →
        m.Views symbol timeframe requirements digits currency v := by
  unfold buildView
  split
  next => exact ⟨h, fun v hv => by cases hv⟩
  next =>
    split
    next => exact ⟨h, fun v hv => by cases hv⟩
    next primary hprimary =>
      obtain ⟨sound, same, buffers⟩ :=
        buildBuffers_spec symbol timeframe digits requirements.zipIdx h
      refine ⟨sound, fun v hv => ?_⟩
      obtain ⟨built, hbuilt, hv⟩ := bind_eq_ok.mp hv
      obtain ⟨pair, hpair, hv⟩ := bind_eq_ok.mp hv
      cases hv
      refine ⟨rfl, rfl, hpair, hprimary, buffers built hbuilt, ?_⟩
      unfold conversionHistories
      simp only [same.conversions, same.history?]

/-- The markets that a run can set its instances up from. -/
inductive Reached : Market Float → Prop
  | empty (directory : String) (baseTimeframe : Nat) : Reached (.empty directory baseTimeframe)
  | insert {m m' : Market Float} {symbol : String} {s : Series Float} :
      Reached m → m.insert symbol s = .ok m' → Reached m'
  | align {m : Market Float} : Reached m → Reached m.align
  | load {m m' : Market Float} {t : FileTree} {symbols : List String} :
      Reached m → m.load t symbols = .ok m' → Reached m'
  | loadConversions {m : Market Float} (t : FileTree) (currency : String) (symbols : List String) :
      Reached m → Reached (m.loadConversions t currency symbols).1
  | buildView {m : Market Float} (symbol : String) (timeframe : Nat)
      (requirements : List Requirement) (digits : Nat) (currency : String) :
      Reached m → Reached (m.buildView symbol timeframe requirements digits currency).1

theorem Reached.sound {m : Market Float} (h : m.Reached) : m.Sound := by
  induction h with
  | empty directory baseTimeframe => exact empty_sound directory baseTimeframe
  | insert _ hm ih => exact insert_sound ih hm
  | align _ ih => exact align_sound ih
  | load _ hm ih => exact load_sound ih hm
  | loadConversions t currency symbols _ ih => exact loadConversions_sound ih
  | buildView symbol timeframe requirements digits currency _ ih =>
    exact (buildView_spec ih symbol timeframe requirements digits currency).1

end Market
end Backtest
