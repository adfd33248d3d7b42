import Backtest.Proofs.Market.Reach

namespace Backtest

namespace History

theorem readColumn_category {path : String} {row i : Nat} {fields : List String} {f : Fault Float}
    (h : readColumn path row fields i = .error f) : f.category = .data := by
  unfold readColumn at h
  split at h
  next => cases h
  next =>
    split at h
    next => cases h
    next =>
      cases h
      rfl

theorem readRow_category {path : String} {row : Nat} {fields : List String} {f : Fault Float}
    (h : readRow path row fields = .error f) : f.category = .data := by
  unfold readRow at h
  split at h
  next =>
    cases h
    rfl
  next =>
    dsimp only at h
    split at h
    next =>
      repeat
        rcases bind_eq_error.mp h with h | ⟨_, -, h⟩
        · exact readColumn_category h
      cases h
    next =>
      cases h
      rfl

theorem readRows_category {path : String} {row : Nat} {s : Series Float}
    {rows : List (List (List UInt8))} {f : Fault Float} (h : readRows path row s rows = .error f) :
    f.category = .data := by
  induction rows generalizing row s with
  | nil => cases h
  | cons fields rows ih =>
    unfold readRows at h
    split at h
    next =>
      rcases bind_eq_error.mp h with h | ⟨bar, -, h⟩
      · exact readRow_category h
      · rcases bind_eq_error.mp h with h | ⟨s', -, h⟩
        · unfold append at h
          split at h
          next => cases h
          next =>
            split at h
            next => cases h
            next =>
              split at h
              next =>
                cases h
                rfl
              next => cases h
        · exact ih h
    next =>
      cases h
      rfl

theorem load_category {t : FileTree} {path : String} {f : Fault Float} (h : load t path = .error f) :
    f.category = .data := by
  unfold load at h
  split at h
  next =>
    cases h
    rfl
  next => exact readRows_category h

end History

namespace Market

section Load

variable {m m' : Market Float} {t : FileTree}

theorem load_category {symbols : List String} {f : Fault Float} (h : m.load t symbols = .error f) :
    f.category = .data := by
  rcases bind_eq_error.mp h with h | ⟨loaded, -, h⟩
  · obtain ⟨symbol, -, h⟩ := exists_of_mapM_error h
    rcases bind_eq_error.mp h with h | ⟨s, -, h⟩
    · exact History.load_category h
    · cases h
  · cases h

theorem loadConversionList_category {symbols : List String} {f : Fault Float}
    (h : (m.loadConversionList t symbols).2 = some f) : f.category = .data := by
  induction symbols generalizing m with
  | nil => cases h
  | cons symbol symbols ih =>
    unfold loadConversionList at h
    split at h
    next => exact ih h
    next hfault =>
      cases h
      unfold loadConversion at hfault
      dsimp only at hfault
      split at hfault
      next => cases hfault
      next =>
        rcases bind_eq_error.mp hfault with hfault | ⟨s, -, hfault⟩
        · exact History.load_category hfault
        · cases hfault

/-- Loading conversion histories fails on the data, or on a symbol that breaks where it is cut. -/
theorem loadConversions_category {currency : String} {symbols : List String} {f : Fault Float}
    (h : (m.loadConversions t currency symbols).2 = some f) :
    f.category = .data ∨ ∃ symbol ∈ symbols, conversionsOf symbol currency = .error f := by
  induction symbols generalizing m with
  | nil => cases h
  | cons symbol symbols ih =>
    unfold loadConversions at h
    split at h
    next hbroken =>
      cases h
      exact .inr ⟨symbol, List.mem_cons_self, hbroken⟩
    next legs _ =>
      have listed : (m.loadConversionList t (legs.map (·.2))).2 = some f → f.category = .data :=
        loadConversionList_category
      split at h
      next hlist =>
        rcases ih h with data | ⟨other, hother, broken⟩
        · exact .inl data
        · exact .inr ⟨other, List.mem_cons_of_mem symbol hother, broken⟩
      next hlist =>
        rw [hlist] at listed
        exact .inl (listed h)

theorem loadConversionList_histories (m : Market Float) (symbols : List String) :
    (m.loadConversionList t symbols).1.histories = m.histories ∧
      (m.loadConversionList t symbols).1.baseTimeframe = m.baseTimeframe := by
  induction symbols generalizing m with
  | nil => exact ⟨rfl, rfl⟩
  | cons symbol symbols ih =>
    unfold loadConversionList
    split
    next m' hm =>
      have same : m'.histories = m.histories ∧ m'.baseTimeframe = m.baseTimeframe := by
        unfold loadConversion at hm
        dsimp only at hm
        split at hm
        next =>
          cases hm
          exact ⟨rfl, rfl⟩
        next =>
          obtain ⟨s, -, hm⟩ := bind_eq_ok.mp hm
          cases hm
          exact ⟨rfl, rfl⟩
      exact ⟨(ih m').1.trans same.1, (ih m').2.trans same.2⟩
    next => exact ⟨rfl, rfl⟩

theorem loadConversions_histories {currency : String} {symbols : List String} :
    (m.loadConversions t currency symbols).1.histories = m.histories ∧
      (m.loadConversions t currency symbols).1.baseTimeframe = m.baseTimeframe := by
  induction symbols generalizing m with
  | nil => exact ⟨rfl, rfl⟩
  | cons symbol symbols ih =>
    unfold loadConversions
    split
    next => exact ⟨rfl, rfl⟩
    next legs _ =>
      have listed := loadConversionList_histories (t := t) m (legs.map (·.2))
      split
      next hlist =>
        rw [hlist] at listed
        exact ⟨ih.1.trans listed.1, ih.2.trans listed.2⟩
      next hlist =>
        rw [hlist] at listed
        exact listed

end Load

section Held

variable {α : Type} {m : Market α}

/-- A market holds the history of a symbol. -/
def Holds (m : Market α) (symbol : String) : Prop := symbol ∈ m.histories.map (·.1)

theorem holds_iff {symbol : String} : m.Holds symbol ↔ ∃ s, m.history? symbol = some s := by
  rw [← Option.isSome_iff_exists]
  exact lookup_isSome_iff.symm

theorem enter_holds {symbol other : String} {s : Series α} :
    (m.enter symbol s).Holds other ↔ other = symbol ∨ m.Holds other := by
  unfold enter Holds
  split
  next hany =>
    have keys : (m.histories.map fun h => if h.1 == symbol then (symbol, s) else h).map (·.1) =
        m.histories.map (·.1) := by
      rw [List.map_map]
      refine List.map_congr_left fun entry _ => ?_
      rw [Function.comp_apply]
      split
      next heq => exact (beq_iff_eq.mp heq).symm
      next => rfl
    rw [keys]
    refine ⟨.inr, ?_⟩
    rintro (rfl | held)
    · obtain ⟨entry, hentry, heq⟩ := List.any_eq_true.mp hany
      exact List.mem_map.mpr ⟨entry, hentry, beq_iff_eq.mp heq⟩
    · exact held
  next =>
    rw [List.map_append, List.mem_append, or_comm]
    exact or_congr List.mem_singleton Iff.rfl

theorem align_holds {symbol : String} : m.align.Holds symbol ↔ m.Holds symbol := by
  have length : (m.histories.map (·.1)).length = (Series.aligned (m.histories.map (·.2))).length := by
    rw [Series.aligned_length, List.length_map, List.length_map]
  unfold align
  split
  next => exact Iff.rfl
  next =>
    unfold Holds
    rw [List.map_fst_zip (Nat.le_of_eq length)]

theorem foldl_enter_holds {loaded : List (String × Series α)} {symbol : String} :
    (loaded.foldl (fun m h => m.enter h.1 h.2) m).Holds symbol ↔
      symbol ∈ loaded.map (·.1) ∨ m.Holds symbol := by
  induction loaded generalizing m with
  | nil => simp
  | cons entry loaded ih =>
    rw [List.foldl_cons, ih, enter_holds, List.map_cons, List.mem_cons, or_left_comm, or_assoc]

theorem load_holds {m m' : Market Float} {t : FileTree} {symbols : List String}
    (h : m.load t symbols = .ok m') :
    m'.baseTimeframe = m.baseTimeframe ∧ ∀ symbol ∈ symbols, m'.Holds symbol := by
  unfold load at h
  obtain ⟨loaded, hloaded, h⟩ := bind_eq_ok.mp h
  cases h
  refine ⟨(align_frame _).1.trans (foldl_enter_frame loaded m).1, fun symbol hsymbol => ?_⟩
  rw [align_holds, foldl_enter_holds]
  by_cases held : m.Holds symbol
  · exact .inr held
  · have absent : m.history? symbol = none := by
      rw [← Option.not_isSome_iff_eq_none]
      exact fun some => held (lookup_isSome_iff.mp some)
    have missing : symbol ∈ m.missing symbols := mem_missing.mpr ⟨hsymbol, absent⟩
    obtain ⟨entry, hentry, made⟩ := exists_of_mapM_ok hloaded symbol missing
    obtain ⟨s, -, made⟩ := bind_eq_ok.mp made
    cases made
    exact .inl (List.mem_map_of_mem hentry)

end Held

section SetUp

variable {α : Type} [Arith α] {m : Market α}

theorem buildBuffers_same (symbol : String) (timeframe digits : Nat)
    (requirements : List (Requirement × Nat)) (m : Market α) :
    m.SameHistories (m.buildBuffers symbol timeframe digits requirements).1 := by
  induction requirements generalizing m with
  | nil => exact .refl m
  | cons r requirements ih =>
    obtain ⟨r, slot⟩ := r
    have same := m.remember_same (r.symbolFor symbol) (r.timeframeFor timeframe)
    unfold buildBuffers
    dsimp only
    split
    next => exact same
    next => exact same.trans (ih _)

/-- Setting up an instance changes no history. -/
theorem buildView_same (m : Market α) (symbol : String) (timeframe : Nat)
    (requirements : List Requirement) (digits : Nat) (currency : String) :
    m.SameHistories (m.buildView symbol timeframe requirements digits currency).1 := by
  unfold buildView
  split
  next => exact .refl m
  next =>
    split
    next => exact .refl m
    next => exact buildBuffers_same symbol timeframe digits requirements.zipIdx m

/-- A requirement that a market can serve, if it has enough bars. -/
def Serves (m : Market α) (symbol : String) (timeframe : Nat) (r : Requirement) : Prop :=
  m.baseTimeframe ≤ r.timeframeFor timeframe ∧ m.Holds (r.symbolFor symbol)

omit [Arith α] in
theorem Serves.of_same {m' : Market α} (h : m.SameHistories m') {symbol : String} {timeframe : Nat}
    {r : Requirement} (serves : m.Serves symbol timeframe r) : m'.Serves symbol timeframe r := by
  unfold Serves Holds at serves ⊢
  rwa [h.histories, h.baseTimeframe]

def Short (f : Fault α) : Prop := ∃ symbol required available, f = .tooFewBars symbol required available

theorem buildBuffer_short (based : m.baseTimeframe ≠ 0) {symbol : String} {timeframe digits slot : Nat}
    {r : Requirement} (serves : m.Serves symbol timeframe r) {f : Fault α}
    (h : m.buildBuffer symbol timeframe digits slot r = .error f) : Short f := by
  obtain ⟨above, held⟩ := serves
  obtain ⟨base, hbase⟩ := holds_iff.mp held
  unfold buildBuffer at h
  dsimp only at h
  rw [if_neg (Nat.not_lt.mpr above), hbase] at h
  dsimp only at h
  rcases bind_eq_error.mp h with h | ⟨series, -, h⟩
  · unfold Market.resample at h
    split at h
    next => cases h
    next =>
      split at h
      next => cases h
      next =>
        unfold Series.resample at h
        rw [if_neg (by simpa using ⟨above, based⟩)] at h
        split at h <;> cases h
  · split at h
    next =>
      cases h
      exact ⟨_, _, _, rfl⟩
    next => cases h

theorem buildBuffers_short (based : m.baseTimeframe ≠ 0) {symbol : String} {timeframe digits : Nat}
    {requirements : List (Requirement × Nat)}
    (serves : ∀ r ∈ requirements, m.Serves symbol timeframe r.1) {f : Fault α}
    (h : (m.buildBuffers symbol timeframe digits requirements).2 = .error f) : Short f := by
  induction requirements generalizing m with
  | nil => cases h
  | cons r requirements ih =>
    obtain ⟨r, slot⟩ := r
    have same := m.remember_same (r.symbolFor symbol) (r.timeframeFor timeframe)
    have served : ∀ x ∈ (r, slot) :: requirements,
        (m.remember (r.symbolFor symbol) (r.timeframeFor timeframe)).Serves symbol timeframe x.1 :=
      fun x hx => (serves x hx).of_same same
    have based' : (m.remember (r.symbolFor symbol) (r.timeframeFor timeframe)).baseTimeframe ≠ 0 :=
      same.baseTimeframe.symm ▸ based
    unfold buildBuffers at h
    dsimp only at h
    split at h
    next hfault =>
      cases h
      exact buildBuffer_short based' (served _ List.mem_cons_self) hfault
    next b _ =>
      exact ih based' (fun x hx => served x (List.mem_cons_of_mem _ hx)) (map_eq_error.mp h)

/-- An instance can be set up on a market that holds its histories, unless one of them is too short. -/
theorem buildView_short (based : m.baseTimeframe ≠ 0) {symbol currency : String} {timeframe digits : Nat}
    {requirements : List Requirement} (count : requirements.length ≤ maxBuffers)
    (held : m.Holds symbol) (serves : ∀ r ∈ requirements, m.Serves symbol timeframe r)
    {legs : List (ConversionRoute × String)} (whole : conversionsOf (α := α) symbol currency = .ok legs)
    {f : Fault α} (h : (m.buildView symbol timeframe requirements digits currency).2 = .error f) :
    Short f := by
  obtain ⟨primary, hprimary⟩ := holds_iff.mp held
  unfold buildView at h
  rw [if_neg (Nat.not_lt.mpr count), hprimary] at h
  dsimp only at h
  rcases bind_eq_error.mp h with h | ⟨buffers, -, h⟩
  · exact buildBuffers_short based (fun r hr => serves r.1 (List.fst_mem_of_mem_zipIdx hr)) h
  · unfold assemble at h
    rcases bind_eq_error.mp h with h | ⟨pair, -, h⟩
    · obtain ⟨pair, hpair, -⟩ := bind_eq_ok.mp whole
      rw [hpair] at h
      cases h
    · cases h

end SetUp

end Market
end Backtest
