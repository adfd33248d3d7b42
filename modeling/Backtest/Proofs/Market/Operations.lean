import Backtest.Proofs.Market.Reach

namespace Backtest
namespace Market

section Forget

variable {α : Type} [Arith α] {m m' : Market α}

theorem Sound.forget (h : m.Sound) : m.forget.Sound :=
  ⟨h.histories, h.conversions, fun _ _ _ hl => by cases hl⟩

theorem remember_forget (m : Market α) (symbol : String) (timeframe : Nat) :
    (m.remember symbol timeframe).forget = m.forget := by
  unfold remember
  split
  next => rfl
  next =>
    split
    next =>
      split
      next => rfl
      next => rfl
    next => rfl

theorem Sound.resample_eq (h : m.Sound) {symbol : String} {base : Series α}
    (hb : m.history? symbol = some base) (timeframe : Nat) :
    m.resample symbol base timeframe =
      if timeframe = m.baseTimeframe then .ok base else base.resample m.baseTimeframe timeframe := by
  unfold Market.resample
  split
  next => rfl
  next =>
    split
    next s hl =>
      obtain ⟨base', hb', hr⟩ := h.resampled symbol timeframe s hl
      obtain rfl := Option.some.inj (hb.symm.trans hb')
      exact hr.symm
    next => rfl

theorem Sound.buildBuffer_forget (h : m.Sound) (symbol : String) (timeframe digits slot : Nat)
    (r : Requirement) :
    m.buildBuffer symbol timeframe digits slot r =
      m.forget.buildBuffer symbol timeframe digits slot r := by
  have histories : m.forget.history? (r.symbolFor symbol) = m.history? (r.symbolFor symbol) := rfl
  have base : m.forget.baseTimeframe = m.baseTimeframe := rfl
  have path : m.forget.historyPath (r.symbolFor symbol) = m.historyPath (r.symbolFor symbol) := rfl
  unfold Market.buildBuffer
  dsimp only
  rw [histories, base, path]
  cases hbase : m.history? (r.symbolFor symbol) with
  | none => rfl
  | some series =>
    have same : m.resample (r.symbolFor symbol) series (r.timeframeFor timeframe) =
        m.forget.resample (r.symbolFor symbol) series (r.timeframeFor timeframe) :=
      (h.resample_eq hbase _).trans (h.forget.resample_eq hbase _).symm
    simp only [same]

theorem buildBuffers_forget (symbol : String) (timeframe digits : Nat)
    (requirements : List (Requirement × Nat)) (m : Market α) :
    (m.buildBuffers symbol timeframe digits requirements).1.forget = m.forget := by
  induction requirements generalizing m with
  | nil => rfl
  | cons r requirements ih =>
    obtain ⟨r, slot⟩ := r
    have kept := m.remember_forget (r.symbolFor symbol) (r.timeframeFor timeframe)
    unfold buildBuffers
    dsimp only
    split
    next => exact kept
    next => exact (ih _).trans kept

/-- Markets that differ in what they remember only give the same buffers. -/
theorem Sound.buildBuffers_eq (symbol : String) (timeframe digits : Nat)
    (requirements : List (Requirement × Nat)) (h : m.Sound) (h' : m'.Sound)
    (same : m.forget = m'.forget) :
    (m.buildBuffers symbol timeframe digits requirements).2 =
      (m'.buildBuffers symbol timeframe digits requirements).2 := by
  induction requirements generalizing m m' with
  | nil => rfl
  | cons r requirements ih =>
    obtain ⟨r, slot⟩ := r
    have kept := m.remember_forget (r.symbolFor symbol) (r.timeframeFor timeframe)
    have kept' := m'.remember_forget (r.symbolFor symbol) (r.timeframeFor timeframe)
    have sound := remember_sound h (r.symbolFor symbol) (r.timeframeFor timeframe)
    have sound' := remember_sound h' (r.symbolFor symbol) (r.timeframeFor timeframe)
    unfold buildBuffers
    dsimp only
    generalize m.remember (r.symbolFor symbol) (r.timeframeFor timeframe) = next at kept sound ⊢
    generalize m'.remember (r.symbolFor symbol) (r.timeframeFor timeframe) = next' at kept' sound' ⊢
    have agree : next.forget = next'.forget := (kept.trans same).trans kept'.symm
    have first : next.buildBuffer symbol timeframe digits slot r =
        next'.buildBuffer symbol timeframe digits slot r := by
      rw [sound.buildBuffer_forget, sound'.buildBuffer_forget, agree]
    rw [first]
    split
    next => rfl
    next b _ => exact congrArg (Except.map (b :: ·)) (ih sound sound' agree)

theorem Sound.buildView_forget (h : m.Sound) (symbol : String) (timeframe : Nat)
    (requirements : List Requirement) (digits : Nat) (currency : String) :
    (m.buildView symbol timeframe requirements digits currency).2 =
      (m.forget.buildView symbol timeframe requirements digits currency).2 := by
  have histories : m.forget.history? symbol = m.history? symbol := rfl
  have path : m.forget.historyPath symbol = m.historyPath symbol := rfl
  unfold buildView
  rw [histories, path]
  split
  next => rfl
  next =>
    split
    next => rfl
    next primary _ =>
      have built := h.buildBuffers_eq symbol timeframe digits requirements.zipIdx h.forget rfl
      have after := buildBuffers_forget symbol timeframe digits requirements.zipIdx m
      have after' := buildBuffers_forget symbol timeframe digits requirements.zipIdx m.forget
      -- what is assembled looks at the histories only
      have assembles (out : Market α) : out.assemble symbol currency primary =
          out.forget.assemble symbol currency primary := rfl
      dsimp only
      rw [built, assembles, after, assembles (m.forget.buildBuffers ..).1, after']
      rfl

end Forget

/-- What is done to the histories of a run. A load reads the files as they are at that moment. -/
inductive Operation where
  | load (t : FileTree) (symbols : List String)
  | insert (symbol : String) (s : Series Float)
  | align
  | loadConversions (t : FileTree) (currency : String) (traded : List String)
  | setUp (symbol : String) (timeframe : Nat) (requirements : List Requirement) (digits : Nat)
      (currency : String)

def perform (m : Market Float) : Operation → Market Float × Option (Fault Float)
  | .load t symbols =>
    match m.load t symbols with
    | .ok m => (m, none)
    | .error f => (m, some f)
  | .insert symbol s =>
    match m.insert symbol s with
    | .ok m => (m, none)
    | .error f => (m, some f)
  | .align => (m.align, none)
  | .loadConversions t currency traded => m.loadConversions t currency traded
  | .setUp symbol timeframe requirements digits currency =>
    match m.buildView symbol timeframe requirements digits currency with
    | (m, .ok _) => (m, none)
    | (m, .error f) => (m, some f)

def performAll (m : Market Float) (operations : List Operation) : Market Float :=
  operations.foldl (fun m o => (m.perform o).1) m

theorem Reached.perform {m : Market Float} (h : m.Reached) (o : Operation) :
    (m.perform o).1.Reached := by
  cases o with
  | load t symbols =>
    unfold Market.perform
    dsimp only
    split
    next hm => exact h.load hm
    next => exact h
  | insert symbol s =>
    unfold Market.perform
    dsimp only
    split
    next hm => exact h.insert hm
    next => exact h
  | align => exact h.align
  | loadConversions t currency traded => exact h.loadConversions t currency traded
  | setUp symbol timeframe requirements digits currency =>
    have built := h.buildView symbol timeframe requirements digits currency
    unfold Market.perform
    dsimp only
    split
    next hm =>
      rw [hm] at built
      exact built
    next hm =>
      rw [hm] at built
      exact built

theorem Reached.performAll {m : Market Float} (h : m.Reached) (operations : List Operation) :
    (m.performAll operations).Reached := by
  induction operations generalizing m with
  | nil => exact h
  | cons o operations ih => exact ih (h.perform o)

/-- A load or an insertion that fails leaves everything as it was. -/
theorem perform_of_fault {m : Market Float} {o : Operation} {f : Fault Float}
    (replaces : (∃ t symbols, o = .load t symbols) ∨ ∃ symbol s, o = .insert symbol s)
    (h : (m.perform o).2 = some f) : (m.perform o).1 = m := by
  revert h
  rcases replaces with ⟨t, symbols, rfl⟩ | ⟨symbol, s, rfl⟩
  all_goals
    unfold perform
    dsimp only
    split
    next => exact fun h => nomatch h
    next => exact fun _ => rfl

/-- After any operations on an empty market, failed ones included, every history is in order, every
resampled one that is remembered is what resampling its history gives now, and an instance is set up as if
none were remembered. A load or an insertion that fails from there changes no history. -/
theorem performAll_in_order (directory : String) (baseTimeframe : Nat) (operations : List Operation) :
    let m := (empty directory baseTimeframe).performAll operations
    (∀ entry ∈ m.histories, entry.2.Increasing) ∧
    (∀ entry ∈ m.conversions, entry.2.Increasing) ∧
    (∀ symbol timeframe s, m.resampled.lookup (symbol, timeframe) = some s →
      ∃ base, m.history? symbol = some base ∧ base.resample m.baseTimeframe timeframe = .ok s) ∧
    (∀ symbol timeframe requirements digits currency,
      (m.buildView symbol timeframe requirements digits currency).2 =
        (m.forget.buildView symbol timeframe requirements digits currency).2) ∧
    ∀ o f, ((∃ t symbols, o = .load t symbols) ∨ ∃ symbol s, o = .insert symbol s) →
      (m.perform o).2 = some f → (m.perform o).1.histories = m.histories := by
  intro m
  have sound : m.Sound := ((Reached.empty directory baseTimeframe).performAll operations).sound
  refine ⟨sound.histories, sound.conversions, sound.resampled, sound.buildView_forget, ?_⟩
  intro o f replaces fault
  exact congrArg histories (perform_of_fault replaces fault)

/-- What was resampled is remembered until its history is replaced. -/
example :
    let minutes : Series Float := #[⟨0, 1, 1, 1, 1, 0, 0, 0⟩, ⟨60, 1, 1, 1, 1, 0, 0, 0⟩]
    let setUp := (empty "" 1).performAll
      [.insert "EURUSD" minutes, .setUp "EURUSD" 1 [⟨"D", 2, 1⟩] 5 "USD", .align]
    setUp.resampled.map (·.1) = [("EURUSD", 2)] ∧
      (setUp.perform (.insert "EURUSD" minutes)).1.resampled.isEmpty = true := by
  decide +kernel

end Market
end Backtest
