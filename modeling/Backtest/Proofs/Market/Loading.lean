import Backtest.Proofs.History.Alignment
import Backtest.Proofs.Market.Faults

namespace Backtest

theorem mapM_eq_ok {ε β γ : Type} {f : β → Except ε γ} {g : β → γ} {l : List β}
    (h : ∀ b ∈ l, f b = .ok (g b)) : l.mapM f = .ok (l.map g) := by
  induction l with
  | nil => rfl
  | cons b l ih =>
    rw [List.mapM_cons, h b List.mem_cons_self, ih fun x hx => h x (List.mem_cons_of_mem b hx)]
    rfl

namespace Market

variable {α : Type} {m : Market α} {files : String → Series α} {symbols : List String}

theorem align_histories (m : Market α) :
    m.align.histories =
      m.histories.map fun h => (h.1, Series.sharedBars (m.histories.map (·.2)) h.2) := by
  unfold align
  split
  next short =>
    match all : m.histories, short with
    | [], _ => rfl
    | [h], _ =>
      rw [List.map_singleton, List.map_singleton, Series.sharedBars_singleton]
  next =>
    dsimp only
    rw [Series.aligned_eq, List.map_map, List.zip_map']
    rfl

theorem align_of_two (two : ¬ m.histories.length < 2) :
    m.align =
      { m with
        histories := (m.histories.map (·.1)).zip (Series.aligned (m.histories.map (·.2)))
        resampled := [] } :=
  if_neg two

theorem align_align (m : Market α) : m.align.align = m.align := by
  by_cases short : m.histories.length < 2
  · have alone : m.align = m := if_pos short
    rw [alone, alone]
  · have two : ¬ m.align.histories.length < 2 := by rwa [align_histories, List.length_map]
    have keys : m.align.histories.map (·.1) = m.histories.map (·.1) := by
      rw [align_histories, List.map_map]
      rfl
    have series : m.align.histories.map (·.2) = Series.aligned (m.histories.map (·.2)) := by
      rw [align_histories, Series.aligned_eq, List.map_map, List.map_map]
      rfl
    rw [align_of_two two, keys, series, Series.aligned_aligned, align_of_two short]

/-- A market with the histories of some symbols, each of them its file cut to the times of some of these
symbols' files. -/
structure Draws (files : String → Series α) (symbols : List String) (m : Market α) : Prop where
  held : ∀ symbol, m.Holds symbol ↔ symbol ∈ symbols
  cut : ∀ entry ∈ m.histories, ∃ earlier : List (Series α),
    (∀ o ∈ earlier, ∃ symbol ∈ symbols, o = files symbol) ∧
      entry.2 = Series.sharedBars earlier (files entry.1)

namespace Draws

theorem mem (h : m.Draws files symbols) {entry : String × Series α} (he : entry ∈ m.histories) :
    entry.1 ∈ symbols :=
  (h.held entry.1).mp (List.mem_map_of_mem he)

theorem congr (h : m.Draws files symbols) {symbols' : List String}
    (same : ∀ symbol, symbol ∈ symbols ↔ symbol ∈ symbols') : m.Draws files symbols' := by
  refine ⟨fun symbol => (h.held symbol).trans (same symbol), fun entry he => ?_⟩
  obtain ⟨earlier, from_files, bars⟩ := h.cut entry he
  refine ⟨earlier, fun o ho => ?_, bars⟩
  obtain ⟨symbol, hsymbol, rfl⟩ := from_files o ho
  exact ⟨symbol, (same symbol).mp hsymbol, rfl⟩

theorem enter (h : m.Draws files symbols) (symbol : String) :
    (m.enter symbol (files symbol)).Draws files (symbol :: symbols) := by
  refine ⟨fun other => ?_, fun entry he => ?_⟩
  · rw [enter_holds, h.held, List.mem_cons]
  · rcases mem_enter he with rfl | he
    · exact ⟨[], fun o ho => absurd ho List.not_mem_nil,
        (Series.sharedBars_eq_self fun o ho => absurd ho List.not_mem_nil).symm⟩
    · obtain ⟨earlier, from_files, bars⟩ := h.cut entry he
      refine ⟨earlier, fun o ho => ?_, bars⟩
      obtain ⟨other, hother, rfl⟩ := from_files o ho
      exact ⟨other, List.mem_cons_of_mem symbol hother, rfl⟩

theorem enterAll (h : m.Draws files symbols) (more : List String) :
    ((more.map fun s => (s, files s)).foldl (fun m h => m.enter h.1 h.2) m).Draws files
      (more ++ symbols) := by
  induction more generalizing m symbols with
  | nil => exact h
  | cons symbol more ih =>
    refine (ih (h.enter symbol)).congr fun other => ?_
    rw [List.mem_append, List.cons_append, List.mem_cons, List.mem_cons, List.mem_append,
      or_left_comm]

/-- The times that all histories hold are those that all files hold: no cut has gone further. -/
theorem shared_iff (h : m.Draws files symbols) (time : Int) :
    (∀ o ∈ m.histories.map (·.2), time ∈ o.toList.map Bar.time) ↔
      ∀ o ∈ symbols.map files, time ∈ o.toList.map Bar.time := by
  rw [List.forall_mem_map, List.forall_mem_map]
  constructor
  · intro shared symbol hsymbol
    obtain ⟨entry, he, rfl⟩ := List.mem_map.mp ((h.held symbol).mpr hsymbol)
    obtain ⟨earlier, -, bars⟩ := h.cut entry he
    have holds := shared entry he
    rw [bars] at holds
    exact (Series.mem_times_sharedBars.mp holds).1
  · intro shared entry he
    obtain ⟨earlier, from_files, bars⟩ := h.cut entry he
    rw [bars]
    refine Series.mem_times_sharedBars.mpr ⟨shared entry.1 (h.mem he), fun o ho => ?_⟩
    obtain ⟨symbol, hsymbol, rfl⟩ := from_files o ho
    exact shared symbol hsymbol

/-- Aligned, every history is its file cut to the times of all the files. -/
theorem align_bars (h : m.Draws files symbols) {entry : String × Series α}
    (he : entry ∈ m.align.histories) :
    entry.2 = Series.sharedBars (symbols.map files) (files entry.1) := by
  rw [align_histories] at he
  obtain ⟨old, hold, rfl⟩ := List.mem_map.mp he
  obtain ⟨earlier, from_files, bars⟩ := h.cut old hold
  dsimp only
  rw [bars, Series.sharedBars_sharedBars]
  -- the cuts before this one went by times of the same files
  refine Series.sharedBars_congr fun b _ => ?_
  rw [List.forall_mem_append, h.shared_iff]
  refine ⟨fun both => both.2, fun shared => ⟨fun o ho => ?_, shared⟩⟩
  obtain ⟨symbol, hsymbol, rfl⟩ := from_files o ho
  exact shared _ (List.mem_map_of_mem hsymbol)

theorem align (h : m.Draws files symbols) : m.align.Draws files symbols := by
  refine ⟨fun symbol => align_holds.trans (h.held symbol), fun entry he => ?_⟩
  refine ⟨symbols.map files, fun o ho => ?_, h.align_bars he⟩
  obtain ⟨symbol, hsymbol, rfl⟩ := List.mem_map.mp ho
  exact ⟨symbol, hsymbol, rfl⟩

theorem align_history? (h : m.Draws files symbols) (symbol : String) :
    m.align.history? symbol =
      if symbol ∈ symbols then some (Series.sharedBars (symbols.map files) (files symbol))
      else none := by
  have held : m.align.Holds symbol ↔ symbol ∈ symbols := align_holds.trans (h.held symbol)
  split
  next hsymbol =>
    obtain ⟨s, hs⟩ := holds_iff.mp (held.mpr hsymbol)
    rw [hs]
    exact congrArg some (h.align_bars (mem_of_lookup hs))
  next absent =>
    rw [Option.eq_none_iff_forall_ne_some]
    exact fun s hs => absent (held.mp (holds_iff.mpr ⟨s, hs⟩))

end Draws

theorem empty_draws (directory : String) (baseTimeframe : Nat) (files : String → Series α) :
    (empty directory baseTimeframe : Market α).Draws files [] :=
  ⟨fun _ => Iff.rfl, fun _ he => absurd he List.not_mem_nil⟩

section Calls

variable {t : FileTree} {m : Market Float} {files : String → Series Float}

theorem load_eq {more : List String}
    (readable : ∀ symbol ∈ more, History.load t (m.historyPath symbol) = .ok (files symbol)) :
    m.load t more =
      .ok (((m.missing more).map fun s => (s, files s)).foldl (fun m h => m.enter h.1 h.2) m).align := by
  have loaded : ((m.missing more).mapM fun s => do
      return (s, ← History.load t (m.historyPath s))) = .ok ((m.missing more).map fun s => (s, files s)) :=
    mapM_eq_ok fun s hs => by
      rw [readable s (mem_missing.mp hs).1]
      rfl
  unfold load
  rw [loaded]
  rfl

theorem Draws.load (h : m.Draws files symbols) {more : List String}
    (readable : ∀ symbol ∈ more, History.load t (m.historyPath symbol) = .ok (files symbol)) :
    ∃ entered : Market Float, m.load t more = .ok entered.align ∧
      entered.Draws files (symbols ++ more) ∧
      entered.align.historyPath = m.historyPath := by
  refine ⟨_, load_eq readable, (h.enterAll (m.missing more)).congr fun symbol => ?_, ?_⟩
  · rw [List.mem_append, List.mem_append, mem_missing, ← h.held, or_comm]
    by_cases held : m.Holds symbol
    · simp only [held, true_or]
    · have absent : m.history? symbol = none := by
        rw [← Option.not_isSome_iff_eq_none]
        exact fun some => held (lookup_isSome_iff.mp some)
      simp only [absent, and_true]
  · funext symbol
    obtain ⟨base, directory⟩ := foldl_enter_frame ((m.missing more).map fun s => (s, files s)) m
    unfold historyPath
    rw [(align_frame _).1, (align_frame _).2, base, directory]

/-- Calls one after another leave the market as one alignment of all the files read. -/
theorem Draws.loadAll {calls : List (List String)} (h : m.Draws files symbols)
    (aligned : m.align = m)
    (readable : ∀ symbol ∈ calls.flatten,
      History.load t (m.historyPath symbol) = .ok (files symbol)) :
    ∃ m', calls.foldlM (fun m symbols => m.load t symbols) m = .ok m' ∧
      m'.Draws files (symbols ++ calls.flatten) ∧ m'.align = m' := by
  induction calls generalizing m symbols with
  | nil => exact ⟨m, rfl, by rwa [List.flatten_nil, List.append_nil], aligned⟩
  | cons call calls ih =>
    rw [List.flatten_cons] at readable
    obtain ⟨entered, loaded, draws, path⟩ :=
      h.load fun symbol hsymbol => readable symbol (List.mem_append_left _ hsymbol)
    obtain ⟨m', rest, draws', aligned'⟩ := ih draws.align (align_align entered)
      fun symbol hsymbol => by
        rw [path]
        exact readable symbol (List.mem_append_right _ hsymbol)
    refine ⟨m', ?_, ?_, aligned'⟩
    · rw [List.foldlM_cons, loaded]
      exact rest
    · rwa [List.flatten_cons, ← List.append_assoc]

/-- Symbols that are loaded in any order, repeated and split over any calls end up with the histories that
one load of all of them gives: of each file the bars at the times that every one of the files holds. There
is nothing left to align. -/
theorem load_confluent {directory : String} {baseTimeframe : Nat} {calls : List (List String)}
    (readable : ∀ symbol ∈ calls.flatten,
      History.load t ((empty directory baseTimeframe : Market Float).historyPath symbol) =
        .ok (files symbol)) :
    ∃ m, calls.foldlM (fun m symbols => m.load t symbols) (empty directory baseTimeframe) = .ok m ∧
      (∀ symbol, m.history? symbol =
        if symbol ∈ calls.flatten then
          some ((files symbol).filter fun b =>
            decide (∀ other ∈ calls.flatten, b.time ∈ (files other).toList.map Bar.time))
        else none) ∧
      (∀ symbols, (∀ symbol, symbol ∈ symbols ↔ symbol ∈ calls.flatten) →
        ∃ single, (empty directory baseTimeframe).load t symbols = .ok single ∧
          ∀ symbol, m.history? symbol = single.history? symbol) ∧
      m.align = m := by
  have start := empty_draws directory baseTimeframe files
  obtain ⟨m, loaded, draws, aligned⟩ := start.loadAll rfl readable
  rw [List.nil_append] at draws
  have histories := draws.align_history?
  rw [aligned] at histories
  refine ⟨m, loaded, fun symbol => ?_, fun symbols same => ?_, aligned⟩
  · rw [histories symbol]
    unfold Series.sharedBars
    simp only [List.forall_mem_map]
  · obtain ⟨entered, once, draws', -⟩ :=
      start.load fun symbol hsymbol => readable symbol ((same symbol).mp hsymbol)
    refine ⟨entered.align, once, fun symbol => ?_⟩
    rw [histories symbol, (draws'.congr same).align_history? symbol]

end Calls

def staggeredFiles : FileTree where
  files :=
    [(["EURUSD_60.csv"],
        "2024-01-01 00:00,1,1,1,1,0\n2024-01-01 01:00,2,2,2,2,0\n2024-01-01 02:00,3,3,3,3,0\n".toUTF8),
      (["GBPUSD_60.csv"],
        "2024-01-01 01:00,4,4,4,4,0\n2024-01-01 02:00,5,5,5,5,0\n2024-01-01 03:00,6,6,6,6,0\n".toUTF8)]
  directories := []

def staggeredBars (symbol : String) : Series Float :=
  (History.load staggeredFiles ((empty "" 60 : Market Float).historyPath symbol)).toOption.getD #[]

theorem staggeredBars_read : ∀ symbol ∈ [["EURUSD"], ["GBPUSD", "EURUSD"]].flatten,
    History.load staggeredFiles ((empty "" 60 : Market Float).historyPath symbol) =
      .ok (staggeredBars symbol) := by
  intro symbol hsymbol
  have read : (History.load staggeredFiles
      ((empty "" 60 : Market Float).historyPath symbol)).isOk = true := by
    revert symbol
    decide +kernel
  unfold staggeredBars
  cases loaded : History.load staggeredFiles ((empty "" 60 : Market Float).historyPath symbol) with
  | error f =>
    rw [loaded] at read
    cases read
  | ok s => rfl

theorem load_confluent_staggered :
    ∃ m, [["EURUSD"], ["GBPUSD", "EURUSD"]].foldlM (fun m symbols => m.load staggeredFiles symbols)
        (empty "" 60 : Market Float) = .ok m ∧
      (m.history? "EURUSD").map (fun s => s.toList.map Bar.time) = some [1704070800, 1704074400] ∧
      (m.history? "GBPUSD").map (fun s => s.toList.map Bar.time) = some [1704070800, 1704074400] := by
  obtain ⟨m, loaded, histories, -⟩ := load_confluent staggeredBars_read
  refine ⟨m, loaded, ?_, ?_⟩
  · rw [histories "EURUSD"]
    decide +kernel
  · rw [histories "GBPUSD"]
    decide +kernel

end Market
end Backtest
