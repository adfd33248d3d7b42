import Backtest.History.Alignment
import Backtest.History.Reader
import Backtest.History.Resample
import Backtest.Market.View

namespace Backtest

/-- Histories of traded and required symbols, and histories that serve conversion only. -/
structure Market (α : Type) where
  directory : String
  baseTimeframe : Nat
  histories : List (String × Series α)
  conversions : List (String × Series α)
  /-- Histories resampled so far, by symbol and timeframe; those of changed histories are forgotten. -/
  resampled : List ((String × Nat) × Series α)

namespace Market

variable {α : Type}

def empty (directory : String) (baseTimeframe : Nat) : Market α := ⟨directory, baseTimeframe, [], [], []⟩

def historyPath (m : Market α) (symbol : String) : String :=
  FileTree.join m.directory (symbol ++ "_" ++ toString m.baseTimeframe ++ ".csv")

def history? (m : Market α) (symbol : String) : Option (Series α) := m.histories.lookup symbol

/-- Puts a history in the place of the one of its symbol, or behind the others. -/
def enter (m : Market α) (symbol : String) (s : Series α) : Market α :=
  if m.histories.any (·.1 == symbol) then
    { m with histories := m.histories.map fun h => if h.1 == symbol then (symbol, s) else h }
  else { m with histories := m.histories ++ [(symbol, s)] }

def forget (m : Market α) : Market α := { m with resampled := [] }

def put (m : Market α) (symbol : String) (s : Series α) : Market α := (m.enter symbol s).forget

def insert (m : Market α) (symbol : String) (s : Series α) : Except (Fault α) (Market α) :=
  match History.orderFault? s symbol with
  | some f => .error f
  | none => .ok (m.put symbol s)

/-- Cuts the histories to the times they share, if there are at least two of them. -/
def align (m : Market α) : Market α :=
  if m.histories.length < 2 then m
  else
    { m with
      histories := (m.histories.map (·.1)).zip (Series.aligned (m.histories.map (·.2)))
      resampled := [] }

def missing (m : Market α) (symbols : List String) : List String :=
  (symbols.filter fun s => (m.history? s).isNone).eraseDups

/-- Loads the histories of the symbols that are not loaded yet, all or none of them, and cuts all
histories to the times they share. -/
def load (m : Market Float) (t : FileTree) (symbols : List String) :
    Except (Fault Float) (Market Float) := do
  let loaded ← (m.missing symbols).mapM fun s => do
    return (s, ← History.load t (m.historyPath s))
  return (loaded.foldl (fun m h => m.enter h.1 h.2) m).align

/-- Loads one conversion history, unless it is there already or has no file. -/
def loadConversion (m : Market Float) (t : FileTree) (symbol : String) :
    Except (Fault Float) (Market Float) :=
  let path := m.historyPath symbol
  if (m.conversions.lookup symbol).isSome || (m.history? symbol).isSome || !t.isFile path then .ok m
  else do
    let s ← History.load t path
    return { m with conversions := m.conversions ++ [(symbol, s)] }

/-- Loads conversion histories one by one. A fault ends the loading and keeps what came before. -/
def loadConversionList (m : Market Float) (t : FileTree) :
    List String → Market Float × Option (Fault Float)
  | [] => (m, none)
  | symbol :: rest =>
    match m.loadConversion t symbol with
    | .ok m => m.loadConversionList t rest
    | .error f => (m, some f)

def loadConversions (m : Market Float) (t : FileTree) (currency : String) :
    List String → Market Float × Option (Fault Float)
  | [] => (m, none)
  | symbol :: rest =>
    match conversionsOf symbol currency with
    | .error f => (m, some f)
    | .ok legs =>
      match m.loadConversionList t (legs.map (·.2)) with
      | (m, none) => m.loadConversions t currency rest
      | (m, some f) => (m, some f)

variable [Arith α]

/-- A history on a timeframe, resampled unless it is there already. -/
def resample (m : Market α) (symbol : String) (base : Series α) (timeframe : Nat) :
    Except (Fault α) (Series α) :=
  if timeframe = m.baseTimeframe then .ok base
  else
    match m.resampled.lookup (symbol, timeframe) with
    | some s => .ok s
    | none => base.resample m.baseTimeframe timeframe

def remember (m : Market α) (symbol : String) (timeframe : Nat) : Market α :=
  match m.history? symbol with
  | none => m
  | some base =>
    match m.resample symbol base timeframe with
    | .ok s =>
      if timeframe = m.baseTimeframe || (m.resampled.lookup (symbol, timeframe)).isSome then m
      else { m with resampled := ((symbol, timeframe), s) :: m.resampled }
    | .error _ => m

def buildBuffer (m : Market α) (symbol : String) (timeframe digits slot : Nat) (r : Requirement) :
    Except (Fault α) (BarBuffer α) := do
  let required := r.timeframeFor timeframe
  if required < m.baseTimeframe then throw (.invalidTimeframe m.baseTimeframe required)
  let used := r.symbolFor symbol
  let some base := m.history? used | throw (.missingHistory (m.historyPath used))
  let series ← m.resample used base required
  if series.size < r.bars then throw (.tooFewBars used r.bars series.size)
  let info : BufferInfo α :=
    { slot := slot
      required := required
      actual := m.baseTimeframe
      bars := r.bars
      capacity := windowLength α r.bars required m.baseTimeframe
      symbol := used
      digits := digits
      point := 1 / Arith.intPow 10.0 ((digits : Int).bmod 4294967296) }
  return .ofSeries info base series

/-- Sets up buffers in the order of their requirements, up to the first fault. What was resampled is
kept in either case. -/
def buildBuffers (m : Market α) (symbol : String) (timeframe digits : Nat) :
    List (Requirement × Nat) → Market α × Except (Fault α) (List (BarBuffer α))
  | [] => (m, .ok [])
  | (r, slot) :: rest =>
    let m := m.remember (r.symbolFor symbol) (r.timeframeFor timeframe)
    match m.buildBuffer symbol timeframe digits slot r with
    | .error f => (m, .error f)
    | .ok b =>
      let (m, built) := m.buildBuffers symbol timeframe digits rest
      (m, built.map (b :: ·))

def conversionHistories (m : Market α) (legs : List (ConversionRoute × String)) :
    List (ConversionHistory α) :=
  legs.filterMap fun (leg, symbol) =>
    ((m.conversions.lookup symbol).or (m.history? symbol)).map fun s => ⟨symbol, leg, s⟩

def assemble (m : Market α) (symbol currency : String) (primary : Series α)
    (buffers : List (BarBuffer α)) : Except (Fault α) (MarketView α) := do
  let pair ← Pair.ofSymbol symbol
  let legs := pair.elim [] (·.conversions currency)
  return ⟨symbol, pair, currency, primary, buffers, m.conversionHistories legs⟩

def buildView (m : Market α) (symbol : String) (timeframe : Nat) (requirements : List Requirement)
    (digits : Nat) (currency : String) : Market α × Except (Fault α) (MarketView α) :=
  if requirements.length > maxBuffers then (m, .error (.tooManyBuffers requirements.length))
  else
    match m.history? symbol with
    | none => (m, .error (.missingHistory (m.historyPath symbol)))
    | some primary =>
      let (m, built) := m.buildBuffers symbol timeframe digits requirements.zipIdx
      (m, built.bind (m.assemble symbol currency primary))

end Market
end Backtest
