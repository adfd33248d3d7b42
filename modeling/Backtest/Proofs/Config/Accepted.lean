import Backtest.Arith.Double
import Backtest.Proofs.History.Increasing
import Backtest.RunScope

namespace Backtest

variable {α : Type} [Arith α]

/-- What an instance of an accepted configuration satisfies. -/
structure SystemConfig.Accepted (base : Nat) (s : SystemConfig α) : Prop where
  required : s.requirements ≠ []
  buffers : s.requirements.length ≤ maxBuffers
  timeframe : base ≤ s.timeframe
  requirements : ∀ r ∈ s.requirements, (r.timeframe = 0 ∨ base ≤ r.timeframe) ∧ r.bars ≠ 0
  settings : ∀ entry ∈ s.settings, (Slot.ofSetting? entry.1).isSome = true
  account : ¬(s.account.contractSize ≤ 0 ∨ s.account.leverage ≤ 0 ∨ s.account.minLot ≤ 0)

/-- What an accepted search satisfies on a number of workers: its parameters name slots, and every
instance has an id for a candidate of the last worker. -/
structure RunConfig.SearchAccepted (c : RunConfig α) (workers : Nat) (search : SearchSettings α) : Prop where
  described : c.search = some search
  resolved : ∃ parameters, search.resolve = .ok parameters ∧ parameters ≠ []
  ids : ∀ s ∈ c.systems, ∃ id, workerId (α := α) s.instanceId (workers - 1) = .ok id

/-- What an accepted configuration satisfies on a machine with `cores` cores. -/
structure RunConfig.Accepted (c : RunConfig α) (cores : Nat) : Prop where
  timeframe : c.common.baseTimeframe ≠ 0
  dates : ∃ fromTime toTime, CommonConfig.readDate (α := α) c.common.fromDate = .ok fromTime ∧
    CommonConfig.readDate (α := α) c.common.toDate = .ok toTime
  distinct : (c.systems.map (·.instanceId)).Nodup
  systems : ∀ s ∈ c.systems, s.Accepted c.common.baseTimeframe
  search : c.isSearch = true → ∃ search, c.SearchAccepted (c.workers cores) search

section Check

theorem forM_eq_ok {ε β : Type} {f : β → Except ε Unit} {l : List β} :
    l.forM f = .ok () ↔ ∀ b ∈ l, f b = .ok () := by
  induction l with
  | nil => simp [pure, Except.pure]
  | cons b l ih =>
    change (f b >>= fun _ => l.forM f) = .ok () ↔ _
    rw [bind_eq_ok, List.forall_mem_cons]
    constructor
    · rintro ⟨_, head, tail⟩
      exact ⟨head, ih.mp tail⟩
    · rintro ⟨head, tail⟩
      exact ⟨(), head, ih.mpr tail⟩

theorem SystemConfig.check_accepted {s : SystemConfig α} {base : Nat}
    (h : s.check base = .ok ()) : s.Accepted base := by
  unfold SystemConfig.check at h
  obtain ⟨_, hrequirements, h⟩ := bind_eq_ok.mp h
  obtain ⟨_, hsettings, haccount⟩ := bind_eq_ok.mp h
  unfold checkRequirements at hrequirements
  split at hrequirements
  next => cases hrequirements
  next hsome =>
    split at hrequirements
    next => cases hrequirements
    next hcount =>
      split at hrequirements
      next => cases hrequirements
      next hframe =>
        refine ⟨by simpa using hsome, Nat.le_of_not_lt hcount, Nat.le_of_not_lt hframe,
          fun r hr => ?_, fun entry hentry => ?_, fun bad => ?_⟩
        · have hr := forM_eq_ok.mp hrequirements r hr
          unfold checkRequirement at hr
          split at hr
          next => cases hr
          next hfine =>
            split at hr
            next => cases hr
            next hbars => exact ⟨by omega, hbars⟩
        · unfold checkSettings at hsettings
          split at hsettings
          next => cases hsettings
          next hnone =>
            have named := List.find?_eq_none.mp hnone entry hentry
            simpa [Option.isSome_iff_ne_none] using named
        · unfold checkAccount at haccount
          dsimp only at haccount
          rw [if_pos bad] at haccount
          cases haccount

theorem SystemConfig.checkAll_accepted {base : Nat} {seen : List Int} {systems : List (SystemConfig α)}
    (h : checkAll base seen systems = .ok ()) :
    (∀ s ∈ systems, s.Accepted base ∧ s.instanceId ∉ seen) ∧
      (systems.map (·.instanceId)).Nodup := by
  induction systems generalizing seen with
  | nil => exact ⟨fun s hs => absurd hs List.not_mem_nil, List.nodup_nil⟩
  | cons s systems ih =>
    unfold checkAll at h
    split at h
    next => cases h
    next hnew =>
      obtain ⟨_, hs, h⟩ := bind_eq_ok.mp h
      obtain ⟨accepted, distinct⟩ := ih h
      refine ⟨fun x hx => ?_, ?_⟩
      · rcases List.mem_cons.mp hx with rfl | hx
        · exact ⟨check_accepted hs, by simpa using hnew⟩
        · obtain ⟨fine, unseen⟩ := accepted x hx
          exact ⟨fine, fun old => unseen (List.mem_cons_of_mem _ old)⟩
      · rw [List.map_cons, List.nodup_cons]
        refine ⟨fun again => ?_, distinct⟩
        obtain ⟨x, hx, hid⟩ := List.mem_map.mp again
        exact (accepted x hx).2 (hid ▸ List.mem_cons_self)

theorem RunConfig.check_eq_ok {c c' : RunConfig α} {cores : Nat} {t t' : FileTree} :
    c.check cores t = .ok (c', t') ↔
      ∃ common, c.common.capThreads cores = .ok common ∧ c' = { c with common := common } ∧
        common.checkAccount = .ok () ∧ common.checkDates = .ok () ∧ c.systems.isEmpty = false ∧
        SystemConfig.checkAll common.baseTimeframe [] c.systems = .ok () ∧
        c'.checkSearch cores = .ok () ∧ prepareExit (α := α) common.exitPath t = .ok t' := by
  unfold RunConfig.check
  constructor
  · intro h
    obtain ⟨common, hcommon, h⟩ := bind_eq_ok.mp h
    obtain ⟨_, haccount, h⟩ := bind_eq_ok.mp h
    obtain ⟨_, hdates, h⟩ := bind_eq_ok.mp h
    split at h
    next => cases h
    next hsome =>
      obtain ⟨_, hsystems, h⟩ := bind_eq_ok.mp h
      obtain ⟨_, hsearch, h⟩ := bind_eq_ok.mp h
      obtain ⟨tree, hexit, h⟩ := bind_eq_ok.mp h
      cases h
      exact ⟨common, hcommon, rfl, haccount, hdates, by simpa using hsome, hsystems, hsearch, hexit⟩
  · rintro ⟨common, hcommon, rfl, haccount, hdates, hsome, hsystems, hsearch, hexit⟩
    rw [hcommon]
    simp only [bind, Except.bind, haccount, hdates, hsome, hsystems, hsearch, hexit]
    rfl

theorem RunConfig.checkSearch_accepted {c : RunConfig α} {cores : Nat}
    (h : c.checkSearch cores = .ok ()) (searches : c.isSearch = true) :
    ∃ search, c.SearchAccepted (c.workers cores) search := by
  unfold checkSearch at h
  rw [if_neg (by simp [searches])] at h
  split at h
  next => cases h
  next search hsearch =>
    split at h
    next => cases h
    next hsome =>
      obtain ⟨_, hids, h⟩ := bind_eq_ok.mp h
      obtain ⟨_, -, h⟩ := bind_eq_ok.mp h
      obtain ⟨parameters, hparameters, -⟩ := bind_eq_ok.mp h
      refine ⟨search, hsearch, ⟨parameters, hparameters, fun hnil => ?_⟩, fun s hs => ?_⟩
      · unfold SearchSettings.resolve at hparameters
        cases hchoices : search.parameters with
        | nil => simp [hchoices] at hsome
        | cons choice choices =>
          rw [hchoices, List.mapM_cons] at hparameters
          obtain ⟨first, -, hparameters⟩ := bind_eq_ok.mp hparameters
          obtain ⟨rest, -, hparameters⟩ := bind_eq_ok.mp hparameters
          cases hparameters
          cases hnil
      · obtain ⟨id, hid, -⟩ := bind_eq_ok.mp (forM_eq_ok.mp hids s hs)
        exact ⟨id, hid⟩

theorem RunConfig.check_accepted {c c' : RunConfig α} {cores : Nat} {t t' : FileTree}
    (h : c.check cores t = .ok (c', t')) : c'.Accepted cores := by
  obtain ⟨common, -, rfl, haccount, hdates, -, hsystems, hsearch, -⟩ := check_eq_ok.mp h
  obtain ⟨accepted, distinct⟩ := SystemConfig.checkAll_accepted hsystems
  refine ⟨fun hzero => ?_, ?_, distinct, fun s hs => (accepted s hs).1, checkSearch_accepted hsearch⟩
  · unfold CommonConfig.checkAccount at haccount
    rw [hzero] at haccount
    split at haccount
    next => cases haccount
    next =>
      split at haccount
      next => cases haccount
      next => split at haccount <;> cases haccount
  · obtain ⟨fromTime, hfrom, hdates⟩ := bind_eq_ok.mp hdates
    obtain ⟨toTime, hto, -⟩ := bind_eq_ok.mp hdates
    exact ⟨fromTime, toTime, hfrom, hto⟩

end Check

section Scope

omit [Arith α] in
theorem conversionsOf_eq_error {symbol currency : String} {f : Fault α}
    (h : conversionsOf symbol currency = .error f) :
    f = .brokenSymbol symbol ∧ (Pair.ofSymbol symbol : Except (Fault α) _) = .error f := by
  rcases bind_eq_error.mp h with h | ⟨_, -, h⟩
  · refine ⟨?_, h⟩
    unfold Pair.ofSymbol at h
    split at h
    next => cases h
    next =>
      split at h
      next =>
        cases h
        rfl
      next => cases h
  · cases h

namespace RunScope

omit [Arith α] in
theorem mem_insertSymbol {id other : Int} {symbol : String} {symbols : List (Int × String)} :
    other ∈ (insertSymbol id symbol symbols).map (·.1) ↔ other = id ∨ other ∈ symbols.map (·.1) := by
  induction symbols with
  | nil => simp [insertSymbol]
  | cons entry symbols ih =>
    unfold insertSymbol
    split
    next => simp
    next =>
      rw [List.map_cons, List.mem_cons, ih, List.map_cons, List.mem_cons]
      exact or_left_comm

omit [Arith α] in
theorem mem_of_mem_insertSymbol {id : Int} {symbol : String} {symbols : List (Int × String)}
    {entry : Int × String} (h : entry ∈ insertSymbol id symbol symbols) :
    entry = (id, symbol) ∨ entry ∈ symbols := by
  induction symbols with
  | nil => exact .inl (List.mem_singleton.mp h)
  | cons first symbols ih =>
    unfold insertSymbol at h
    split at h
    next => exact List.mem_cons.mp h
    next =>
      rcases List.mem_cons.mp h with rfl | h
      · exact .inr List.mem_cons_self
      · exact (ih h).imp_right (List.mem_cons_of_mem first)

omit [Arith α] in
/-- Instances with new ids are registered, unless the symbol of one breaks where it is cut. -/
theorem register_all {c : RunScope α} {systems : List (SystemConfig α)} {out : Except (Fault α) (RunScope α)}
    (distinct : (systems.map (·.instanceId)).Nodup)
    (new : ∀ s ∈ systems, s.instanceId ∉ c.symbols.map (·.1))
    (h : systems.foldlM (fun c s => c.register s.instanceId s.symbol) c = out) :
    (∃ s ∈ systems, (Pair.ofSymbol s.symbol : Except (Fault α) _) = .error (.brokenSymbol s.symbol) ∧
        out = .error (.brokenSymbol s.symbol)) ∨
      ∃ symbols conversions, out = .ok { c with symbols := symbols, conversions := conversions } ∧
        (∀ entry ∈ symbols, entry ∈ c.symbols ∨ ∃ s ∈ systems, entry = (s.instanceId, s.symbol)) ∧
        ∀ s ∈ systems, ∃ legs, conversionsOf (α := α) s.symbol c.accountCurrency = .ok legs := by
  induction systems generalizing c with
  | nil =>
    exact .inr ⟨c.symbols, c.conversions, h.symm, fun _ hentry => .inl hentry,
      fun s hs => absurd hs List.not_mem_nil⟩
  | cons s systems ih =>
    obtain ⟨unlike, distinct⟩ := List.nodup_cons.mp distinct
    rw [List.foldlM_cons, register,
      if_neg (fun old => new s List.mem_cons_self (lookup_isSome_iff.mp old))] at h
    cases hlegs : conversionsOf (α := α) s.symbol c.accountCurrency with
    | error f =>
      obtain ⟨rfl, broken⟩ := conversionsOf_eq_error hlegs
      rw [hlegs] at h
      exact .inl ⟨s, List.mem_cons_self, broken, h.symm⟩
    | ok legs =>
      rw [hlegs] at h
      have new' : ∀ x ∈ systems,
          x.instanceId ∉ (insertSymbol s.instanceId s.symbol c.symbols).map (·.1) := by
        intro x hx old
        rcases mem_insertSymbol.mp old with same | old
        · exact unlike (List.mem_map.mpr ⟨x, hx, same⟩)
        · exact new x (List.mem_cons_of_mem s hx) old
      rcases ih distinct new' h with
        ⟨x, hx, broken, failed⟩ | ⟨symbols, conversions, made, registered, whole⟩
      · exact .inl ⟨x, List.mem_cons_of_mem s hx, broken, failed⟩
      · refine .inr ⟨symbols, conversions, made, fun entry hentry => ?_, fun x hx => ?_⟩
        · rcases registered entry hentry with old | ⟨x, hx, rfl⟩
          · rcases mem_of_mem_insertSymbol old with rfl | old
            · exact .inr ⟨s, List.mem_cons_self, rfl⟩
            · exact .inl old
          · exact .inr ⟨x, List.mem_cons_of_mem s hx, rfl⟩
        · rcases List.mem_cons.mp hx with rfl | hx
          · exact ⟨legs, hlegs⟩
          · exact whole x hx

def unregistered (cores : Nat) (config : RunConfig α) (fromTime toTime : Option Int) : RunScope α :=
  { start config.common.initialBalance config.common.accountCurrency config.common.baseTimeframe with
    broker := config.common.broker
    referenceBroker := config.common.referenceBroker
    accountLabel := config.common.accountLabel
    historyPath := config.common.historyPath
    fromTime := fromTime
    toTime := toTime
    statistics := config.common.statistics
    threads := max (config.workers cores) 1
    exitPath := config.common.exitPath }

/-- A scope that is made of an accepted configuration. -/
structure Made (config : RunConfig α) (cores : Nat) (c : RunScope α) : Prop where
  baseTimeframe : c.baseTimeframe = config.common.baseTimeframe
  accountCurrency : c.accountCurrency = config.common.accountCurrency
  threads : c.threads = max (config.workers cores) 1
  symbols : ∀ symbol ∈ c.symbolsTraded, ∃ s ∈ config.systems, symbol = s.symbol
  whole : ∀ s ∈ config.systems, ∃ legs,
    conversionsOf (α := α) s.symbol config.common.accountCurrency = .ok legs

/-- Only a symbol can keep the scope of an accepted configuration from being made. -/
theorem ofConfig_of_accepted {config : RunConfig α} {cores : Nat} (accepted : config.Accepted cores) :
    (∃ s ∈ config.systems, (Pair.ofSymbol s.symbol : Except (Fault α) _) = .error (.brokenSymbol s.symbol) ∧
        ofConfig cores config = .error (.brokenSymbol s.symbol)) ∨
      ∃ c, ofConfig cores config = .ok c ∧ Made config cores c := by
  obtain ⟨fromTime, toTime, hfrom, hto⟩ := accepted.dates
  have registered : ofConfig cores config =
      config.systems.foldlM (fun c s => c.register s.instanceId s.symbol)
        (unregistered cores config fromTime toTime) := by
    unfold ofConfig
    dsimp only
    rw [hfrom, hto]
    rfl
  rw [registered]
  rcases register_all (c := unregistered cores config fromTime toTime) accepted.distinct
    (fun _ _ => List.not_mem_nil) rfl with broken | ⟨symbols, conversions, made, all, whole⟩
  · exact .inl broken
  · refine .inr ⟨_, made, rfl, rfl, rfl, fun symbol hsymbol => ?_, whole⟩
    obtain ⟨entry, hentry, rfl⟩ := List.mem_map.mp (List.mem_eraseDups.mp hsymbol)
    obtain ⟨s, hs, rfl⟩ := (all entry hentry).resolve_left List.not_mem_nil
    exact ⟨s, hs, rfl⟩

theorem made_of_accepted {config : RunConfig α} {cores : Nat} (accepted : config.Accepted cores)
    {c : RunScope α} (h : ofConfig cores config = .ok c) : Made config cores c := by
  rcases ofConfig_of_accepted accepted with ⟨s, -, -, failed⟩ | ⟨c', made, scope⟩
  · rw [h] at failed
    cases failed
  · cases h.symm.trans made
    exact scope

end RunScope

end Scope

section Sample

/-- An instance that reads one bar of the symbol it trades. -/
def sampleSystem (symbol : String) (settings : List (String × Float)) : SystemConfig Float where
  instanceId := 7
  enginePath := "engine.so"
  engineConfig := ""
  symbol := symbol
  timeframe := 1
  settings := settings
  requirements := [⟨tradedSymbol, 0, 1⟩]
  account := .standard

/-- A run of one instance, or a search for its limit of orders. -/
def sampleConfig (mode : String) (s : SystemConfig Float) : RunConfig Float where
  common :=
    { mode := mode
      initialBalance := 10000
      accountCurrency := "USD"
      broker := ""
      referenceBroker := ""
      accountLabel := ""
      historyPath := "."
      baseTimeframe := 1
      fromDate := none
      toDate := none
      threads := none
      exitPath := "out"
      statistics := .standard }
  systems := [s]
  search := some ⟨.bruteForce, .profit, [⟨some "MAX_OPEN_ORDERS", none, 1, 1, 3⟩]⟩

theorem prepareExit_empty {path : String} (named : (RunConfig.trimSlashes path).isEmpty = false) :
    ∃ t, RunConfig.prepareExit (α := Float) path .empty = .ok t := by
  unfold RunConfig.prepareExit
  dsimp only
  rw [named, if_neg Bool.false_ne_true]
  split
  next =>
    have created : ∃ t, FileTree.empty.createDirectories (RunConfig.trimSlashes path) = some t := by
      unfold FileTree.createDirectories
      exact ⟨_, if_neg (by simp [FileTree.empty])⟩
    obtain ⟨t, ht⟩ := created
    rw [ht]
    exact ⟨t, rfl⟩
  next held =>
    have directory : FileTree.empty.isDirectory (RunConfig.trimSlashes path) = true := by
      simpa [FileTree.holds, FileTree.isFile, FileTree.content?, FileTree.empty] using held
    rw [directory]
    exact ⟨_, rfl⟩

theorem eq_ok_of_isOk {ε : Type} {x : Except ε Unit} (h : x.isOk = true) : x = .ok () := by
  cases x with
  | error e => cases h
  | ok _ => rfl

theorem sampleConfig_checked (mode : String) (s : SystemConfig Float)
    (account : (sampleConfig mode s).common.checkAccount.isOk = true) (fine : (s.check 1).isOk = true)
    (search : ((sampleConfig mode s).checkSearch 2).isOk = true) :
    ∃ t, (sampleConfig mode s).check 2 .empty = .ok (sampleConfig mode s, t) := by
  have systems : SystemConfig.checkAll 1 [] [s] = .ok () := by
    change (s.check 1 >>= fun _ => .ok ()) = .ok ()
    rw [eq_ok_of_isOk fine]
    rfl
  have named : (RunConfig.trimSlashes "out").isEmpty = false := by decide +kernel
  obtain ⟨t, exit⟩ := prepareExit_empty named
  exact ⟨t, RunConfig.check_eq_ok.mpr
    ⟨_, rfl, rfl, eq_ok_of_isOk account, rfl, rfl, systems, eq_ok_of_isOk search, exit⟩⟩

end Sample
end Backtest
