import Backtest.Proofs.Config.Accepted
import Backtest.Proofs.Config.Slots
import Backtest.Proofs.Instance.Faults
import Backtest.Proofs.Market.Faults
import Backtest.Proofs.Random.Draw
import Backtest.Proofs.Search.Faults
import Backtest.Proofs.Search.WorkerId
import Backtest.Proofs.Tester.Plans
import Backtest.Tester.Run

namespace Backtest

namespace EvaluationTable

theorem writeRecord_fault {t : EvaluationTable} {fields : List String} {f : Fault Float}
    (h : (t.writeRecord fields).2 = some f) : f = .table := by
  unfold writeRecord at h
  dsimp only at h
  split at h
  next => cases h
  next =>
    cases h
    rfl

theorem addRow_fault {t : EvaluationTable} {n : Nat} {c : Assignment Float} {r : RunFigures Float}
    {f : Fault Float} (h : (t.addRow n c r).2 = some f) : f = .table :=
  writeRecord_fault h

end EvaluationTable

/-- A candidate of one of the workers up to the last placed more orders than its settings allow. -/
def InstancePlan.Exceeded {α σ : Type} [Arith α] (y : InstancePlan α σ) (last : Nat) (f : Fault α) : Prop :=
  ∃ worker ≤ last, ∃ id values, workerId (α := α) y.instanceId worker = .ok id ∧
    f = .tooManyOrders id (max (y.candidate id values).settings.orderLimit 1)

/-- Whatever workers take on the candidates of an instance, it is too many orders that a candidate fails
with, if the configuration is to blame at all. -/
theorem InstancePlan.failsWith_exceeded {σ : Type} {y : InstancePlan Float σ} (c : RunScope Float)
    {last : Nat} {id : Int} (room : workerId (α := Float) y.instanceId last = .ok id)
    (worker : σ → Assignment Float → Nat) (within : ∀ w values, worker w values ≤ last) :
    FailsWith (fun f => f.isConfig = true → y.Exceeded last f)
      (fun w values => y.runCandidate c (worker w values) w values) EvaluationTable where
  ran w values f failed config := by
    obtain ⟨own, hown⟩ := workerId_of_le (within w values) room
    have exceeded := (y.runCandidate_handedOn hown failed).of_isConfig config
    exact ⟨worker w values, within w values, own, values, hown, exceeded⟩
  written rows n values r f failed config := by
    rw [EvaluationTable.addRow_fault failed] at config
    cases config
  broken _ config := by cases config

namespace Tester

section Market

variable {α : Type} [Arith α] {config : RunConfig α}

/-- A market with the histories that the instances of a configuration need. -/
def Stocked (config : RunConfig α) (m : Market α) : Prop :=
  m.baseTimeframe = config.common.baseTimeframe ∧ ∀ symbol ∈ config.symbols, m.Holds symbol

theorem Stocked.viewFor {m : Market α} (stocked : Stocked config m) (s : SystemConfig α) :
    Stocked config (viewFor config.common m s).1 := by
  have same : m.SameHistories (Tester.viewFor config.common m s).1 := m.buildView_same ..
  unfold Stocked Market.Holds
  rw [same.histories, same.baseTimeframe]
  exact stocked

/-- On a market that is stocked, an accepted instance is set up unless it has too few bars. -/
theorem Stocked.viewFor_short {m : Market α} (stocked : Stocked config m) {cores : Nat}
    (accepted : config.Accepted cores) {s : SystemConfig α} (hs : s ∈ config.systems)
    {legs : List (ConversionRoute × String)}
    (whole : conversionsOf (α := α) s.symbol config.common.accountCurrency = .ok legs) {f : Fault α}
    (failed : (Tester.viewFor config.common m s).2 = .error f) : Market.Short f := by
  obtain ⟨base, holds⟩ := stocked
  have fine := accepted.systems s hs
  have own : s.symbol ∈ config.symbols := List.mem_flatMap.mpr ⟨s, hs, List.mem_cons_self⟩
  refine Market.buildView_short (base ▸ accepted.timeframe) fine.buffers (holds _ own) (fun r hr => ?_)
    whole failed
  refine ⟨?_, holds _ ?_⟩
  · rw [base]
    unfold Requirement.timeframeFor
    split
    next => exact fine.timeframe
    next named => exact (fine.requirements r hr).1.resolve_left named
  · unfold Requirement.symbolFor
    split
    next => exact own
    next other =>
      refine List.mem_flatMap.mpr ⟨s, hs, List.mem_cons_of_mem _ (List.mem_filter.mpr ⟨?_, ?_⟩)⟩
      · exact List.mem_map_of_mem hr
      · simpa using other

end Market

section Prepare

variable {config : RunConfig Float} {cores : Nat} {t : FileTree}

theorem prepare_error (accepted : config.Accepted cores) {e : RunFault Float}
    (failed : prepare cores t config = .error e) :
    ∃ activity f, e = .fault activity f ∧ (f.category = .data ∨
      ∃ s ∈ config.systems, f = .brokenSymbol s.symbol ∧ Pair.ofSymbol s.symbol = .error f) := by
  rcases bind_eq_error.mp failed with failed | ⟨c, hc, failed⟩
  · obtain ⟨f, hf, rfl⟩ := RunFault.plain_eq_error.mp failed
    rcases RunScope.ofConfig_of_accepted accepted with ⟨s, hs, broken, failed⟩ | ⟨c, made, -⟩
    · rw [failed] at hf
      cases hf
      exact ⟨none, _, rfl, .inr ⟨s, hs, rfl, broken⟩⟩
    · rw [made] at hf
      cases hf
  · have scope := RunScope.made_of_accepted accepted (RunFault.plain_eq_ok.mp hc)
    rcases bind_eq_error.mp failed with failed | ⟨m, -, failed⟩
    · obtain ⟨f, hf, rfl⟩ := RunFault.during_eq_error.mp failed
      exact ⟨_, f, rfl, .inl (Market.load_category hf)⟩
    · split at failed
      next => cases failed
      next m' f unconverted =>
        cases failed
        rcases Market.loadConversions_category (congrArg Prod.snd unconverted) with
          data | ⟨symbol, hsymbol, broken⟩
        · exact ⟨none, f, rfl, .inl data⟩
        · -- a traded symbol is one of the configuration, and its scope has cut it already
          obtain ⟨s, hs, rfl⟩ := scope.symbols symbol hsymbol
          obtain ⟨legs, whole⟩ := scope.whole s hs
          rw [scope.accountCurrency, whole] at broken
          cases broken

/-- With a symbol that cannot be cut, an accepted configuration is not made ready on any data. -/
theorem prepare_of_broken (accepted : config.Accepted cores) {s : SystemConfig Float}
    (hs : s ∈ config.systems) {f : Fault Float} (broken : Pair.ofSymbol s.symbol = .error f) (t : FileTree) :
    ∃ other ∈ config.systems, prepare cores t config = .error (.fault none (.brokenSymbol other.symbol)) := by
  rcases RunScope.ofConfig_of_accepted accepted with ⟨other, hother, -, failed⟩ | ⟨c, -, scope⟩
  · refine ⟨other, hother, ?_⟩
    unfold prepare
    rw [failed]
    rfl
  · obtain ⟨legs, whole⟩ := scope.whole s hs
    obtain ⟨pair, cut, -⟩ := bind_eq_ok.mp whole
    rw [broken] at cut
    cases cut

theorem prepare_ok (accepted : config.Accepted cores) {x : Tester Float}
    (ready : prepare cores t config = .ok x) :
    x.config = config ∧ RunScope.Made config cores x.scope ∧ Stocked config x.market := by
  obtain ⟨c, hc, ready⟩ := bind_eq_ok.mp ready
  obtain ⟨m, hm, ready⟩ := bind_eq_ok.mp ready
  have made := RunScope.made_of_accepted accepted (RunFault.plain_eq_ok.mp hc)
  have loaded := Market.load_holds (RunFault.during_eq_ok.mp hm)
  have kept : (m.loadConversions t c.accountCurrency c.symbolsTraded).1.histories = m.histories ∧ _ :=
    Market.loadConversions_histories
  split at ready
  next m' converted =>
    cases ready
    rw [converted] at kept
    refine ⟨rfl, made, kept.2.trans (loaded.1.trans made.baseTimeframe), fun symbol hsymbol => ?_⟩
    unfold Market.Holds
    rw [kept.1]
    exact loaded.2 symbol hsymbol
  next => cases ready

end Prepare

section Plans

variable {config : RunConfig Float} {cores : Nat} {x : Tester Float} {σ : Type}
  {engines : EngineLoader Float σ}

theorem plans_error (accepted : config.Accepted cores) (same : x.config = config)
    (scope : RunScope.Made config cores x.scope) (stocked : Stocked config x.market) {e : RunFault Float}
    (failed : x.plans engines = .error e) :
    (∃ s ∈ config.systems, engines s.enginePath = none ∧
        e = .fault (some ("Failed to load strategy framework " ++ s.enginePath)) .library) ∨
      ∃ f, e = .fault none f ∧ Market.Short f := by
  unfold plans at failed
  rw [same] at failed
  obtain ⟨s, hs, ⟨missing, rfl⟩ | ⟨m, f, stocked, rfl, unplanned⟩⟩ :=
    planAll_error (P := Stocked config) (fun m s stocked => stocked.viewFor s) stocked failed
  · exact .inl ⟨s, hs, missing, rfl⟩
  · refine .inr ⟨f, rfl, ?_⟩
    rcases unplanned with unviewed | unset
    · obtain ⟨legs, whole⟩ := scope.whole s hs
      exact stocked.viewFor_short accepted hs whole unviewed
    · obtain ⟨v, set⟩ := SystemConfig.slots_isOk (accepted.systems s hs).settings config.common
      rw [set] at unset
      cases unset

end Plans

section Run

variable {σ : Type}

theorem room_of_planned {x : Tester Float} {engines : EngineLoader Float σ} {last : Nat}
    (room : ∀ s ∈ x.config.systems, ∃ id, workerId (α := Float) s.instanceId last = .ok id)
    {plans : List (InstancePlan Float σ)} (planned : x.plans engines = .ok plans) :
    ∀ y ∈ plans, ∃ id, workerId (α := Float) y.instanceId last = .ok id := by
  intro y hy
  obtain ⟨s, hs, -, id, -⟩ := exists_mem_left (planAll_realises planned) hy
  rw [id]
  exact room s hs

theorem runSearches_fault {x : Tester Float} {search : SearchSettings Float}
    {parameters : List (Parameter Float)} (resolved : search.resolve = .ok parameters)
    (hp : parameters ≠ []) {plans : List (InstancePlan Float σ)}
    (room : ∀ y ∈ plans, ∃ id, workerId (α := Float) y.instanceId 0 = .ok id) {entropy : Nat}
    {stop : StopPoint} {t : FileTree} {world : σ} {e : RunFault Float}
    (failed : (x.runSearches search entropy plans stop t world).fault = some e) :
    ∃ f, e = .fault none f ∧ (f.isConfig = true → ∃ y ∈ plans, y.Exceeded 0 f) := by
  induction plans generalizing stop t world with
  | nil => cases failed
  | cons y plans ih =>
    obtain ⟨id, hid⟩ := room y List.mem_cons_self
    unfold runSearches at failed
    dsimp only at failed
    split at failed
    next =>
      cases failed
      exact ⟨_, rfl, fun config => by cases config⟩
    next t' _ =>
      split at failed
      next f unfound =>
        cases failed
        refine ⟨f, rfl, fun config => ⟨y, List.mem_cons_self, ?_⟩⟩
        have fails := y.failsWith_exceeded x.scope hid (fun _ _ => 0) fun _ _ => Nat.le_refl 0
        exact fails.runSearch resolved hp unfound config
      next =>
        obtain ⟨f, rfl, exceeded⟩ := ih (fun z hz => room z (List.mem_cons_of_mem y hz)) failed
        refine ⟨f, rfl, fun config => ?_⟩
        obtain ⟨z, hz, exceeded⟩ := exceeded config
        exact ⟨z, List.mem_cons_of_mem y hz, exceeded⟩

/-- The faults of a search run, once it is ready: none is of the configuration but too many orders. -/
theorem run_fault {config : RunConfig Float} {cores : Nat} (accepted : config.Accepted cores)
    {x : Tester Float} (same : x.config = config) (scope : RunScope.Made config cores x.scope)
    (stocked : Stocked config x.market) {engines : EngineLoader Float σ} (searches : config.isSearch = true)
    {entropy : Nat} {stop : StopPoint} {t : FileTree} {world : σ} {e : RunFault Float}
    (failed : (x.run engines entropy stop t world).fault = some e) :
    ∃ activity f, e = .fault activity f ∧ (f.isConfig = true →
      ∃ plans, x.plans engines = .ok plans ∧ ∃ y ∈ plans, y.Exceeded 0 f) := by
  obtain ⟨search, described, ⟨parameters, resolved, hp⟩, ids⟩ := accepted.search searches
  unfold run at failed
  rw [if_pos (same ▸ searches), same, described] at failed
  dsimp only at failed
  split at failed
  next e' unplanned =>
    cases failed
    rcases plans_error accepted same scope stocked unplanned with
      ⟨s, -, -, rfl⟩ | ⟨f, rfl, symbol, required, available, rfl⟩
    · exact ⟨_, _, rfl, fun config => by cases config⟩
    · exact ⟨_, _, rfl, fun config => by cases config⟩
  next plans planned =>
    split at failed
    next e' uncreated =>
      cases failed
      unfold exitDirectory at uncreated
      dsimp only at uncreated
      split at uncreated
      next => cases uncreated
      next =>
        cases uncreated
        exact ⟨_, _, rfl, fun config => by cases config⟩
    next t' _ =>
      have room : ∀ y ∈ plans, ∃ id, workerId (α := Float) y.instanceId 0 = .ok id := by
        intro y hy
        obtain ⟨last, hlast⟩ := room_of_planned (same ▸ ids) planned y hy
        exact workerId_of_le (Nat.zero_le _) hlast
      obtain ⟨f, rfl, exceeded⟩ := runSearches_fault resolved hp room failed
      exact ⟨none, f, rfl, fun config => ⟨plans, planned, exceeded config⟩⟩

end Run

/-- What can go wrong with a configuration that passed its check. It is made ready unless its data is
faulty or the symbol of an instance cannot be cut into two currencies, and with such a symbol it never is.
Its instances are planned unless an engine is missing or there are too few bars; and of all faults of the
configuration, its search ends at most on one that a strategy brings about: an order more than a candidate
may hold. That is so whichever worker takes a candidate on. -/
theorem faults_of_accepted {config₀ config : RunConfig Float} {cores : Nat} {t₀ t₁ : FileTree}
    (checked : config₀.check cores t₀ = .ok (config, t₁)) {σ : Type} (engines : EngineLoader Float σ) :
    (∀ t e, prepare cores t config = .error e → ∃ activity f, e = .fault activity f ∧
      (f.category = .data ∨
        ∃ s ∈ config.systems, f = .brokenSymbol s.symbol ∧ Pair.ofSymbol s.symbol = .error f)) ∧
    (∀ s ∈ config.systems, ∀ f : Fault Float, Pair.ofSymbol s.symbol = .error f → ∀ t,
      ∃ other ∈ config.systems,
        prepare cores t config = .error (.fault none (.brokenSymbol other.symbol))) ∧
    ∀ t x, prepare cores t config = .ok x →
      (∀ e, x.plans engines = .error e →
        (∃ s ∈ config.systems, engines s.enginePath = none ∧
            e = .fault (some ("Failed to load strategy framework " ++ s.enginePath)) .library) ∨
          ∃ symbol required available, e = .fault none (.tooFewBars symbol required available)) ∧
      (config.isSearch = true →
        (∀ entropy stop files world e, (x.run engines entropy stop files world).fault = some e →
          ∃ activity f, e = .fault activity f ∧ (f.isConfig = true →
            ∃ plans, x.plans engines = .ok plans ∧ ∃ y ∈ plans, y.Exceeded 0 f)) ∧
        ∀ plans, x.plans engines = .ok plans → ∀ y ∈ plans, ∀ search, config.search = some search →
          ∀ worker : σ → Assignment Float → Nat, (∀ w values, worker w values < x.scope.threads) →
            ∀ entropy stop (start : SearchState Float σ EvaluationTable) f,
              (runSearch entropy search (fun w values => y.runCandidate x.scope (worker w values) w values)
                stop start).2 = .error f →
              f.isConfig = true → y.Exceeded (x.scope.threads - 1) f) := by
  have accepted := RunConfig.check_accepted checked
  refine ⟨fun t e failed => prepare_error accepted failed,
    fun s hs f broken t => prepare_of_broken accepted hs broken t, fun t x ready => ?_⟩
  obtain ⟨same, scope, stocked⟩ := prepare_ok accepted ready
  refine ⟨fun e failed => ?_, fun searches => ⟨?_, ?_⟩⟩
  · rcases plans_error accepted same scope stocked failed with missing | ⟨f, rfl, short⟩
    · exact .inl missing
    · obtain ⟨symbol, required, available, rfl⟩ := short
      exact .inr ⟨symbol, required, available, rfl⟩
  · intro entropy stop files world e failed
    exact run_fault accepted same scope stocked searches failed
  · intro plans planned y hy search described worker within entropy stop start f failed
    obtain ⟨search', described', ⟨parameters, resolved, hp⟩, ids⟩ := accepted.search searches
    obtain rfl : search' = search := Option.some.inj (described'.symm.trans described)
    have threads : config.workers cores - 1 = x.scope.threads - 1 := by
      rw [scope.threads]
      omega
    obtain ⟨last, hlast⟩ := room_of_planned (same ▸ threads ▸ ids) planned y hy
    have fails := y.failsWith_exceeded x.scope hlast worker fun w values => Nat.le_sub_one_of_lt (within w values)
    exact fails.runSearch resolved hp failed

/-- A search on a symbol of six letters fails on nothing but data before its engines are loaded. -/
theorem sampleSearch_faults :
    let config := sampleConfig RunConfig.searchMode (sampleSystem "EURUSD" [])
    (∃ t, config.check 2 .empty = .ok (config, t)) ∧ config.isSearch = true ∧
      ∀ t e, prepare 2 t config = .error e → ∃ activity f, e = .fault activity f ∧ f.category = .data := by
  intro config
  obtain ⟨t₁, checked⟩ : ∃ t, config.check 2 .empty = .ok (config, t) :=
    sampleConfig_checked _ _ (by decide +kernel) (by decide +kernel) (by decide +kernel)
  refine ⟨⟨t₁, checked⟩, rfl, fun t e failed => ?_⟩
  obtain ⟨activity, f, rfl, data | ⟨s, hs, rfl, broken⟩⟩ :=
    (faults_of_accepted checked fun _ => some (Script.mk 0 []).engine).1 t e failed
  · exact ⟨activity, f, rfl, data⟩
  · obtain rfl := List.mem_singleton.mp hs
    cases broken

/-- A symbol whose fourth byte is inside a character passes the check, and then keeps its run from being
made ready. -/
theorem uncut_symbol_accepted :
    let config := sampleConfig RunConfig.testMode (sampleSystem "EU€SD" [])
    (∃ t, config.check 2 .empty = .ok (config, t)) ∧
      prepare 2 .empty config = .error (.fault none (.brokenSymbol "EU€SD")) ∧
      (Fault.brokenSymbol "EU€SD" : Fault Float).category ≠ .data :=
  ⟨sampleConfig_checked _ _ (by decide +kernel) (by decide +kernel) (by decide +kernel), rfl, by decide⟩

end Tester
end Backtest
