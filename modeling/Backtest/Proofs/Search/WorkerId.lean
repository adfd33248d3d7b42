import Mathlib.Data.List.Nodup
import Backtest.Proofs.Config.Accepted

namespace Backtest

section WorkerId

variable {α : Type} {base base' : Int} {worker worker' : Nat} {id : Int}

theorem workerId_eq_ok :
    workerId (α := α) base worker = .ok id ↔ worker < workerStride ∧ fitsInt32 id = true ∧
      id = if base * workerStride < 0 then base * workerStride - worker else base * workerStride + worker := by
  unfold workerId
  dsimp only
  generalize (if base * workerStride < 0 then _ else _) = own
  split
  next fits =>
    rw [Bool.and_eq_true, decide_eq_true_eq] at fits
    constructor
    · rintro ⟨⟩
      exact ⟨fits.1, fits.2, rfl⟩
    · rintro ⟨-, -, rfl⟩
      rfl
  next unfit =>
    rw [Bool.and_eq_true, decide_eq_true_eq] at unfit
    constructor
    · rintro ⟨⟩
    · rintro ⟨below, fits, rfl⟩
      exact absurd ⟨below, fits⟩ unfit

theorem fitsInt32_iff {n : Int} : fitsInt32 n = true ↔ -2147483648 ≤ n ∧ n ≤ 2147483647 := by
  unfold fitsInt32
  rw [Bool.and_eq_true, decide_eq_true_eq, decide_eq_true_eq]

theorem workerId_of_le {last : Nat} (le : worker ≤ last) (room : workerId (α := α) base last = .ok id) :
    ∃ id, workerId (α := α) base worker = .ok id := by
  obtain ⟨below, fits, rfl⟩ := workerId_eq_ok.mp room
  refine ⟨_, workerId_eq_ok.mpr ⟨Nat.lt_of_le_of_lt le below, ?_, rfl⟩⟩
  rw [fitsInt32_iff] at fits ⊢
  omega

/-- The id of a worker tells whose it is: of its distance from zero, the stride takes the instance, and what
is left is the worker. -/
theorem workerId_injective (own : workerId (α := α) base worker = .ok id)
    (other : workerId (α := α) base' worker' = .ok id) : base = base' ∧ worker = worker' := by
  obtain ⟨below, -, rfl⟩ := workerId_eq_ok.mp own
  obtain ⟨below', -, same⟩ := workerId_eq_ok.mp other
  unfold workerStride at *
  omega

end WorkerId

section Accepted

variable {α : Type} [Arith α] {config : RunConfig α} {cores : Nat}

/-- An accepted search has an id for each instance and each of the workers, not only for the last of them. -/
theorem RunConfig.Accepted.workerIds (accepted : config.Accepted cores) (search : config.isSearch = true)
    {s : SystemConfig α} (hs : s ∈ config.systems) {worker : Nat}
    (employed : worker < max (config.workers cores) 1) :
    ∃ id, workerId (α := α) s.instanceId worker = .ok id := by
  obtain ⟨settings, found⟩ := accepted.search search
  obtain ⟨id, room⟩ := found.ids s hs
  exact workerId_of_le (by omega) room

/-- The ids of candidates. A worker has one for an instance if the worker is below the stride and the id fits
in 32 bits: a thousand times the instance's own id, and from there as far away from zero as the worker's
number. Another worker or another instance has another id. A configuration that is accepted for a search has
an id for each of its instances and each worker that it employs, and no two of these are the same. -/
theorem workerIds_distinct :
    (∀ (base : Int) (worker : Nat) (id : Int), workerId (α := α) base worker = .ok id ↔
      worker < 1000 ∧ id = (if base < 0 then 1000 * base - worker else 1000 * base + worker) ∧
        -2147483648 ≤ id ∧ id ≤ 2147483647) ∧
    (∀ (base base' : Int) (worker worker' : Nat) (id : Int), workerId (α := α) base worker = .ok id →
      workerId (α := α) base' worker' = .ok id → base = base' ∧ worker = worker') ∧
    ∀ (c c' : RunConfig α) (cores : Nat) (t t' : FileTree), c.check cores t = .ok (c', t') →
      c'.isSearch = true →
      (∀ s ∈ c'.systems, ∀ worker < max (c'.workers cores) 1,
        ∃ id, workerId (α := α) s.instanceId worker = .ok id) ∧
      ∀ s ∈ c'.systems, ∀ s' ∈ c'.systems, ∀ (worker worker' : Nat) (id : Int),
        workerId (α := α) s.instanceId worker = .ok id →
        workerId (α := α) s'.instanceId worker' = .ok id → s = s' ∧ worker = worker' := by
  refine ⟨fun base worker id => ?_, fun base base' worker worker' id => workerId_injective,
    fun c c' cores t t' checked search => ?_⟩
  · rw [workerId_eq_ok, fitsInt32_iff]
    unfold workerStride
    omega
  · have accepted : c'.Accepted cores := RunConfig.check_accepted checked
    refine ⟨fun s hs worker employed => accepted.workerIds search hs employed,
      fun s hs s' hs' worker worker' id own other => ?_⟩
    obtain ⟨sameInstance, sameWorker⟩ := workerId_injective own other
    exact ⟨List.inj_on_of_nodup_map accepted.distinct hs hs' sameInstance, sameWorker⟩

/-- The last ids of two instances at the ends of the 32-bit range, and the ids of a search on two cores. -/
theorem sampleSearch_workerIds :
    let searched := sampleConfig RunConfig.searchMode (sampleSystem "EURUSD" [])
    workerId (α := Float) 2147483 647 = .ok 2147483647 ∧
    (∀ id, workerId (α := Float) 2147483 648 ≠ .ok id) ∧
    workerId (α := Float) (-2147483) 648 = .ok (-2147483648) ∧
    (∃ t, searched.check 2 .empty = .ok (searched, t)) ∧ searched.isSearch = true ∧
    (∀ worker < 2, ∃ id, workerId (α := Float) 7 worker = .ok id) ∧
    workerId (α := Float) 7 0 ≠ workerId (α := Float) 7 1 := by
  intro searched
  obtain ⟨ids, distinct, accepted⟩ := workerIds_distinct (α := Float)
  obtain ⟨t, checked⟩ := sampleConfig_checked RunConfig.searchMode (sampleSystem "EURUSD" [])
    (by decide +kernel) (by decide +kernel) (by decide +kernel)
  have search : searched.isSearch = true := rfl
  obtain ⟨room, -⟩ := accepted _ _ _ _ _ checked search
  have employed := room _ (List.mem_singleton.mpr rfl)
  refine ⟨(ids _ _ _).mpr (by decide), fun id found => ?_, (ids _ _ _).mpr (by decide), ⟨t, checked⟩,
    search, employed, fun same => ?_⟩
  · obtain ⟨-, rfl, -, above⟩ := (ids _ _ _).mp found
    exact absurd above (by decide)
  · obtain ⟨id, own⟩ := employed 0 (by decide)
    exact absurd (distinct _ _ _ _ _ own (same ▸ own)).2 (by decide)

end Accepted
end Backtest
