import Backtest.Config.Basic
import Backtest.Instance.Candidate
import Backtest.Proofs.History.Increasing

namespace Backtest

variable {α β : Type}

/-- The last value for a slot in a list of values, each of which names its slot. -/
def lastFor (slotOf : β → Option (Fin slotCount)) (slot : Fin slotCount) (values : List (β × α)) :
    Option α :=
  (values.reverse.find? fun entry => slotOf entry.1 = some slot).map (·.2)

theorem lastFor_cons (slotOf : β → Option (Fin slotCount)) (slot : Fin slotCount) (entry : β × α)
    (values : List (β × α)) : lastFor slotOf slot (entry :: values) =
      (lastFor slotOf slot values).or (if slotOf entry.1 = some slot then some entry.2 else none) := by
  unfold lastFor
  rw [List.reverse_cons, List.find?_append, Option.map_or]
  by_cases h : slotOf entry.1 = some slot
  · simp [h]
  · simp [h]

/-- The last value that settings have for a slot. -/
def SystemConfig.settingFor (s : SystemConfig α) (slot : Fin slotCount) : Option α :=
  lastFor Slot.ofSetting? slot s.settings

def Assignment.valueFor (values : Assignment α) (slot : Fin slotCount) : Option α :=
  lastFor Slot.ofNat? slot values

namespace SlotVector

@[simp]
theorem get_put (v : SlotVector α) (slot other : Fin slotCount) (x : α) :
    (v.put slot x).get other = if slot = other then x else v.get other := by
  unfold get put
  by_cases h : slot = other
  · subst h
    simp
  · have hne : slot.val ≠ other.val := fun heq => h (Fin.ext heq)
    simp [h, hne]

theorem get_putAt (v : SlotVector α) (index : Nat) (slot : Fin slotCount) (x : α) :
    (v.putAt index x).get slot = if Slot.ofNat? index = some slot then x else v.get slot := by
  unfold putAt
  cases Slot.ofNat? index with
  | none => rfl
  | some other => simp

/-- Settings that all name a slot are taken in, and the last one for a slot counts. -/
theorem assign_get {v v' : SlotVector α} {settings : List (String × α)}
    (assigned : v.assign settings = .ok v') (slot : Fin slotCount) :
    v'.get slot = (lastFor Slot.ofSetting? slot settings).getD (v.get slot) := by
  induction settings generalizing v with
  | nil =>
    cases assigned
    rfl
  | cons entry settings ih =>
    unfold assign at assigned
    split at assigned
    next named hnamed =>
      rw [ih assigned, lastFor_cons, hnamed, get_put]
      cases lastFor Slot.ofSetting? slot settings with
      | some x => rfl
      | none =>
        by_cases h : named = slot
        · simp [h]
        · simp [h]
    next => cases assigned

theorem assign_isOk {settings : List (String × α)}
    (named : ∀ entry ∈ settings, (Slot.ofSetting? entry.1).isSome = true) (v : SlotVector α) :
    ∃ v', v.assign settings = .ok v' := by
  induction settings generalizing v with
  | nil => exact ⟨v, rfl⟩
  | cons entry settings ih =>
    obtain ⟨slot, hslot⟩ := Option.isSome_iff_exists.mp (named entry List.mem_cons_self)
    unfold assign
    rw [hslot]
    exact ih (fun other hother => named other (List.mem_cons_of_mem entry hother)) _

end SlotVector

theorem Assignment.writeInto_get (values : Assignment α) (v : SlotVector α) (slot : Fin slotCount) :
    (values.writeInto v).get slot = (values.valueFor slot).getD (v.get slot) := by
  unfold Assignment.writeInto Assignment.valueFor
  induction values generalizing v with
  | nil => rfl
  | cons entry values ih =>
    rw [List.foldl_cons, ih, lastFor_cons, SlotVector.get_putAt]
    cases lastFor Slot.ofNat? slot values with
    | some x => rfl
    | none =>
      by_cases h : Slot.ofNat? entry.1 = some slot
      · simp [h]
      · simp [h]

variable [Arith α]

/-- The slots of a configured instance: the size of the order array is the number of orders allowed, and
the id is that of the instance unless its settings have another value for the slot. -/
theorem SystemConfig.slots_get {s : SystemConfig α} {c : CommonConfig α} {v : SlotVector α}
    (made : s.slots c = .ok v) :
    v.get Slot.orderArraySize = v.get Slot.orderLimit ∧
      v.get Slot.orderLimit = (s.settingFor Slot.orderLimit).getD 1 ∧
      v.get Slot.instanceId = (s.settingFor Slot.instanceId).getD (Arith.ofInt s.instanceId) := by
  unfold SystemConfig.slots at made
  obtain ⟨assigned, hassigned, made⟩ := bind_eq_ok.mp made
  cases made
  have limit := SlotVector.assign_get hassigned Slot.orderLimit
  have id := SlotVector.assign_get hassigned Slot.instanceId
  simp +decide only [SlotVector.get_put, ↓reduceIte] at limit id ⊢
  exact ⟨trivial, limit, id⟩

theorem SystemConfig.slots_isOk {s : SystemConfig α}
    (named : ∀ entry ∈ s.settings, (Slot.ofSetting? entry.1).isSome = true) (c : CommonConfig α) :
    ∃ v, s.slots c = .ok v := by
  unfold SystemConfig.slots
  dsimp only
  generalize SlotVector.put _ _ _ = start
  obtain ⟨v, assigned⟩ := SlotVector.assign_isOk named start
  rw [assigned]
  exact ⟨v.put Slot.orderArraySize (v.get Slot.orderLimit), rfl⟩

namespace InstancePlan

variable {σ : Type}

/-- The slots of a candidate: its id is put in last, and any other slot holds the candidate's last value
for it, or that of the plan. -/
theorem candidate_get (s : InstancePlan α σ) (id : Int) (values : Assignment α) (slot : Fin slotCount) :
    (s.candidate id values).settings.get slot =
      if slot = Slot.instanceId then Arith.ofInt id
      else (values.valueFor slot).getD (s.settings.get slot) := by
  unfold candidate
  rw [SlotVector.get_put, Assignment.writeInto_get]
  exact if_congr eq_comm rfl rfl

end InstancePlan
end Backtest
