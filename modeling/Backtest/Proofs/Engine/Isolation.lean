import Backtest.Engine.Host
import Backtest.Engine.Script
import Mathlib.Data.List.Induction

namespace Backtest

/-- What an engine is asked: to take on an instance, or to answer one of its bars. -/
inductive Question (α : Type) where
  | start (request : EngineStart)
  | bar (shown : Snapshot α)

inductive Reply (α : Type) where
  | code (code : Int)
  | answer (answer : EngineAnswer α)

def Question.instanceId {α : Type} : Question α → Int
  | .start r => r.instanceId
  | .bar x => x.instanceId

variable {α σ : Type}

def Engine.ask (e : Engine α σ) (world : σ) : Question α → σ × Reply α
  | .start r => ((e.start world r).1, .code (e.start world r).2)
  | .bar x => ((e.call world x).1, .answer (e.call world x).2)

/-- The state of the engines once they have been asked some questions in turn. -/
def afterwards (world : σ) (asked : List (Engine α σ × Question α)) : σ :=
  asked.foldl (fun w a => (a.1.ask w a.2).1) world

def about (id : Int) (asked : List (Engine α σ × Question α)) : List (Engine α σ × Question α) :=
  asked.filter fun a => a.2.instanceId = id

/-- The questions about each instance go to its own engine. -/
def Addressed (served : List (Int × Engine α σ)) (asked : List (Engine α σ × Question α)) : Prop :=
  ∀ a ∈ asked, (a.2.instanceId, a.1) ∈ served

/-- The reply to a question about an instance depends on nothing but what was asked about that instance
before. -/
def Isolated (served : List (Int × Engine α σ)) (world : σ) : Prop :=
  ∀ asked₁ asked₂, Addressed served asked₁ → Addressed served asked₂ →
    ∀ (q : Question α) (e : Engine α σ), (q.instanceId, e) ∈ served →
      about q.instanceId asked₁ = about q.instanceId asked₂ →
      (e.ask (afterwards world asked₁) q).2 = (e.ask (afterwards world asked₂) q).2

/-- Two states of the engines before which the same was asked about an instance. -/
def SameTo (served : List (Int × Engine α σ)) (world : σ) (id : Int) (w₁ w₂ : σ) : Prop :=
  ∃ asked₁ asked₂, Addressed served asked₁ ∧ Addressed served asked₂ ∧
    about id asked₁ = about id asked₂ ∧
    w₁ = afterwards world asked₁ ∧ w₂ = afterwards world asked₂

theorem afterwards_concat (world : σ) (asked : List (Engine α σ × Question α)) (e : Engine α σ)
    (q : Question α) :
    afterwards world (asked ++ [(e, q)]) = (e.ask (afterwards world asked) q).1 := by
  unfold afterwards
  rw [List.foldl_append, List.foldl_cons, List.foldl_nil]

theorem about_concat (id : Int) (asked : List (Engine α σ × Question α)) (e : Engine α σ)
    (q : Question α) :
    about id (asked ++ [(e, q)]) =
      about id asked ++ if q.instanceId = id then [(e, q)] else [] := by
  unfold about
  rw [List.filter_append]
  by_cases h : q.instanceId = id
  · simp [h]
  · simp [h]

variable {served : List (Int × Engine α σ)} {world : σ} {id : Int} {w₁ w₂ : σ}

theorem Addressed.concat {asked : List (Engine α σ × Question α)} (h : Addressed served asked)
    {e : Engine α σ} {q : Question α} (hq : (q.instanceId, e) ∈ served) :
    Addressed served (asked ++ [(e, q)]) := by
  intro a ha
  rcases List.mem_append.mp ha with ha | ha
  · exact h a ha
  · rw [List.mem_singleton.mp ha]
    exact hq

namespace SameTo

theorem refl (served : List (Int × Engine α σ)) (world : σ) (id : Int) :
    SameTo served world id world world :=
  ⟨[], [], fun _ h => absurd h List.not_mem_nil, fun _ h => absurd h List.not_mem_nil, rfl, rfl, rfl⟩

/-- A question about the instance gets one reply in both states, and leaves them the same to it. -/
theorem ask (h : SameTo served world id w₁ w₂) (isolated : Isolated served world)
    {e : Engine α σ} {q : Question α} (hid : q.instanceId = id) (hq : (q.instanceId, e) ∈ served) :
    (e.ask w₁ q).2 = (e.ask w₂ q).2 ∧ SameTo served world id (e.ask w₁ q).1 (e.ask w₂ q).1 := by
  subst hid
  obtain ⟨asked₁, asked₂, addressed₁, addressed₂, habout, rfl, rfl⟩ := h
  refine ⟨isolated asked₁ asked₂ addressed₁ addressed₂ q e hq habout, asked₁ ++ [(e, q)],
    asked₂ ++ [(e, q)], addressed₁.concat hq, addressed₂.concat hq, ?_, ?_, ?_⟩
  · rw [about_concat, about_concat, habout]
  · rw [afterwards_concat]
  · rw [afterwards_concat]

theorem ask_other (h : SameTo served world id w₁ w₂) {e : Engine α σ} {q : Question α}
    (hid : q.instanceId ≠ id) (hq : (q.instanceId, e) ∈ served) :
    SameTo served world id (e.ask w₁ q).1 w₂ := by
  obtain ⟨asked₁, asked₂, addressed₁, addressed₂, habout, rfl, rfl⟩ := h
  refine ⟨asked₁ ++ [(e, q)], asked₂, addressed₁.concat hq, addressed₂, ?_, ?_, rfl⟩
  · rw [about_concat, if_neg hid, List.append_nil, habout]
  · rw [afterwards_concat]

theorem startEngine (h : SameTo served world id w₁ w₂) (isolated : Isolated served world)
    {e : Engine α σ} {r : EngineStart} (hid : r.instanceId = id) (hr : (r.instanceId, e) ∈ served)
    (retries : Nat) :
    (EngineHost.startEngine e r retries w₁).2 = (EngineHost.startEngine e r retries w₂).2 ∧
      SameTo served world id (EngineHost.startEngine e r retries w₁).1
        (EngineHost.startEngine e r retries w₂).1 := by
  induction retries generalizing w₁ w₂ with
  | zero =>
    obtain ⟨hreply, same⟩ := h.ask isolated (q := .start r) hid hr
    exact ⟨Reply.code.inj hreply, same⟩
  | succ retries ih =>
    obtain ⟨hreply, same⟩ := h.ask isolated (q := .start r) hid hr
    have hcode : (e.start w₁ r).2 = (e.start w₂ r).2 := Reply.code.inj hreply
    unfold EngineHost.startEngine
    dsimp only
    rw [hcode]
    split
    next => exact ih same
    next => exact ⟨rfl, same⟩

theorem startEngine_other (h : SameTo served world id w₁ w₂) {e : Engine α σ} {r : EngineStart}
    (hid : r.instanceId ≠ id) (hr : (r.instanceId, e) ∈ served) (retries : Nat) :
    SameTo served world id (EngineHost.startEngine e r retries w₁).1 w₂ := by
  induction retries generalizing w₁ with
  | zero => exact h.ask_other (q := .start r) hid hr
  | succ retries ih =>
    have same := h.ask_other (q := .start r) hid hr
    unfold EngineHost.startEngine
    dsimp only
    split
    next => exact ih same
    next => exact same

end SameTo

namespace EngineHost

/-- Two hosts that are the same to an instance. -/
structure Mirrors (served : List (Int × Engine α σ)) (world : σ) (id : Int)
    (h₁ h₂ : EngineHost α σ) : Prop where
  world : SameTo served world id h₁.world h₂.world
  engine : h₁.engine? id = h₂.engine? id
  retries : h₁.waitRetries = h₂.waitRetries

theorem Mirrors.refl (served : List (Int × Engine α σ)) (id : Int) (h : EngineHost α σ) :
    Mirrors served h.world id h h :=
  ⟨.refl served h.world id, rfl, rfl⟩

theorem start_engine?_other {h : EngineHost α σ} {e : Engine α σ} {r : EngineStart}
    (hid : r.instanceId ≠ id) : (h.start e r).1.engine? id = h.engine? id := by
  unfold start
  split
  next => rfl
  next =>
    dsimp only
    split
    next =>
      unfold engine?
      rw [List.lookup_cons, beq_eq_false_iff_ne.mpr hid.symm]
    next => rfl

variable {h₁ h₂ : EngineHost α σ}

theorem Mirrors.isLive (h : Mirrors served world id h₁ h₂) : h₁.isLive id = h₂.isLive id := by
  unfold EngineHost.isLive
  rw [h.engine]

theorem Mirrors.start (h : Mirrors served world id h₁ h₂) (isolated : Isolated served world)
    {e : Engine α σ} {r : EngineStart} (hid : r.instanceId = id) (hr : (r.instanceId, e) ∈ served) :
    (h₁.start e r).2 = (h₂.start e r).2 ∧
      Mirrors served world id (h₁.start e r).1 (h₂.start e r).1 := by
  obtain ⟨hcode, same⟩ := h.world.startEngine isolated hid hr h₁.waitRetries
  have hlive := h.isLive
  unfold EngineHost.start
  rw [hid, ← hlive, ← h.retries]
  split
  next => exact ⟨rfl, h⟩
  next =>
    dsimp only
    rw [← hcode]
    split
    next =>
      exact ⟨rfl, same, List.lookup_cons_self.trans List.lookup_cons_self.symm, rfl⟩
    next => exact ⟨rfl, same, h.engine, rfl⟩

theorem Mirrors.start_other (h : Mirrors served world id h₁ h₂) {e : Engine α σ} {r : EngineStart}
    (hid : r.instanceId ≠ id) (hr : (r.instanceId, e) ∈ served) :
    Mirrors served world id (h₁.start e r).1 h₂ := by
  have same := h.world.startEngine_other hid hr h₁.waitRetries
  have hengine := start_engine?_other (h := h₁) (e := e) hid
  unfold EngineHost.start at hengine ⊢
  split
  next => exact h
  next hlive =>
    rw [if_neg hlive] at hengine
    dsimp only at hengine ⊢
    split
    next hcode =>
      rw [if_pos hcode] at hengine
      exact ⟨same, hengine.trans h.engine, h.retries⟩
    next => exact ⟨same, h.engine, h.retries⟩

theorem Mirrors.call (h : Mirrors served world id h₁ h₂) (isolated : Isolated served world)
    {x : Snapshot α} (hid : x.instanceId = id) (hx : ∀ e, h₁.engine? id = some e → (id, e) ∈ served) :
    (h₁.call x).2 = (h₂.call x).2 ∧ Mirrors served world id (h₁.call x).1 (h₂.call x).1 := by
  have hengine := h.engine
  unfold EngineHost.call
  rw [hid, ← hengine]
  cases he : h₁.engine? id with
  | none => exact ⟨rfl, h⟩
  | some e =>
    have mem : (x.instanceId, e) ∈ served := hid ▸ hx e he
    obtain ⟨hreply, same⟩ := h.world.ask isolated (q := .bar x) hid mem
    exact ⟨congrArg Except.ok (Reply.answer.inj hreply), same, hengine, h.retries⟩

theorem Mirrors.call_other (h : Mirrors served world id h₁ h₂) {x : Snapshot α}
    (hid : x.instanceId ≠ id)
    (hx : ∀ e, h₁.engine? x.instanceId = some e → (x.instanceId, e) ∈ served) :
    Mirrors served world id (h₁.call x).1 h₂ := by
  unfold EngineHost.call
  cases he : h₁.engine? x.instanceId with
  | none => exact h
  | some e => exact ⟨h.world.ask_other (q := .bar x) hid (hx e he), h.engine, h.retries⟩

end EngineHost

namespace Script

/-- Scripted engines that do not ask to wait keep their instances apart. -/
theorem isolated [Arith α] {served : List (Int × Engine α (ScriptLog α))} {log : ScriptLog α}
    (scripted : ∀ s ∈ served, ∃ script : Script α, s.2 = script.engine) (noWaits : log.waitsLeft = 0) :
    Isolated served log := by
  -- the log grows with every question, but no answer is taken from what has been logged
  have still : ∀ asked, Addressed served asked → (afterwards log asked).waitsLeft = 0 := by
    intro asked addressed
    induction asked using List.reverseRecOn with
    | nil => exact noWaits
    | append_singleton asked a ih =>
      obtain ⟨e, q⟩ := a
      have before := ih fun b hb => addressed b (List.mem_append_left _ hb)
      obtain ⟨script, rfl⟩ :=
        scripted _ (addressed _ (List.mem_append_right asked List.mem_cons_self))
      rw [afterwards_concat]
      cases q with
      | start r => simp [Engine.ask, engine, startAnswer, before]
      | bar x => exact before
  intro asked₁ asked₂ addressed₁ addressed₂ q e hq _
  obtain ⟨script, rfl⟩ := scripted _ hq
  cases q with
  | start r =>
    simp [Engine.ask, engine, startAnswer, still _ addressed₁, still _ addressed₂]
  | bar x => rfl

end Script
end Backtest
