import Backtest.Engine.Host

namespace Backtest

/-- A call that reaches an engine; a start has the code with it that the engine answers. -/
inductive EngineCall (α : Type) where
  | start (request : EngineStart) (code : Int)
  | bar (shown : Snapshot α)
  | release (id : Int)

namespace EngineCall

variable {α : Type}

def instanceId : EngineCall α → Int
  | start r _ => r.instanceId
  | bar x => x.instanceId
  | release id => id

def opens : EngineCall α → Bool
  | start _ code => code = EngineCode.success.toInt
  | _ => false

def closes : EngineCall α → Bool
  | release _ => true
  | _ => false

end EngineCall

/-- Calls in their order, each with the engine that it reaches. -/
abbrev CallLog (α σ : Type) := List (Engine α σ × EngineCall α)

variable {α σ : Type}

/-- An engine that does what it does and writes its calls down beside the state it acts on. -/
def Engine.recorded (e : Engine α σ) : Engine α (σ × CallLog α σ) where
  version := e.version
  start w r := (((e.start w.1 r).1, w.2 ++ [(e, .start r (e.start w.1 r).2)]), (e.start w.1 r).2)
  call w x := (((e.call w.1 x).1, w.2 ++ [(e, .bar x)]), (e.call w.1 x).2)
  release w id := (e.release w.1 id, w.2 ++ [(e, .release id)])

namespace CallLog

def about (id : Int) (log : CallLog α σ) : CallLog α σ :=
  log.filter fun c => c.2.instanceId = id

def opened (id : Int) (log : CallLog α σ) : Nat := (log.about id).countP fun c => c.2.opens

def closed (id : Int) (log : CallLog α σ) : Nat := (log.about id).countP fun c => c.2.closes

theorem about_append (id : Int) (log more : CallLog α σ) :
    about id (log ++ more) = about id log ++ about id more :=
  List.filter_append log more

theorem about_eq {id : Int} {calls : CallLog α σ} (h : ∀ c ∈ calls, c.2.instanceId = id) :
    about id calls = calls :=
  List.filter_eq_self.mpr fun c hc => decide_eq_true (h c hc)

theorem about_other {id other : Int} (hne : other ≠ id) {calls : CallLog α σ}
    (h : ∀ c ∈ calls, c.2.instanceId = other) : about id calls = [] :=
  List.filter_eq_nil_iff.mpr fun c hc => by simpa [h c hc] using hne

def starts (e : Engine α σ) (r : EngineStart) (codes : List Int) : CallLog α σ :=
  codes.map fun code => (e, .start r code)

theorem starts_append (e : Engine α σ) (r : EngineStart) (codes more : List Int) :
    starts e r (codes ++ more) = starts e r codes ++ starts e r more :=
  List.map_append

theorem starts_instanceId {e : Engine α σ} {r : EngineStart} {codes : List Int} :
    ∀ c ∈ starts e r codes, c.2.instanceId = r.instanceId := by
  intro c hc
  obtain ⟨code, -, rfl⟩ := List.mem_map.mp hc
  rfl

end CallLog

/-- Calls that make up sessions: a session begins with a start that succeeds, goes on with bars and ends
with a release, all of them at one engine, and starts that fail stand between sessions. The last session
may still be going on, at the engine that is given. -/
inductive Sessions : Option (Engine α σ) → CallLog α σ → Prop
  | empty : Sessions none []
  | failed {log : CallLog α σ} {e : Engine α σ} {r : EngineStart} {code : Int} : Sessions none log →
      code ≠ EngineCode.success.toInt → Sessions none (log ++ [(e, .start r code)])
  | start {log : CallLog α σ} {e : Engine α σ} {r : EngineStart} : Sessions none log →
      Sessions (some e) (log ++ [(e, .start r EngineCode.success.toInt)])
  | bar {log : CallLog α σ} {e : Engine α σ} {x : Snapshot α} : Sessions (some e) log →
      Sessions (some e) (log ++ [(e, .bar x)])
  | release {log : CallLog α σ} {e : Engine α σ} {id : Int} : Sessions (some e) log →
      Sessions none (log ++ [(e, .release id)])

namespace Sessions

theorem failures {log : CallLog α σ} (h : Sessions none log) (e : Engine α σ) (r : EngineStart)
    {codes : List Int} (failed : ∀ code ∈ codes, code ≠ EngineCode.success.toInt) :
    Sessions none (log ++ CallLog.starts e r codes) := by
  induction codes generalizing log with
  | nil => simpa [CallLog.starts] using h
  | cons code codes ih =>
    have first := Sessions.failed (e := e) (r := r) h (failed code List.mem_cons_self)
    have rest := ih first fun code hc => failed code (List.mem_cons_of_mem _ hc)
    simpa [CallLog.starts] using rest

theorem counts {e? : Option (Engine α σ)} {log : CallLog α σ} (h : Sessions e? log) :
    log.countP (fun c => c.2.opens) =
      log.countP (fun c => c.2.closes) + if e?.isSome then 1 else 0 := by
  induction h with
  | empty => rfl
  | failed _ hcode ih => simpa [List.countP_append, EngineCall.opens, EngineCall.closes, hcode] using ih
  | start _ ih => simpa [List.countP_append, EngineCall.opens, EngineCall.closes] using ih
  | bar _ ih => simpa [List.countP_append, EngineCall.opens, EngineCall.closes] using ih
  | release _ ih => simpa [List.countP_append, EngineCall.opens, EngineCall.closes] using ih

end Sessions

namespace EngineHost

section Live

variable {h : EngineHost α σ} {id : Int}

theorem engine?_of_not_live (idle : h.isLive id = false) : h.engine? id = none :=
  Option.isNone_iff_eq_none.mp (Option.isSome_eq_false_iff.mp idle)

theorem call_of_not_live {x : Snapshot α} (idle : h.isLive x.instanceId = false) :
    h.call x = (h, .error (.unknownInstance x.instanceId)) := by
  unfold call
  rw [engine?_of_not_live idle]

theorem release_of_not_live (idle : h.isLive id = false) : h.release id = h := by
  unfold release
  rw [engine?_of_not_live idle]

theorem start_of_live {e : Engine α σ} {r : EngineStart} (live : h.isLive r.instanceId = true) :
    h.start e r = (h, some (.duplicateInstance r.instanceId)) := by
  unfold start
  rw [if_pos live]

theorem lookup_filter {β : Type} (id other : Int) (live : List (Int × β)) :
    (live.filter (·.1 ≠ id)).lookup other = if other = id then none else live.lookup other := by
  induction live with
  | nil => simp
  | cons entry live ih =>
    obtain ⟨key, x⟩ := entry
    by_cases hkey : key = id
    · rw [List.filter_cons_of_neg (by simpa using hkey), ih]
      subst hkey
      split
      next => rfl
      next hne => rw [List.lookup_cons, beq_eq_false_iff_ne.mpr hne]
    · rw [List.filter_cons_of_pos (by simpa using hkey), List.lookup_cons, List.lookup_cons, ih]
      by_cases hother : other = key
      · subst hother
        simp [hkey]
      · simp [beq_eq_false_iff_ne.mpr hother]

theorem release_engine? (other : Int) :
    (h.release id).engine? other = if other = id then none else h.engine? other := by
  unfold release
  split
  next hnone =>
    split
    next heq => rw [heq, hnone]
    next => rfl
  next => exact lookup_filter id other h.live

theorem release_live : (h.release id).live = h.live.filter (·.1 ≠ id) := by
  unfold release
  split
  next hnone =>
    have absent := List.lookup_eq_none_iff.mp hnone
    refine (List.filter_eq_self.mpr fun entry hentry => ?_).symm
    exact decide_eq_true (Ne.symm (bne_iff_ne.mp (absent entry hentry)))
  next => rfl

theorem foldl_release_live (ids : List Int) (h : EngineHost α σ) :
    (ids.foldl release h).live = h.live.filter (·.1 ∉ ids) := by
  induction ids generalizing h with
  | nil => exact (List.filter_eq_self.mpr fun _ _ => by simp).symm
  | cons id ids ih =>
    rw [List.foldl_cons, ih, release_live, List.filter_filter]
    refine List.filter_congr fun entry _ => ?_
    simp [Bool.and_comm]

theorem releaseAll_live (h : EngineHost α σ) : h.releaseAll.live = [] := by
  unfold releaseAll
  rw [foldl_release_live]
  refine List.filter_eq_nil_iff.mpr fun entry hentry => ?_
  simpa using List.mem_map_of_mem (f := (·.1)) hentry

theorem start_waitRetries (h : EngineHost α σ) (e : Engine α σ) (r : EngineStart) :
    (h.start e r).1.waitRetries = h.waitRetries := by
  unfold start
  split
  next => rfl
  next =>
    dsimp only
    split <;> rfl

theorem call_waitRetries (h : EngineHost α σ) (x : Snapshot α) :
    (h.call x).1.waitRetries = h.waitRetries := by
  unfold call
  split <;> rfl

theorem release_waitRetries (h : EngineHost α σ) (id : Int) :
    (h.release id).waitRetries = h.waitRetries := by
  unfold release
  split <;> rfl

theorem releaseAll_waitRetries (h : EngineHost α σ) :
    h.releaseAll.waitRetries = h.waitRetries := by
  unfold releaseAll
  generalize h.live.map (·.1) = ids
  induction ids generalizing h with
  | nil => rfl
  | cons id ids ih => rw [List.foldl_cons, ih, release_waitRetries]

end Live

/-- An engine is asked to start until it answers something else than to wait, or no retry is left. -/
theorem startEngine_recorded (e : Engine α σ) (r : EngineStart) (retries : Nat)
    (w : σ × CallLog α σ) :
    ∃ waits : Nat, waits ≤ retries ∧
      (startEngine e.recorded r retries w).1.2 = w.2 ++ CallLog.starts e r
        (List.replicate waits EngineCode.waitForInit.toInt ++ [(startEngine e.recorded r retries w).2]) ∧
      ((startEngine e.recorded r retries w).2 = EngineCode.waitForInit.toInt → waits = retries) := by
  induction retries generalizing w with
  | zero => exact ⟨0, Nat.le_refl 0, rfl, fun _ => rfl⟩
  | succ retries ih =>
    unfold startEngine
    dsimp only
    split
    next hwait =>
      obtain ⟨waits, hle, hlog, hlast⟩ := ih (e.recorded.start w r).1
      refine ⟨waits + 1, Nat.succ_le_succ hle, ?_, fun h => congrArg (· + 1) (hlast h)⟩
      rw [hlog]
      change (w.2 ++ [(e, .start r (e.start w.1 r).2)]) ++ _ = _
      rw [show (e.start w.1 r).2 = _ from hwait, List.replicate_succ]
      simp [CallLog.starts]
    next hcode => exact ⟨0, Nat.zero_le _, rfl, fun h => absurd h hcode⟩

/-- A start of an instance that is not live reaches its engine at least once, and at most once more than
there are retries. The last answer decides. -/
theorem start_recorded {h : EngineHost α (σ × CallLog α σ)} (e : Engine α σ) {r : EngineStart}
    (idle : h.isLive r.instanceId = false) :
    ∃ waits last, waits ≤ h.waitRetries ∧
      (last = EngineCode.waitForInit.toInt → waits = h.waitRetries) ∧
      (h.start e.recorded r).1.world.2 = h.world.2 ++ CallLog.starts e r
        (List.replicate waits EngineCode.waitForInit.toInt ++ [last]) ∧
      (last = EngineCode.success.toInt → (h.start e.recorded r).2 = none ∧
        (h.start e.recorded r).1.live = (r.instanceId, e.recorded) :: h.live) ∧
      (last ≠ EngineCode.success.toInt →
        (h.start e.recorded r).2 = some (.initFailed r.instanceId last) ∧
        (h.start e.recorded r).1.live = h.live) := by
  obtain ⟨waits, hle, hlog, hlast⟩ := startEngine_recorded e r h.waitRetries h.world
  refine ⟨waits, _, hle, hlast, ?_⟩
  unfold start
  rw [if_neg (by simp [idle])]
  dsimp only
  split
  next hcode => exact ⟨hlog, fun _ => ⟨rfl, rfl⟩, fun hne => absurd hcode hne⟩
  next hcode => exact ⟨hlog, fun heq => absurd heq hcode, fun _ => ⟨rfl, rfl⟩⟩

/-- The calls that a host has made since some point in time are sessions, and the open ones are those of
the live instances. -/
structure InSessions (before calls : CallLog α σ) (h : EngineHost α (σ × CallLog α σ)) : Prop where
  log : h.world.2 = before ++ calls
  sessions : ∀ id, ∃ e? : Option (Engine α σ),
    h.engine? id = e?.map Engine.recorded ∧ Sessions e? (calls.about id)

namespace InSessions

variable {before calls : CallLog α σ} {h : EngineHost α (σ × CallLog α σ)}

theorem of_idle (idle : h.live = []) : InSessions h.world.2 [] h where
  log := (List.append_nil _).symm
  sessions id := ⟨none, by rw [engine?, idle]; rfl, .empty⟩

/-- Calls about one instance leave the sessions of the others alone. -/
theorem extend (s : InSessions before calls h) (id : Int) {h' : EngineHost α (σ × CallLog α σ)}
    {more : CallLog α σ} (log : h'.world.2 = h.world.2 ++ more)
    (own : ∀ c ∈ more, c.2.instanceId = id)
    (others : ∀ other, other ≠ id → h'.engine? other = h.engine? other)
    (session : ∃ e? : Option (Engine α σ), h'.engine? id = e?.map Engine.recorded ∧
      Sessions e? (calls.about id ++ more)) :
    InSessions before (calls ++ more) h' where
  log := by rw [log, s.log, List.append_assoc]
  sessions other := by
    rw [CallLog.about_append]
    by_cases hother : other = id
    · subst hother
      rwa [CallLog.about_eq own]
    · rw [CallLog.about_other (Ne.symm hother) own, List.append_nil, others other hother]
      exact s.sessions other

theorem extend_nil (s : InSessions before calls h) : InSessions before (calls ++ []) h := by
  rwa [List.append_nil]

theorem idle (s : InSessions before calls h) {id : Int} (hnone : h.engine? id = none) :
    Sessions none (calls.about id) := by
  obtain ⟨e?, hengine, sessions⟩ := s.sessions id
  have : e? = none := by simpa [hnone] using hengine.symm
  rwa [this] at sessions

theorem start (s : InSessions before calls h) (e : Engine α σ) (r : EngineStart) :
    ∃ more, InSessions before (calls ++ more) (h.start e.recorded r).1 ∧
      ∀ c ∈ more, c.2.closes = false := by
  cases hlive : h.isLive r.instanceId with
  | true =>
    rw [start_of_live hlive]
    exact ⟨[], s.extend_nil, fun c hc => absurd hc List.not_mem_nil⟩
  | false =>
    obtain ⟨waits, last, -, -, hlog, hsuccess, hfailure⟩ := start_recorded e hlive
    have hnone := engine?_of_not_live hlive
    have waited : Sessions none (calls.about r.instanceId ++ CallLog.starts e r
        (List.replicate waits EngineCode.waitForInit.toInt)) :=
      (s.idle hnone).failures e r fun code hcode => by rw [List.eq_of_mem_replicate hcode]; decide
    refine ⟨_, s.extend r.instanceId hlog CallLog.starts_instanceId ?_ ?_, ?_⟩
    · intro other hother
      unfold engine?
      by_cases hlast : last = EngineCode.success.toInt
      · rw [(hsuccess hlast).2, List.lookup_cons, beq_eq_false_iff_ne.mpr hother]
      · rw [(hfailure hlast).2]
    · rw [CallLog.starts_append, ← List.append_assoc]
      by_cases hlast : last = EngineCode.success.toInt
      · refine ⟨some e, ?_, ?_⟩
        · rw [engine?, (hsuccess hlast).2]
          exact List.lookup_cons_self
        · rw [hlast]
          exact .start waited
      · refine ⟨none, ?_, .failed waited hlast⟩
        rw [engine?, (hfailure hlast).2]
        exact hnone
    · intro c hc
      obtain ⟨code, -, rfl⟩ := List.mem_map.mp hc
      rfl

theorem call (s : InSessions before calls h) (x : Snapshot α) :
    ∃ more, InSessions before (calls ++ more) (h.call x).1 ∧ ∀ c ∈ more, c.2.closes = false := by
  obtain ⟨e?, hengine, sessions⟩ := s.sessions x.instanceId
  unfold EngineHost.call
  rw [hengine]
  cases e? with
  | none => exact ⟨[], s.extend_nil, fun c hc => absurd hc List.not_mem_nil⟩
  | some e =>
    refine ⟨[(e, .bar x)], s.extend x.instanceId rfl ?_ (fun _ _ => rfl) ?_, ?_⟩
    · exact fun c hc => by rw [List.mem_singleton.mp hc]; rfl
    · exact ⟨some e, hengine, .bar sessions⟩
    · exact fun c hc => by rw [List.mem_singleton.mp hc]; rfl

theorem release (s : InSessions before calls h) (id : Int) :
    ∃ more, InSessions before (calls ++ more) (h.release id) ∧ ∀ c ∈ more, c.2.opens = false := by
  obtain ⟨e?, hengine, sessions⟩ := s.sessions id
  have others : ∀ other, other ≠ id → (h.release id).engine? other = h.engine? other :=
    fun other hother => by rw [release_engine?, if_neg hother]
  have own : (h.release id).engine? id = none := by rw [release_engine?, if_pos rfl]
  unfold EngineHost.release at others own ⊢
  rw [hengine] at others own ⊢
  cases e? with
  | none => exact ⟨[], s.extend_nil, fun c hc => absurd hc List.not_mem_nil⟩
  | some e =>
    refine ⟨[(e, .release id)], s.extend id rfl ?_ others ⟨none, own, .release sessions⟩, ?_⟩
    · exact fun c hc => by rw [List.mem_singleton.mp hc]; rfl
    · exact fun c hc => by rw [List.mem_singleton.mp hc]; rfl

theorem releaseAll (s : InSessions before calls h) :
    ∃ more, InSessions before (calls ++ more) h.releaseAll ∧ ∀ c ∈ more, c.2.opens = false := by
  unfold EngineHost.releaseAll
  generalize h.live.map (·.1) = ids
  induction ids generalizing calls h with
  | nil => exact ⟨[], s.extend_nil, fun c hc => absurd hc List.not_mem_nil⟩
  | cons id ids ih =>
    obtain ⟨first, hfirst, quiet⟩ := s.release id
    obtain ⟨rest, hrest, quiet'⟩ := ih hfirst
    refine ⟨first ++ rest, by rwa [← List.append_assoc], fun c hc => ?_⟩
    exact (List.mem_append.mp hc).elim (quiet c) (quiet' c)

end InSessions

/-- The calls that a host has made since some point in time are sessions, and no session has been ended
among them. -/
def Serving (before : CallLog α σ) (h : EngineHost α (σ × CallLog α σ)) : Prop :=
  ∃ calls, InSessions before calls h ∧ ∀ c ∈ calls, c.2.closes = false

namespace Serving

variable {before : CallLog α σ} {h : EngineHost α (σ × CallLog α σ)}

theorem start (s : Serving before h) (e : Engine α σ) (r : EngineStart) :
    Serving before (h.start e.recorded r).1 := by
  obtain ⟨calls, sessions, unclosed⟩ := s
  obtain ⟨more, sessions', unclosed'⟩ := sessions.start e r
  exact ⟨calls ++ more, sessions', fun c hc => (List.mem_append.mp hc).elim (unclosed c) (unclosed' c)⟩

theorem call (s : Serving before h) (x : Snapshot α) : Serving before (h.call x).1 := by
  obtain ⟨calls, sessions, unclosed⟩ := s
  obtain ⟨more, sessions', unclosed'⟩ := sessions.call x
  exact ⟨calls ++ more, sessions', fun c hc => (List.mem_append.mp hc).elim (unclosed c) (unclosed' c)⟩

/-- Once everything is released, each instance that was taken on has been let go of, and was taken on but
once. -/
theorem releaseAll (s : Serving before h) :
    ∃ calls, h.releaseAll.world.2 = before ++ calls ∧ ∀ id, Sessions none (calls.about id) ∧
      calls.closed id = calls.opened id ∧ calls.opened id ≤ 1 := by
  obtain ⟨calls, sessions, unclosed⟩ := s
  obtain ⟨more, sessions', unopened⟩ := sessions.releaseAll
  refine ⟨calls ++ more, sessions'.log, fun id => ?_⟩
  have last : Sessions none (CallLog.about id (calls ++ more)) := by
    refine sessions'.idle ?_
    rw [engine?, releaseAll_live]
    rfl
  -- before the release no session has ended, so that at most the open one has begun
  have balanced := last.counts
  obtain ⟨e?, -, open?⟩ := sessions.sessions id
  have once := open?.counts
  have none_closed : (calls.about id).countP (fun c => c.2.closes) = 0 :=
    List.countP_eq_zero.mpr fun c hc => by simp [unclosed c (List.mem_filter.mp hc).1]
  have none_opened : (more.about id).countP (fun c => c.2.opens) = 0 :=
    List.countP_eq_zero.mpr fun c hc => by simp [unopened c (List.mem_filter.mp hc).1]
  have opened : CallLog.opened id (calls ++ more) = (calls.about id).countP (fun c => c.2.opens) := by
    rw [CallLog.opened, CallLog.about_append, List.countP_append, none_opened, Nat.add_zero]
  refine ⟨last, balanced.symm, ?_⟩
  rw [opened, once, none_closed]
  split <;> decide

end Serving

end EngineHost

inductive HostAct (α σ : Type) where
  | start (e : Engine α σ) (request : EngineStart)
  | call (shown : Snapshot α)
  | release (id : Int)
  | releaseAll

namespace EngineHost

def act (h : EngineHost α (σ × CallLog α σ)) : HostAct α σ → EngineHost α (σ × CallLog α σ)
  | .start e r => (h.start e.recorded r).1
  | .call x => (h.call x).1
  | .release id => h.release id
  | .releaseAll => h.releaseAll

def actAll (h : EngineHost α (σ × CallLog α σ)) (acts : List (HostAct α σ)) :
    EngineHost α (σ × CallLog α σ) := acts.foldl act h

variable {before calls : CallLog α σ} {h : EngineHost α (σ × CallLog α σ)}

theorem InSessions.act (s : InSessions before calls h) (a : HostAct α σ) :
    ∃ more, InSessions before (calls ++ more) (h.act a) := by
  cases a with
  | start e r => exact (s.start e r).imp fun _ => And.left
  | call x => exact (s.call x).imp fun _ => And.left
  | release id => exact (s.release id).imp fun _ => And.left
  | releaseAll => exact s.releaseAll.imp fun _ => And.left

theorem InSessions.actAll (s : InSessions before calls h) (acts : List (HostAct α σ)) :
    ∃ more, InSessions before (calls ++ more) (h.actAll acts) := by
  induction acts generalizing calls h with
  | nil => exact ⟨[], s.extend_nil⟩
  | cons a acts ih =>
    obtain ⟨first, hfirst⟩ := s.act a
    obtain ⟨rest, hrest⟩ := ih hfirst
    exact ⟨first ++ rest, by rwa [← List.append_assoc]⟩

theorem actAll_waitRetries (h : EngineHost α (σ × CallLog α σ)) (acts : List (HostAct α σ)) :
    (h.actAll acts).waitRetries = h.waitRetries := by
  induction acts generalizing h with
  | nil => rfl
  | cons a acts ih =>
    refine (ih (h.act a)).trans ?_
    cases a with
    | start e r => exact start_waitRetries h _ r
    | call x => exact call_waitRetries h x
    | release id => exact release_waitRetries h id
    | releaseAll => exact releaseAll_waitRetries h

/-- From an idle host on, the calls about each instance are sessions, whatever was asked for. -/
theorem actAll_sessions (world : σ) (retries : Nat) (acts : List (HostAct α σ)) (id : Int) :
    ∃ e? : Option (Engine α σ),
      ((empty (world, []) retries).actAll acts).engine? id = e?.map Engine.recorded ∧
      Sessions e? (CallLog.about id ((empty (world, []) retries).actAll acts).world.2) := by
  have idle : InSessions [] [] (empty (α := α) (world, ([] : CallLog α σ)) retries) :=
    .of_idle (h := empty (world, []) retries) rfl
  obtain ⟨calls, s⟩ := idle.actAll acts
  rw [s.log]
  exact s.sessions id

end EngineHost
end Backtest
