import Backtest.Proofs.Search.Exploration
import Backtest.Search.Basic

namespace Backtest

/-- What a trial comes to for candidates that run in order, and what they leave behind. -/
def CandidateTrial.inOrder {α σ : Type} (run : CandidateTrial α σ) :
    σ → List (Assignment α) → σ × List (Except (Fault α) (RunFigures α))
  | shared, [] => (shared, [])
  | shared, c :: cs =>
    let (shared, r) := run shared c
    let (shared, rs) := inOrder run shared cs
    (shared, r :: rs)

def Evaluation.announced {α : Type} (total : Nat) (e : Evaluation α) : SearchEvent α :=
  ⟨e.iteration, total, e.parameters, e.result⟩

def rowsWith {α τ : Type} [RowWriter α τ] (rows : τ) (es : List (Evaluation α)) : τ :=
  es.foldl (fun rows e => (RowWriter.addRow rows e.iteration e.parameters e.result).1) rows

variable {α σ τ : Type} [Arith α] [RowWriter α τ]

/-- A search has delivered evaluations between two states: each ran, has the next number and a row, and was
announced, in order. -/
structure Delivered (run : CandidateTrial α σ) (s : SearchState α σ τ) (es : List (Evaluation α))
    (s' : SearchState α σ τ) : Prop where
  ran : run.inOrder s.shared (es.map (·.parameters)) = (s'.shared, es.map fun e => .ok e.result)
  numbered : es.map (·.iteration) = List.range' (s.sink.iterations + 1) es.length
  counted : s'.sink.iterations = s.sink.iterations + es.length
  written : s'.sink.rows = rowsWith s.sink.rows es
  announced : s'.sink.events.toList = s.sink.events.toList ++ es.map (·.announced s.sink.total)
  total : s'.sink.total = s.sink.total
  goal : s'.sink.goal = s.sink.goal
  valued : ∀ e ∈ es, e.fitness = e.result.goalFigure s.sink.goal

section Delivered

variable {run : CandidateTrial α σ} {s s' s'' : SearchState α σ τ} {es es' : List (Evaluation α)}

omit [Arith α] in
theorem CandidateTrial.inOrder_singleton (run : CandidateTrial α σ) (shared : σ) (c : Assignment α) :
    run.inOrder shared [c] = ((run shared c).1, [(run shared c).2]) := rfl

omit [Arith α] in
theorem CandidateTrial.inOrder_append (run : CandidateTrial α σ) (shared : σ)
    (cs cs' : List (Assignment α)) : run.inOrder shared (cs ++ cs') =
      ((run.inOrder (run.inOrder shared cs).1 cs').1,
        (run.inOrder shared cs).2 ++ (run.inOrder (run.inOrder shared cs).1 cs').2) := by
  induction cs generalizing shared with
  | nil => rfl
  | cons c cs ih => simp only [List.cons_append, CandidateTrial.inOrder, ih]

theorem Delivered.nothing (run : CandidateTrial α σ) (s : SearchState α σ τ) : Delivered run s [] s where
  ran := rfl
  numbered := rfl
  counted := rfl
  written := rfl
  announced := (List.append_nil _).symm
  total := rfl
  goal := rfl
  valued := List.forall_mem_nil _

theorem Delivered.append (h : Delivered run s es s') (h' : Delivered run s' es' s'') :
    Delivered run s (es ++ es') s'' where
  ran := by rw [List.map_append, CandidateTrial.inOrder_append, h.ran, h'.ran, List.map_append]
  numbered := by
    rw [List.map_append, h.numbered, h'.numbered, h.counted, List.length_append,
      Nat.add_right_comm, List.range'_append_1]
  counted := by rw [h'.counted, h.counted, List.length_append, Nat.add_assoc]
  written := by
    rw [h'.written, h.written]
    exact List.foldl_append.symm
  announced := by rw [h'.announced, h.announced, h.total, List.map_append, List.append_assoc]
  total := h'.total.trans h.total
  goal := h'.goal.trans h.goal
  valued e he := by
    rcases List.mem_append.mp he with he | he
    · exact h.valued e he
    · exact h.goal ▸ h'.valued e he

/-- The two ways in which an evaluation fails: the candidate does, or its row. Nothing is announced. -/
def FailsAt (run : CandidateTrial α σ) (s : SearchState α σ τ) (c : Assignment α) (f : Fault α)
    (s' : SearchState α σ τ) : Prop :=
  (run s.shared c = (s'.shared, .error f) ∧ s'.sink = s.sink) ∨
    ∃ r, run s.shared c = (s'.shared, .ok r) ∧
      RowWriter.addRow s.sink.rows (s.sink.iterations + 1) c r = (s'.sink.rows, some f) ∧
      s'.sink.events = s.sink.events

theorem SearchState.evaluate_delivers (run : CandidateTrial α σ) (s : SearchState α σ τ)
    (c : Assignment α) :
    (∃ s' e, s.evaluate run c = (s', .ok e) ∧ e.parameters = c ∧ Delivered run s [e] s') ∨
      ∃ s' f, s.evaluate run c = (s', .error f) ∧ FailsAt run s c f s' := by
  unfold SearchState.evaluate
  split
  next shared f hrun => exact .inr ⟨_, f, rfl, .inl ⟨hrun, rfl⟩⟩
  next shared result hrun =>
    unfold Sink.record
    dsimp only
    split
    next f failed => exact .inr ⟨_, f, rfl, .inr ⟨result, hrun, Prod.ext rfl failed, rfl⟩⟩
    next =>
      refine .inl ⟨_, _, rfl, rfl, ?_⟩
      exact {
        ran := by
          change run.inOrder s.shared [c] = _
          rw [CandidateTrial.inOrder_singleton, hrun]
          rfl
        numbered := rfl
        counted := rfl
        written := rfl
        announced := Array.toList_push
        total := rfl
        goal := rfl
        valued := List.forall_mem_singleton.mpr rfl }

/-- A batch delivers its candidates in order until the first that starts after a stop, or that fails. -/
theorem SearchState.evaluateAll_delivers (run : CandidateTrial α σ) (stop : StopPoint)
    (s : SearchState α σ τ) (cs : List (Assignment α)) :
    ∃ s' es, es.map (·.parameters) <+: cs ∧ Delivered run s es s' ∧
      (∀ k < es.length, stop.isReached (s.sink.iterations + k) = false) ∧
      ((s.evaluateAll run stop cs = (s', .ok es) ∧
          (es.length = cs.length ∨ stop.isReached s'.sink.iterations = true)) ∨
        ∃ s'' c f, s.evaluateAll run stop cs = (s'', .error f) ∧ cs[es.length]? = some c ∧
          stop.isReached s'.sink.iterations = false ∧ FailsAt run s' c f s'') := by
  induction cs generalizing s with
  | nil => exact ⟨s, [], List.nil_prefix, .nothing run s, by simp, .inl ⟨rfl, .inl rfl⟩⟩
  | cons c cs ih =>
    unfold SearchState.evaluateAll
    split
    next stopped => exact ⟨s, [], List.nil_prefix, .nothing run s, by simp, .inl ⟨rfl, .inr stopped⟩⟩
    next going =>
      rw [Bool.not_eq_true] at going
      rcases s.evaluate_delivers run c with ⟨s₁, e, he, rfl, one⟩ | ⟨s₁, f, he, fails⟩
      · obtain ⟨s', es, covered, delivered, before, ending⟩ := ih s₁
        refine ⟨s', e :: es, ?_, one.append delivered, fun k hk => ?_, ?_⟩
        · rw [List.map_cons]
          exact List.cons_prefix_cons.mpr ⟨rfl, covered⟩
        · cases k with
          | zero => exact going
          | succ k =>
            have step := before k (Nat.lt_of_succ_lt_succ hk)
            rw [one.counted] at step
            rw [Nat.add_comm k 1, ← Nat.add_assoc]
            exact step
        · rw [he]
          dsimp only
          rcases ending with ⟨out, whole⟩ | ⟨s'', c', f, out, here, unstopped, fails⟩
          · rw [out]
            exact .inl ⟨rfl, whole.imp_left fun length => by simp [length]⟩
          · rw [out]
            exact .inr ⟨s'', c', f, rfl, here, unstopped, fails⟩
      · rw [he]
        exact ⟨s, [], List.nil_prefix, .nothing run s, by simp, .inr ⟨s₁, c, f, rfl, rfl, going, fails⟩⟩

omit [Arith α] in
theorem Faultless.not_failsAt {c : Assignment α} {f : Fault α} (h : Faultless run τ) :
    ¬FailsAt run s c f s' := by
  rintro (⟨failed, -⟩ | ⟨r, -, row, -⟩)
  · obtain ⟨r, ran⟩ := h.ran s.shared c
    rw [failed] at ran
    cases ran
  · have written := h.written s.sink.rows (s.sink.iterations + 1) c r
    rw [row] at written
    cases written

end Delivered

theorem bruteForce_of_points {parameters : List (Parameter α)} (hp : parameters ≠ [])
    {points : List (Assignment α)} (hpoints : grid parameters = .ok points) (run : CandidateTrial α σ)
    (stop : StopPoint) (start : SearchState α σ τ) :
    bruteForce parameters run stop start = SearchState.evaluateAll run stop
      { start with sink := { start.sink with total := points.length } } points := by
  unfold bruteForce
  rw [if_neg (by simpa using hp), hpoints]

theorem bruteForce_of_error {parameters : List (Parameter α)} (hp : parameters ≠ []) {b : Breach}
    (broken : grid parameters = .error b) (run : CandidateTrial α σ) (stop : StopPoint)
    (start : SearchState α σ τ) : bruteForce parameters run stop start = (start, .error (.breach b)) := by
  unfold bruteForce
  rw [if_neg (by simpa using hp), broken]

/-- A search over a grid whose values cannot be counted in a word breaks off at once. Any other one evaluates
a prefix of the grid. Each point of the prefix ran once, on what the ones before left behind, and all of them
are numbered, written and announced in order, with the number of points on the grid as the total. The search
ends well with the whole grid, or before the first point that would start after a stop; or else it ends with
the fault of the next point, and nothing but the points before was announced. Without a stop and without a
fault, it covers the grid. -/
theorem bruteForce_covers {parameters : List (Parameter α)} (hp : parameters ≠ [])
    (run : CandidateTrial α σ) (stop : StopPoint) (shared : σ) (goal : Goal) (rows : τ) :
    let start : SearchState α σ τ := ⟨shared, .start goal rows⟩
    (∀ b, grid parameters = .error b → bruteForce parameters run stop start = (start, .error (.breach b))) ∧
    ∀ points, grid parameters = .ok points →
    ∃ (s : SearchState α σ τ) (es : List (Evaluation α)),
      es.map (·.parameters) <+: points ∧
      run.inOrder shared (es.map (·.parameters)) = (s.shared, es.map fun e => .ok e.result) ∧
      es.map (·.iteration) = List.range' 1 es.length ∧
      s.sink.events.toList = es.map (·.announced points.length) ∧
      s.sink.iterations = es.length ∧ s.sink.rows = rowsWith rows es ∧
      (∀ k < es.length, stop.isReached k = false) ∧
      ((bruteForce parameters run stop start = (s, .ok es) ∧
          (es.map (·.parameters) = points ∨ stop.isReached es.length = true)) ∨
        ∃ s' c f, bruteForce parameters run stop start = (s', .error f) ∧
          points[es.length]? = some c ∧ stop.isReached es.length = false ∧
          FailsAt run s c f s') ∧
      (Faultless run τ → stop = none →
        bruteForce parameters run stop start = (s, .ok es) ∧ es.map (·.parameters) = points) := by
  intro start
  refine ⟨fun b broken => bruteForce_of_error hp broken run stop start, fun points hpoints => ?_⟩
  obtain ⟨s, es, covered, delivered, before, ending⟩ := SearchState.evaluateAll_delivers run stop
    ⟨shared, { Sink.start goal rows with total := points.length }⟩ points
  have counted : s.sink.iterations = es.length := delivered.counted.trans (Nat.zero_add _)
  have going : ∀ k < es.length, stop.isReached k = false := fun k hk => by
    have unstopped := before k hk
    rw [Sink.start, Nat.zero_add] at unstopped
    exact unstopped
  have whole : es.length = points.length → es.map (·.parameters) = points :=
    fun length => covered.eq_of_length ((List.length_map _).trans length)
  rw [← bruteForce_of_points hp hpoints run stop start, counted] at ending
  refine ⟨s, es, covered, delivered.ran, delivered.numbered, delivered.announced, counted,
    delivered.written, going, ending.imp_left (And.imp_right (Or.imp_left whole)), ?_⟩
  intro faultless unstopped
  rcases ending with ⟨out, length | stopped⟩ | ⟨s', c, f, -, -, -, fails⟩
  · exact ⟨out, whole length⟩
  · rw [unstopped] at stopped
    cases stopped
  · exact absurd fails faultless.not_failsAt

/-- The whole numbers from zero to ten, each of them once. -/
theorem sampleProblem_covered :
    ∃ s es, bruteForce Genetic.sampleProblem.parameters (Genetic.sampleTrial 7) none Genetic.sampleStart =
        (s, .ok es) ∧
      grid Genetic.sampleProblem.parameters = .ok (es.map (·.parameters)) ∧
      s.sink.events.toList = es.map (·.announced 11) ∧ s.sink.iterations = 11 := by
  obtain ⟨points, hpoints, size⟩ : ∃ points, grid Genetic.sampleProblem.parameters = .ok points ∧
      points.length = 11 := by
    refine map_eq_ok.mp ?_
    decide +kernel
  have parameters : Genetic.sampleProblem.parameters ≠ [] := List.cons_ne_nil _ _
  obtain ⟨-, covers⟩ := bruteForce_covers parameters (Genetic.sampleTrial 7) none () .profit ()
  obtain ⟨s, es, -, -, -, announced, counted, -, -, -, whole⟩ := covers points hpoints
  obtain ⟨out, rfl⟩ := whole (Genetic.sampleTrial_dependable 7).faultless rfl
  rw [size] at announced
  rw [List.length_map] at size
  exact ⟨s, es, out, hpoints, announced, counted.trans size⟩

end Backtest
