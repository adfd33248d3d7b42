import Backtest.Proofs.Config.Accepted
import Backtest.Proofs.Market.Reach

namespace Backtest

namespace Pair

open String.Pos (Raw)

theorem size_cons (c : Char) (cs : List Char) :
    (String.ofList (c :: cs)).utf8ByteSize = c.utf8Size + (String.ofList cs).utf8ByteSize := by
  rw [String.ofList_cons, String.utf8ByteSize_append, String.utf8ByteSize_singleton]

theorem cutAt_zero (cs : List Char) : cutAt 0 cs = some ([], cs) := by
  unfold cutAt
  rfl

theorem cutAt_cons {n : Nat} {c : Char} {cs : List Char} (fits : c.utf8Size ≤ n) :
    cutAt n (c :: cs) = (cutAt (n - c.utf8Size) cs).map fun (front, rest) => (c :: front, rest) := by
  cases n with
  | zero => exact absurd fits (Nat.not_le_of_lt c.utf8Size_pos)
  | succ n => exact if_pos fits

theorem cutAt_append (front rest : List Char) :
    cutAt (String.ofList front).utf8ByteSize (front ++ rest) = some (front, rest) := by
  induction front with
  | nil => exact cutAt_zero rest
  | cons c front ih =>
    rw [size_cons, List.cons_append, cutAt_cons (Nat.le_add_right _ _), Nat.add_sub_cancel_left, ih]
    rfl

/-- A cut divides a text, and what is before it has the bytes that were asked for. -/
theorem cutAt_eq_some {n : Nat} {cs front rest : List Char} :
    cutAt n cs = some (front, rest) ↔ front ++ rest = cs ∧ (String.ofList front).utf8ByteSize = n := by
  constructor
  · intro cut
    fun_induction cutAt n cs generalizing front with
    | case1 cs =>
      obtain ⟨rfl, rfl⟩ := Prod.mk.inj (Option.some.inj cut)
      exact ⟨rfl, rfl⟩
    | case2 n => cases cut
    | case3 n c cs fits ih =>
      obtain ⟨⟨front, rest'⟩, found, same⟩ := Option.map_eq_some_iff.mp cut
      obtain ⟨rfl, rfl⟩ := Prod.mk.inj same
      obtain ⟨rfl, size⟩ := ih found
      refine ⟨rfl, ?_⟩
      rw [size_cons, size]
      exact Nat.add_sub_cancel' fits
    | case4 n c cs unfit => cases cut
  · rintro ⟨rfl, rfl⟩
    exact cutAt_append front rest

theorem exists_cutAt_iff {n : Nat} {s : String} :
    (∃ front rest, cutAt n s.toList = some (front, rest)) ↔ (⟨n⟩ : Raw).IsValid s := by
  rw [Raw.isValid_iff_exists_append]
  constructor
  · rintro ⟨front, rest, cut⟩
    obtain ⟨whole, size⟩ := cutAt_eq_some.mp cut
    refine ⟨String.ofList front, String.ofList rest, ?_, ?_⟩
    · rw [← String.ofList_append, whole, String.ofList_toList]
    · rw [← size]
      rfl
  · rintro ⟨front, rest, rfl, size⟩
    refine ⟨front.toList, rest.toList, cutAt_eq_some.mpr ⟨?_, ?_⟩⟩
    · rw [String.toList_append]
    · rw [String.ofList_toList]
      exact (congrArg Raw.byteIdx size).symm

theorem cutAt_eq_none {n : Nat} {s : String} : cutAt n s.toList = none ↔ ¬(⟨n⟩ : Raw).IsValid s := by
  rw [← exists_cutAt_iff]
  cases cutAt n s.toList with
  | none => simp
  | some cut => exact iff_of_false nofun (not_not.mpr ⟨cut.1, cut.2, rfl⟩)

/-- Before the end of a text it does not matter what comes behind it. -/
theorem isValid_append_of_lt {p : Raw} {s t : String} (inside : p < s.rawEndPos) :
    p.IsValid (s ++ t) ↔ p.IsValid s := by
  rw [Raw.isValid_append]
  exact or_iff_left fun behind => Nat.not_le_of_lt inside behind.1

theorem size_of_ascii {cs : List Char} (ascii : ∀ c ∈ cs, c.toNat < 128) :
    (String.ofList cs).utf8ByteSize = cs.length := by
  induction cs with
  | nil => rfl
  | cons c cs ih =>
    obtain ⟨one, ascii⟩ := List.forall_mem_cons.mp ascii
    have single : c.utf8Size = 1 := Char.utf8Size_eq_one_iff.mpr (Nat.le_of_lt_succ one)
    rw [size_cons, single, ih ascii, List.length_cons, Nat.add_comm]

/-- A symbol that is long enough for a pair, but has a character across the end of its third byte. -/
def Breaks (symbol : String) : Prop := (⟨6⟩ : Raw).IsValid symbol ∧ ¬(⟨3⟩ : Raw).IsValid symbol

instance (symbol : String) : Decidable (Breaks symbol) := inferInstanceAs (Decidable (_ ∧ _))

/-- The parts of a symbol: two currencies of three bytes each, and what is left. -/
structure PartsOf (p : Pair) (symbol : String) : Prop where
  base : p.base.utf8ByteSize = 3
  term : p.term.utf8ByteSize = 3
  whole : p.base ++ p.term ++ p.suffix = symbol

theorem not_breaks_of_ascii {symbol : String} (ascii : ∀ c ∈ symbol.toList, c.toNat < 128) :
    ¬Breaks symbol := by
  rintro ⟨six, three⟩
  have size (i : Nat) : (String.ofList (symbol.toList.take i)).utf8ByteSize = min i symbol.toList.length := by
    rw [size_of_ascii fun c hc => ascii c (List.mem_of_mem_take hc), List.length_take]
  rw [Raw.isValid_iff_exists_take_toList] at six three
  obtain ⟨i, hi⟩ := six
  rw [size] at hi
  refine three ⟨3, ?_⟩
  rw [size]
  dsimp only at hi ⊢
  omega

theorem PartsOf.isValid {p : Pair} {symbol : String} (h : p.PartsOf symbol) :
    (⟨6⟩ : Raw).IsValid symbol ∧ (⟨3⟩ : Raw).IsValid symbol := by
  constructor
  · refine Raw.isValid_iff_exists_append.mpr ⟨p.base ++ p.term, p.suffix, h.whole.symm, ?_⟩
    ext
    simp [h.base, h.term]
  · refine Raw.isValid_iff_exists_append.mpr ⟨p.base, p.term ++ p.suffix, ?_, ?_⟩
    · rw [← String.append_assoc, h.whole]
    · ext
      simp [h.base]

variable {α : Type} {symbol : String}

theorem PartsOf.ofSymbol {p : Pair} (h : p.PartsOf symbol) :
    (ofSymbol symbol : Except (Fault α) _) = .ok (some p) := by
  have front : cutAt 6 symbol.toList = some ((p.base ++ p.term).toList, p.suffix.toList) := by
    rw [cutAt_eq_some, ← String.toList_append, h.whole, String.ofList_toList, String.utf8ByteSize_append,
      h.base, h.term]
    exact ⟨rfl, rfl⟩
  have currencies : cutAt 3 (p.base ++ p.term).toList = some (p.base.toList, p.term.toList) := by
    rw [cutAt_eq_some, String.toList_append, String.ofList_toList, h.base]
    exact ⟨rfl, rfl⟩
  unfold Pair.ofSymbol
  rw [front]
  dsimp only
  rw [currencies]
  simp only [String.ofList_toList]

theorem ofSymbol_cases (symbol : String) :
    (¬(⟨6⟩ : Raw).IsValid symbol ∧ (ofSymbol symbol : Except (Fault α) _) = .ok none) ∨
    (Breaks symbol ∧ (ofSymbol symbol : Except (Fault α) _) = .error (.brokenSymbol symbol)) ∨
    ∃ p : Pair, p.PartsOf symbol ∧ (ofSymbol symbol : Except (Fault α) _) = .ok (some p) := by
  cases six : cutAt 6 symbol.toList with
  | none =>
    refine .inl ⟨cutAt_eq_none.mp six, ?_⟩
    unfold ofSymbol
    rw [six]
  | some cut =>
    obtain ⟨front, suffix⟩ := cut
    have valid : (⟨6⟩ : Raw).IsValid symbol := exists_cutAt_iff.mp ⟨front, suffix, six⟩
    obtain ⟨whole, size⟩ := cutAt_eq_some.mp six
    cases three : cutAt 3 front with
    | none =>
      refine .inr (.inl ⟨⟨valid, ?_⟩, ?_⟩)
      · have inside : (⟨3⟩ : Raw) < (String.ofList front).rawEndPos := by
          rw [Raw.lt_iff, String.byteIdx_rawEndPos, size]
          decide
        rw [← symbol.ofList_toList, ← whole, String.ofList_append, isValid_append_of_lt inside,
          ← cutAt_eq_none, String.toList_ofList]
        exact three
      · unfold ofSymbol
        rw [six]
        dsimp only
        rw [three]
    | some currencies =>
      obtain ⟨base, term⟩ := currencies
      obtain ⟨both, baseSize⟩ := cutAt_eq_some.mp three
      have parts : (⟨.ofList base, .ofList term, .ofList suffix⟩ : Pair).PartsOf symbol := by
        refine ⟨baseSize, ?_, ?_⟩
        · rw [← both, String.ofList_append, String.utf8ByteSize_append, baseSize] at size
          exact Nat.add_left_cancel size
        · rw [← String.ofList_append, both, ← String.ofList_append, whole, String.ofList_toList]
      exact .inr (.inr ⟨_, parts, parts.ofSymbol⟩)

theorem ofSymbol_eq_none :
    (ofSymbol symbol : Except (Fault α) _) = .ok none ↔ ¬(⟨6⟩ : Raw).IsValid symbol := by
  rcases ofSymbol_cases (α := α) symbol with ⟨uncut, h⟩ | ⟨⟨six, -⟩, h⟩ | ⟨p, parts, h⟩
  · exact iff_of_true h uncut
  · rw [h]
    exact iff_of_false nofun (not_not.mpr six)
  · rw [h]
    exact iff_of_false nofun (not_not.mpr parts.isValid.1)

theorem ofSymbol_eq_some {p : Pair} :
    (ofSymbol symbol : Except (Fault α) _) = .ok (some p) ↔ p.PartsOf symbol := by
  refine ⟨fun split => ?_, PartsOf.ofSymbol⟩
  rcases ofSymbol_cases (α := α) symbol with ⟨-, h⟩ | ⟨-, h⟩ | ⟨p', parts, h⟩
  · cases h.symm.trans split
  · cases h.symm.trans split
  · cases h.symm.trans split
    exact parts

theorem ofSymbol_eq_error {f : Fault α} :
    (ofSymbol symbol : Except (Fault α) _) = .error f ↔ f = .brokenSymbol symbol ∧ Breaks symbol := by
  rcases ofSymbol_cases (α := α) symbol with ⟨uncut, h⟩ | ⟨breaks, h⟩ | ⟨p, parts, h⟩
  · rw [h]
    exact iff_of_false nofun fun broken => uncut broken.2.1
  · rw [h, Except.error.injEq, eq_comm]
    exact (and_iff_left breaks).symm
  · rw [h]
    exact iff_of_false nofun fun broken => broken.2.2 parts.isValid.2

theorem conversionsOf_eq_error_iff {currency : String} {f : Fault α} :
    conversionsOf symbol currency = .error f ↔ f = .brokenSymbol symbol ∧ Breaks symbol := by
  rw [← ofSymbol_eq_error]
  constructor
  · exact fun failed => (conversionsOf_eq_error failed).2
  · exact fun failed => bind_eq_error.mpr (.inl failed)

end Pair

theorem RunScope.register_eq_error {α : Type} {c : RunScope α} {id : Int} {symbol : String} {f : Fault α} :
    c.register id symbol = .error f ↔
      if (c.symbols.lookup id).isSome then f = .duplicateInstance id
      else f = .brokenSymbol symbol ∧ Pair.Breaks symbol := by
  unfold register
  split
  next => rw [Except.error.injEq, eq_comm]
  next =>
    rw [bind_eq_error, Pair.conversionsOf_eq_error_iff]
    exact or_iff_left fun ⟨_, _, failed⟩ => nomatch failed

namespace Market

variable {α : Type} [Arith α] {m : Market α} {symbol currency : String} {timeframe digits : Nat}
  {requirements : List Requirement}

/-- Faults of setting up that are not about the parts of a symbol. -/
def Uncut (f : Fault α) : Prop := ∀ symbol, f ≠ .brokenSymbol symbol

theorem resample_uncut {base : Series α} {target : Nat} {f : Fault α}
    (h : m.resample symbol base target = .error f) : Uncut f := by
  unfold Market.resample at h
  split at h
  next => cases h
  next =>
    split at h
    next => cases h
    next =>
      unfold Series.resample at h
      split at h
      next =>
        cases h
        nofun
      -- a history on its own timeframe never comes here
      next => cases h

theorem buildBuffer_uncut {slot : Nat} {r : Requirement} {f : Fault α}
    (h : m.buildBuffer symbol timeframe digits slot r = .error f) : Uncut f := by
  unfold buildBuffer at h
  dsimp only at h
  split at h
  next =>
    cases h
    nofun
  next =>
    split at h
    next base _ =>
      rcases bind_eq_error.mp h with h | ⟨series, -, h⟩
      · exact resample_uncut h
      · split at h
        next =>
          cases h
          nofun
        next => cases h
    next =>
      cases h
      nofun

theorem buildBuffers_uncut {requirements : List (Requirement × Nat)} {f : Fault α}
    (h : (m.buildBuffers symbol timeframe digits requirements).2 = .error f) : Uncut f := by
  induction requirements generalizing m with
  | nil => cases h
  | cons r requirements ih =>
    unfold buildBuffers at h
    dsimp only at h
    split at h
    next failed =>
      cases h
      exact buildBuffer_uncut failed
    next => exact ih (map_eq_error.mp h)

/-- Setting up ends before any symbol is cut, or it sets up the buffers and cuts the symbol then. -/
theorem buildView_cases (m : Market α) (symbol : String) (timeframe : Nat) (requirements : List Requirement)
    (digits : Nat) (currency : String) :
    (∃ f, Uncut f ∧ (m.buildView symbol timeframe requirements digits currency).2 = .error f) ∨
    ∃ (m' : Market α) (primary : Series α),
      (m.buildView symbol timeframe requirements digits currency).2 =
        (m.buildBuffers symbol timeframe digits requirements.zipIdx).2.bind
          (m'.assemble symbol currency primary) := by
  unfold buildView
  split
  next => exact .inl ⟨.tooManyBuffers requirements.length, nofun, rfl⟩
  next =>
    split
    next => exact .inl ⟨.missingHistory (m.historyPath symbol), nofun, rfl⟩
    next => exact .inr ⟨_, _, rfl⟩

theorem buildView_pair {v : MarketView α}
    (built : (m.buildView symbol timeframe requirements digits currency).2 = .ok v) :
    (Pair.ofSymbol symbol : Except (Fault α) _) = .ok v.pair := by
  rcases m.buildView_cases symbol timeframe requirements digits currency with
    ⟨f, -, failed⟩ | ⟨m', primary, assembled⟩
  · cases failed.symm.trans built
  · obtain ⟨buffers, -, built⟩ := bind_eq_ok.mp (assembled.symm.trans built)
    obtain ⟨pair, cut, built⟩ := bind_eq_ok.mp built
    cases built
    exact cut

theorem buildView_broken {broken : String}
    (failed : (m.buildView symbol timeframe requirements digits currency).2 = .error (.brokenSymbol broken)) :
    broken = symbol ∧ Pair.Breaks symbol := by
  rcases m.buildView_cases symbol timeframe requirements digits currency with
    ⟨f, uncut, failed'⟩ | ⟨m', primary, assembled⟩
  · cases failed'.symm.trans failed
    exact absurd rfl (uncut broken)
  · rcases bind_eq_error.mp (assembled.symm.trans failed) with failed | ⟨buffers, -, failed⟩
    · exact absurd rfl (buildBuffers_uncut failed broken)
    · rcases bind_eq_error.mp failed with failed | ⟨pair, -, failed⟩
      · obtain ⟨same, breaks⟩ := Pair.ofSymbol_eq_error.mp failed
        exact ⟨Fault.brokenSymbol.inj same, breaks⟩
      · cases failed

end Market

section Symbols

variable {α : Type} [Arith α]

/-- Every symbol is a pair, no pair, or one that breaks. It is cut into parts if and only if it has them: two
of three bytes each, and the three together are the symbol. It is no pair if and only if no character ends
with its sixth byte; and the cut fails if and only if one does, and none with the third. Then no conversions
are found, no instance is registered, and none is set up. With all other symbols, such as those of ASCII
characters, none of these fails because of the symbol; and what an instance reads, and converts its amounts
with, is the pair of its symbol. -/
theorem symbol_cut (symbol : String) :
    (∀ p : Pair, (Pair.ofSymbol symbol : Except (Fault α) _) = .ok (some p) ↔
      p.base.utf8ByteSize = 3 ∧ p.term.utf8ByteSize = 3 ∧ p.base ++ p.term ++ p.suffix = symbol) ∧
    ((Pair.ofSymbol symbol : Except (Fault α) _) = .ok none ↔
      ¬(⟨6⟩ : String.Pos.Raw).IsValid symbol) ∧
    (∀ f : Fault α, Pair.ofSymbol symbol = .error f ↔ f = .brokenSymbol symbol ∧ Pair.Breaks symbol) ∧
    ((∀ c ∈ symbol.toList, c.toNat < 128) → ¬Pair.Breaks symbol) ∧
    (∀ (currency : String) (f : Fault α), conversionsOf symbol currency = .error f ↔
      f = .brokenSymbol symbol ∧ Pair.Breaks symbol) ∧
    (∀ (c : RunScope α) (id : Int) (f : Fault α), c.register id symbol = .error f ↔
      if (c.symbols.lookup id).isSome then f = .duplicateInstance id
      else f = .brokenSymbol symbol ∧ Pair.Breaks symbol) ∧
    ∀ (m : Market α) (timeframe : Nat) (requirements : List Requirement) (digits : Nat) (currency : String),
      (∀ broken, (m.buildView symbol timeframe requirements digits currency).2 =
        .error (.brokenSymbol broken) → broken = symbol ∧ Pair.Breaks symbol) ∧
      ∀ v, (m.buildView symbol timeframe requirements digits currency).2 = .ok v →
        (Pair.ofSymbol symbol : Except (Fault α) _) = .ok v.pair ∧ ¬Pair.Breaks symbol := by
  refine ⟨fun p => ?_, Pair.ofSymbol_eq_none, fun f => Pair.ofSymbol_eq_error, Pair.not_breaks_of_ascii,
    fun currency f => Pair.conversionsOf_eq_error_iff, fun c id f => RunScope.register_eq_error,
    fun m timeframe requirements digits currency => ⟨fun broken => Market.buildView_broken, fun v built => ?_⟩⟩
  · rw [Pair.ofSymbol_eq_some]
    exact ⟨fun h => ⟨h.base, h.term, h.whole⟩, fun ⟨base, term, whole⟩ => ⟨base, term, whole⟩⟩
  · have cut := Market.buildView_pair built
    refine ⟨cut, fun breaks => ?_⟩
    cases cut.symm.trans (Pair.ofSymbol_eq_error.mpr ⟨rfl, breaks⟩)

/-- The euro sign has three bytes. It can be a currency of a pair, or keep a symbol from being one. -/
theorem euro_symbols_cut :
    (Pair.ofSymbol "€EUR.x" : Except (Fault Float) _) = .ok (some ⟨"€", "EUR", ".x"⟩) ∧
    (Pair.ofSymbol "EURUS€" : Except (Fault Float) _) = .ok none ∧
    (∀ c ∈ "EURJPY.m".toList, c.toNat < 128) ∧
    ∀ (currency : String) (f : Fault Float), conversionsOf "EURJPY.m" currency ≠ .error f := by
  have all : ("EURJPY.m".toList.all fun c => decide (c.toNat < 128)) = true := by decide +kernel
  have ascii : ∀ c ∈ "EURJPY.m".toList, c.toNat < 128 :=
    fun c hc => of_decide_eq_true (List.all_eq_true.mp all c hc)
  obtain ⟨parts, -⟩ := symbol_cut (α := Float) "€EUR.x"
  obtain ⟨-, none, -⟩ := symbol_cut (α := Float) "EURUS€"
  obtain ⟨-, -, -, whole, conversions, -⟩ := symbol_cut (α := Float) "EURJPY.m"
  refine ⟨(parts _).mpr (by decide +kernel), none.mpr (by decide +kernel), ascii, fun currency f failed => ?_⟩
  exact whole ascii ((conversions currency f).mp failed).2

/-- Where it stands across the third byte, a symbol that is long enough for a pair cannot be cut. -/
theorem euro_across_currencies :
    (⟨6⟩ : String.Pos.Raw).IsValid "EU€SD" ∧
    (Pair.ofSymbol "EU€SD" : Except (Fault Float) _) = .error (.brokenSymbol "EU€SD") ∧
    (conversionsOf "EU€SD" "USD" : Except (Fault Float) _) = .error (.brokenSymbol "EU€SD") ∧
    (RunScope.start (10000 : Float) "USD" 60).register 7 "EU€SD" = .error (.brokenSymbol "EU€SD") := by
  have breaks : Pair.Breaks "EU€SD" := by decide +kernel
  refine ⟨breaks.1, Pair.ofSymbol_eq_error.mpr ⟨rfl, breaks⟩,
    Pair.conversionsOf_eq_error_iff.mpr ⟨rfl, breaks⟩, RunScope.register_eq_error.mpr ?_⟩
  exact ⟨rfl, breaks⟩

end Symbols
end Backtest
