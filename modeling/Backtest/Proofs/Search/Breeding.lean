import Mathlib.Algebra.Ring.Nat
import Backtest.Proofs.Random.Draw
import Backtest.Search.Genetic.Breeding

namespace Backtest

/-- A choice between the elements of a list, one after the other, comes to one of them. -/
theorem exists_mem_foldl {β : Type} {choose : Option β → β → Option β}
    (first : ∀ x, choose none x = some x)
    (either : ∀ b x, choose (some b) x = some b ∨ choose (some b) x = some x) (x : β) (xs : List β) :
    ∃ c ∈ x :: xs, (x :: xs).foldl choose none = some c := by
  rw [List.foldl_cons, first]
  induction xs generalizing x with
  | nil => exact ⟨x, List.mem_cons_self, rfl⟩
  | cons y ys ih =>
    rw [List.foldl_cons]
    rcases either x y with heq | heq
    · rw [heq]
      obtain ⟨c, hc, hfold⟩ := ih x
      refine ⟨c, ?_, hfold⟩
      rcases List.mem_cons.mp hc with rfl | hc
      · exact List.mem_cons_self
      · exact List.mem_cons_of_mem x (List.mem_cons_of_mem y hc)
    · rw [heq]
      obtain ⟨c, hc, hfold⟩ := ih y
      exact ⟨c, List.mem_cons_of_mem x hc, hfold⟩

section Choice

variable {α β : Type} [Arith α] {score : β → Score α}

theorem lastBest_mem {xs : List β} {b : β} (h : lastBest score xs = some b) : b ∈ xs := by
  cases xs with
  | nil => cases h
  | cons x xs =>
    obtain ⟨c, hc, hfold⟩ : ∃ c ∈ x :: xs, lastBest score (x :: xs) = some c := by
      refine exists_mem_foldl (fun _ => rfl) (fun b x => ?_) x xs
      dsimp only
      split <;> simp
    cases hfold.symm.trans h
    exact hc

theorem exists_firstWorst (score : β → Score α) (x : β) (xs : List β) :
    ∃ w ∈ x :: xs, firstWorst score (x :: xs) = some w := by
  refine exists_mem_foldl (fun _ => rfl) (fun b x => ?_) x xs
  dsimp only
  split <;> simp

end Choice

namespace Genetic

open Backtest.Rand (Always always_pure always_mapM)

section Shares

variable {α : Type} (g : GeneticSettings α)

theorem islandShares_length : (islandShares g).length = max g.islands 1 := by
  unfold islandShares
  rw [List.length_map, List.length_range]

theorem islandShares_pos : ∀ n ∈ islandShares g, 0 < n := by
  unfold islandShares
  intro n hn
  obtain ⟨i, -, rfl⟩ := List.mem_map.mp hn
  have enough : 0 < max g.population (max g.islands 1) / max g.islands 1 :=
    Nat.div_pos (Nat.le_max_right _ _) (by omega)
  omega

theorem sum_shares (q r n : Nat) :
    ((List.range n).map fun i => q + if i < r then 1 else 0).sum = n * q + min n r := by
  induction n with
  | zero => simp
  | succ n ih =>
    rw [List.range_succ, List.map_append, List.sum_append, ih, Nat.succ_mul, List.map_singleton,
      List.sum_singleton]
    split <;> omega

theorem islandShares_sum : (islandShares g).sum = max g.population (max g.islands 1) := by
  unfold islandShares
  dsimp only
  have least : 0 < max g.islands 1 := by omega
  have rest := Nat.mod_lt (max g.population (max g.islands 1)) least
  rw [sum_shares, Nat.min_eq_right (Nat.le_of_lt rest)]
  exact Nat.div_add_mod _ _

end Shares

/-- One gene for each range, an index into its values. -/
def Fits (sizes : List Nat) (genes : Genes) : Prop := List.Forall₂ (· < ·) genes sizes

section Genes

variable {α ρ : Type} [Arith α] [RandomSource ρ] {sizes : List Nat} {a b genes : Genes}

theorem randomGenes_fits (positive : ∀ n ∈ sizes, 0 < n) :
    Always (Fits sizes) (randomGenes sizes : Rand ρ Genes) :=
  (always_mapM fun n hn => Rand.below_lt (positive n hn)).mono fun _ => List.Forall₂.flip

theorem Fits.mixed (ha : Fits sizes a) (hb : Fits sizes b)
    (mixed : List.Forall₂ (fun (p : Nat × Nat) gene => gene = p.1 ∨ gene = p.2) (a.zip b) genes) :
    Fits sizes genes := by
  induction ha generalizing b genes with
  | nil =>
    cases hb
    cases mixed
    exact .nil
  | cons hx _ ih =>
    cases hb with
    | cons hy hb =>
      cases mixed with
      | cons either mixed =>
        refine .cons ?_ (ih hb mixed)
        rcases either with rfl | rfl
        · exact hx
        · exact hy

theorem cross_fits (mode : Crossover) (ha : Fits sizes a) (hb : Fits sizes b) :
    Always (Fits sizes) (cross (α := α) mode a b : Rand ρ Genes) := by
  cases mode with
  | uniform =>
    refine (always_mapM fun (x, y) _ => ?_).mono fun _ => ha.mixed hb
    refine (Rand.always_chance _).bind fun other _ => always_pure ?_
    cases other with
    | true => exact .inr rfl
    | false => exact .inl rfl
  | singlePoint =>
    refine (Rand.below_lt (Nat.succ_pos _)).bind fun cut _ => ?_
    rw [if_pos (ha.length_eq.trans hb.length_eq.symm)]
    have joined : Fits (sizes.take cut ++ sizes.drop cut) (a.take cut ++ b.drop cut) :=
      List.rel_append (List.forall₂_take cut ha) (List.forall₂_drop cut hb)
    rw [List.take_append_drop] at joined
    exact always_pure joined

theorem mutateGene_lt (mode : Mutation) {size : Nat} (several : 2 ≤ size) (gene : Nat) :
    Always (fun moved => gene < size → moved < size)
      (mutateGene (α := α) mode size gene : Rand ρ Nat) := by
  cases mode with
  | uniform => exact (Rand.below_lt (by omega)).mono fun _ hmoved _ => hmoved
  | step =>
    unfold mutateGene
    dsimp only
    split
    next => exact always_pure fun _ => by omega
    next =>
      split
      next =>
        refine (Rand.always_chance _).bind fun up _ => always_pure fun _ => ?_
        split <;> omega
      next => exact always_pure fun _ => by omega

theorem Fits.moved (h : Fits sizes a)
    (moved : List.Forall₂ (fun (p : Nat × Nat) gene => p.1 < p.2 → gene < p.2) (a.zip sizes) genes) :
    Fits sizes genes := by
  induction h generalizing genes with
  | nil =>
    cases moved
    exact .nil
  | cons hx _ ih =>
    cases moved with
    | cons within moved => exact .cons (within hx) (ih moved)

theorem mutate_fits (g : GeneticSettings α) (h : Fits sizes genes) :
    Always (Fits sizes) (mutate g sizes genes : Rand ρ Genes) := by
  refine (always_mapM fun (gene, size) _ => ?_).mono fun _ => h.moved
  dsimp only
  split
  next => exact always_pure id
  next several =>
    refine (Rand.always_chance _).bind fun happens _ => ?_
    split
    next => exact mutateGene_lt g.mutation (by omega) gene
    next => exact always_pure id

theorem breed_fits (g : GeneticSettings α) (ha : Fits sizes a) (hb : Fits sizes b) :
    Always (Fits sizes) (breed g sizes a b : Rand ρ Genes) := by
  refine (Rand.always_chance _).bind fun happens _ => ?_
  dsimp only
  split
  next => exact (cross_fits g.crossover ha hb).bind fun child hchild => mutate_fits g hchild
  next => exact (always_pure ha).bind fun child hchild => mutate_fits g hchild

end Genes

section Islands

variable {α ρ : Type} [Arith α] [RandomSource ρ] {sizes : List Nat}
  {island : List (Individual α)} {islands out : List (List (Individual α))}

theorem drawParent_mem (inhabited : 0 < island.length) :
    Always (fun genes => ∃ i ∈ island, i.genes = genes) (drawParent island : Rand ρ Genes) := by
  refine (Rand.below_lt inhabited).bind fun k hk => (Rand.always_pick hk).bind fun a ha => ?_
  refine (Rand.below_lt inhabited).bind fun l hl => (Rand.always_pick hl).bind fun b hb => ?_
  split
  next => exact always_pure ⟨b, hb, rfl⟩
  next => exact always_pure ⟨a, ha, rfl⟩

theorem child_fits (g : GeneticSettings α) (inhabited : 0 < island.length)
    (fits : ∀ i ∈ island, Fits sizes i.genes) :
    Always (Fits sizes) (child g sizes island : Rand ρ Genes) := by
  have parent : Always (Fits sizes) (drawParent island : Rand ρ Genes) :=
    (drawParent_mem (ρ := ρ) inhabited).mono fun genes ⟨i, hi, heq⟩ => heq ▸ fits i hi
  refine parent.bind fun a ha => ?_
  exact parent.bind fun b hb => breed_fits g ha hb

def elite (g : GeneticSettings α) (island : List (Individual α)) : List Genes :=
  if g.elitism then (best island).toList.map Individual.genes else []

theorem mem_elite {g : GeneticSettings α} {genes : Genes} :
    genes ∈ elite g island ↔ g.elitism = true ∧ ∃ b, best island = some b ∧ b.genes = genes := by
  unfold elite
  split
  next h => simp [h, List.mem_map, Option.mem_toList]
  next h => simp [h]

theorem elite_length_le (g : GeneticSettings α) (island : List (Individual α)) :
    (elite g island).length ≤ island.length := by
  unfold elite
  split
  next =>
    cases hb : best island with
    | none => exact Nat.zero_le _
    | some b => exact List.length_pos_of_mem (lastBest_mem hb)
  next => exact Nat.zero_le _

theorem nextIsland_eq (g : GeneticSettings α) (sizes : List Nat) (island : List (Individual α)) :
    (nextIsland g sizes island : Rand ρ (List Genes)) = do
      let children ← (List.replicate (island.length - (elite g island).length) ()).mapM fun _ =>
        child g sizes island
      return elite g island ++ children := rfl

/-- The next generation of an island has its size, the elite is in it, and its genes fit. -/
theorem nextIsland_keeps (g : GeneticSettings α) (inhabited : 0 < island.length)
    (fits : ∀ i ∈ island, Fits sizes i.genes) :
    Always (fun next => next.length = island.length ∧ (∀ genes ∈ elite g island, genes ∈ next) ∧
        ∀ genes ∈ next, Fits sizes genes)
      (nextIsland g sizes island : Rand ρ (List Genes)) := by
  have few := elite_length_le g island
  rw [nextIsland_eq]
  refine (Rand.always_mapM_all fun _ _ => child_fits g inhabited fits).bind fun children h => ?_
  obtain ⟨bred, bredFit⟩ := h
  refine always_pure ⟨?_, fun genes hgenes => List.mem_append_left _ hgenes, ?_⟩
  · rw [List.length_replicate] at bred
    rw [List.length_append]
    omega
  · refine List.forall_mem_append.mpr ⟨fun genes hgenes => ?_, bredFit⟩
    obtain ⟨-, b, hb, rfl⟩ := mem_elite.mp hgenes
    exact fits b (lastBest_mem hb)

end Islands

section Migration

variable {α ρ : Type} [Arith α] [RandomSource ρ] {island : List (Individual α)}
  {islands out : List (List (Individual α))}

theorem replaceWorst_length (island : List (Individual α)) (migrant : Option (Individual α)) :
    (replaceWorst island migrant).length = island.length := by
  unfold replaceWorst
  split
  next => exact List.length_set
  next => rfl

/-- On an island with someone on it there is a place for a migrant. -/
theorem self_mem_replaceWorst (inhabited : 0 < island.length) (m : Individual α) :
    m ∈ replaceWorst island (some m) := by
  unfold replaceWorst
  cases island with
  | nil => cases inhabited
  | cons x xs =>
    obtain ⟨⟨w, k⟩, hw, hworst⟩ := exists_firstWorst (fun q => q.1.score) (x, 0) (xs.zipIdx 1)
    rw [List.zipIdx_cons, hworst]
    have hk : k < (x :: xs).length := by
      rw [← List.zipIdx_cons] at hw
      simpa using (List.mem_zipIdx hw).2.1
    exact List.mem_set hk m

theorem mem_replaceWorst {migrant : Option (Individual α)} {i : Individual α}
    (h : i ∈ replaceWorst island migrant) : i ∈ island ∨ migrant = some i := by
  unfold replaceWorst at h
  split at h
  next => exact (List.mem_or_eq_of_mem_set h).imp_right fun heq => congrArg some heq.symm
  next => exact .inl h

theorem rotate_length {β : Type} (xs : List β) : (rotate xs).length = xs.length := by
  unfold rotate
  rcases List.eq_nil_or_concat xs with rfl | ⟨xs, x, rfl⟩
  · rfl
  · simp

theorem mem_rotate {β : Type} {xs : List β} {x : β} : x ∈ rotate xs ↔ x ∈ xs := by
  unfold rotate
  rcases List.eq_nil_or_concat xs with rfl | ⟨xs, y, rfl⟩
  · rfl
  · simp [or_comm]

/-- What migration makes of islands: nothing, or a ring in which each of at least two islands takes in the
best of the one before. -/
def Migrates (islands out : List (List (Individual α))) : Prop :=
  out = islands ∨ 2 ≤ islands.length ∧
    out = List.zipWith replaceWorst islands (rotate (islands.map best))

theorem migrate_migrates (g : GeneticSettings α) (islands : List (List (Individual α))) :
    Always (Migrates islands) (migrate g islands : Rand ρ (List (List (Individual α)))) := by
  unfold migrate
  split
  next => exact always_pure (.inl rfl)
  next several =>
    refine (Rand.always_chance _).bind fun happens _ => ?_
    split
    next =>
      rw [Bool.or_eq_true, not_or, decide_eq_true_eq] at several
      exact always_pure (.inr ⟨by omega, rfl⟩)
    next => exact always_pure (.inl rfl)

theorem Migrates.lengths (h : Migrates islands out) : out.map List.length = islands.map List.length := by
  rcases h with rfl | ⟨-, rfl⟩
  · rfl
  · have ring : (rotate (islands.map best)).length = islands.length := by
      rw [rotate_length, List.length_map]
    refine List.ext_getElem (by simp [ring]) fun k _ _ => ?_
    simp [replaceWorst_length]

theorem Migrates.inhabited (h : Migrates islands out) (inhabited : ∀ island ∈ islands, 0 < island.length) :
    ∀ island ∈ out, 0 < island.length := by
  intro island hisland
  have size := List.mem_map_of_mem (f := List.length) hisland
  rw [h.lengths] at size
  obtain ⟨old, hold, size⟩ := List.mem_map.mp size
  rw [← size]
  exact inhabited old hold

theorem Migrates.mem (h : Migrates islands out) {i : Individual α} (hi : i ∈ out.flatten) :
    i ∈ islands.flatten := by
  rcases h with rfl | ⟨-, rfl⟩
  · exact hi
  · obtain ⟨moved, hmoved, hi⟩ := List.mem_flatten.mp hi
    obtain ⟨k, hk, rfl⟩ := List.mem_iff_getElem.mp hmoved
    rw [List.getElem_zipWith] at hi
    rcases mem_replaceWorst hi with hi | migrant
    · exact List.mem_flatten.mpr ⟨_, List.getElem_mem _, hi⟩
    · have came := mem_rotate.mp (migrant ▸ List.getElem_mem _)
      obtain ⟨from_, hfrom, hbest⟩ := List.mem_map.mp came
      exact List.mem_flatten.mpr ⟨from_, hfrom, lastBest_mem hbest⟩

end Migration

section Populations

variable {α ρ : Type} [RandomSource ρ] {sizes : List Nat}

def genesOf (islands : List (List (Individual α))) : List (List Genes) :=
  islands.map fun island => island.map Individual.genes

theorem mem_genesOf {islands : List (List (Individual α))} {genes : Genes} :
    genes ∈ (genesOf islands).flatten ↔ ∃ i ∈ islands.flatten, i.genes = genes := by
  unfold genesOf
  rw [← List.map_flatten, List.mem_map]

theorem genesOf_lengths (islands : List (List (Individual α))) :
    (genesOf islands).map List.length = islands.map List.length := by
  simp [genesOf, Function.comp_def]

theorem randomIslands_fits (g : GeneticSettings α) (positive : ∀ n ∈ sizes, 0 < n) :
    Always (fun islands => islands.map List.length = islandShares g ∧
        ∀ genes ∈ islands.flatten, Fits sizes genes)
      (randomIslands g sizes : Rand ρ (List (List Genes))) := by
  have drawn : ∀ n ∈ islandShares g, Always (fun island => island.length = n ∧
      ∀ genes ∈ island, Fits sizes genes) ((List.replicate n sizes).mapM randomGenes : Rand ρ (List Genes)) := by
    intro n _
    have each : ∀ s ∈ List.replicate n sizes, Always (Fits sizes) (randomGenes s : Rand ρ Genes) := by
      intro s hs
      rw [List.eq_of_mem_replicate hs]
      exact randomGenes_fits positive
    have all := Rand.always_mapM_all each
    rw [List.length_replicate] at all
    exact all
  refine (always_mapM drawn).mono fun islands h => ⟨?_, fun genes hgenes => ?_⟩
  · refine (List.forall₂_eq_eq_eq ▸ List.forall₂_map_left_iff.mpr (h.flip.imp ?_) :)
    exact fun _ _ hn => hn.1
  · obtain ⟨island, hisland, hgenes⟩ := List.mem_flatten.mp hgenes
    obtain ⟨n, -, -, fits⟩ := exists_mem_left h hisland
    exact fits genes hgenes

variable [Arith α] {islands : List (List (Individual α))}

/-- The next islands have the sizes of the last ones, the elite is on them as it was after the migration, and
their genes fit. -/
theorem nextIslands_keeps (g : GeneticSettings α) (inhabited : ∀ island ∈ islands, 0 < island.length)
    (fits : ∀ i ∈ islands.flatten, Fits sizes i.genes) :
    Always (fun next => next.map List.length = islands.map List.length ∧
      (∃ out, Migrates islands out ∧ ∀ island ∈ out, ∀ genes ∈ elite g island, genes ∈ next.flatten) ∧
      ∀ genes ∈ next.flatten, Fits sizes genes)
      (nextIslands g sizes islands : Rand ρ (List (List Genes))) := by
  refine (migrate_migrates g islands).bind fun out migrated => ?_
  have bred : Always _ (out.mapM (nextIsland g sizes) : Rand ρ (List (List Genes))) :=
    always_mapM fun island hisland => nextIsland_keeps g (migrated.inhabited inhabited island hisland)
      fun i hi => fits i (migrated.mem (List.mem_flatten.mpr ⟨island, hisland, hi⟩))
  refine bred.mono fun next h => ⟨?_, ⟨out, migrated, fun island hisland genes hgenes => ?_⟩,
    fun genes hgenes => ?_⟩
  · rw [← migrated.lengths]
    refine (List.forall₂_eq_eq_eq ▸ List.forall₂_map_left_iff.mpr
      (List.forall₂_map_right_iff.mpr (h.flip.imp ?_)) :)
    exact fun _ _ hnext => hnext.1
  · obtain ⟨next, hnext, -, keeps, -⟩ := exists_mem_left h.flip hisland
    exact List.mem_flatten.mpr ⟨next, hnext, keeps genes hgenes⟩
  · obtain ⟨next, hnext, hgenes⟩ := List.mem_flatten.mp hgenes
    obtain ⟨-, -, -, -, bredFit⟩ := exists_mem_left h hnext
    exact bredFit genes hgenes

end Populations

end Genetic
end Backtest
