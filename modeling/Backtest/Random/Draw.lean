import Backtest.Fault
import Backtest.Random.ChaCha

namespace Backtest

class RandomSource (ρ : Type) where
  draw : ρ → Nat × ρ

instance : RandomSource ChaCha.Stream := ⟨ChaCha.Stream.draw⟩

/-- A computation that draws from a source, and may break off. -/
abbrev Rand (ρ : Type) := StateT ρ (Except Breach)

namespace Rand

variable {ρ : Type} [RandomSource ρ]

def word : Rand ρ Nat := fun s =>
  let (w, s) := RandomSource.draw s
  .ok (w % wordRange, s)

/-- Words whose low product with `n` passes this bound are drawn again, so that all results are equally
likely. -/
def zone (n : Nat) : Nat := n <<< (63 - Nat.log2 n) - 1

/-- Draws until a word is accepted, `fuel` times at most; the last word counts in any case. -/
def belowFrom (n : Nat) : Nat → Rand ρ Nat
  | 0 => return (← word) * n / wordRange
  | fuel + 1 => do
    let w ← word
    if w * n % wordRange ≤ zone n then return w * n / wordRange
    else belowFrom n fuel

/-- A number below `n`, which must not be zero. At least half of all words are accepted. -/
def below (n : Nat) : Rand ρ Nat := if n = 0 then throw .emptyRange else belowFrom n 200

/-- Whether an event of probability `p` happens; a certain one draws no word. -/
def chance {α : Type} [Arith α] (p : α) : Rand ρ Bool :=
  if p == 1 then return true
  else do
    let w ← word
    return w < Arith.toCount (p * 18446744073709551616.0)

end Rand
end Backtest
