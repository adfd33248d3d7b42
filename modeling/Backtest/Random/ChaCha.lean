namespace Backtest
namespace ChaCha

structure Quad where
  a : UInt32
  b : UInt32
  c : UInt32
  d : UInt32
deriving Repr, DecidableEq

structure Block where
  r0 : Quad
  r1 : Quad
  r2 : Quad
  r3 : Quad
deriving Repr, DecidableEq

def rotateLeft (x n : UInt32) : UInt32 := (x <<< n) ||| (x >>> (32 - n))

def quarterRound (q : Quad) : Quad :=
  let a := q.a + q.b
  let d := rotateLeft (q.d ^^^ a) 16
  let c := q.c + d
  let b := rotateLeft (q.b ^^^ c) 12
  let a := a + b
  let d := rotateLeft (d ^^^ a) 8
  let c := c + d
  let b := rotateLeft (b ^^^ c) 7
  ⟨a, b, c, d⟩

namespace Block

def transpose (s : Block) : Block :=
  ⟨⟨s.r0.a, s.r1.a, s.r2.a, s.r3.a⟩, ⟨s.r0.b, s.r1.b, s.r2.b, s.r3.b⟩,
   ⟨s.r0.c, s.r1.c, s.r2.c, s.r3.c⟩, ⟨s.r0.d, s.r1.d, s.r2.d, s.r3.d⟩⟩

def columnRound (s : Block) : Block :=
  let t := s.transpose
  transpose ⟨quarterRound t.r0, quarterRound t.r1, quarterRound t.r2, quarterRound t.r3⟩

/-- Turns the rows so that diagonals become columns. -/
def skew (s : Block) : Block :=
  ⟨s.r0, ⟨s.r1.b, s.r1.c, s.r1.d, s.r1.a⟩, ⟨s.r2.c, s.r2.d, s.r2.a, s.r2.b⟩,
   ⟨s.r3.d, s.r3.a, s.r3.b, s.r3.c⟩⟩

def unskew (s : Block) : Block :=
  ⟨s.r0, ⟨s.r1.d, s.r1.a, s.r1.b, s.r1.c⟩, ⟨s.r2.c, s.r2.d, s.r2.a, s.r2.b⟩,
   ⟨s.r3.b, s.r3.c, s.r3.d, s.r3.a⟩⟩

def doubleRound (s : Block) : Block := unskew (columnRound (skew (columnRound s)))

def rounds (s : Block) : Nat → Block
  | 0 => s
  | n + 1 => rounds s.doubleRound n

def addQuads (p q : Quad) : Quad := ⟨p.a + q.a, p.b + q.b, p.c + q.c, p.d + q.d⟩

def add (s t : Block) : Block :=
  ⟨addQuads s.r0 t.r0, addQuads s.r1 t.r1, addQuads s.r2 t.r2, addQuads s.r3 t.r3⟩

def words (s : Block) : List Nat :=
  let pair (low high : UInt32) := low.toNat + high.toNat <<< 32
  [s.r0, s.r1, s.r2, s.r3].flatMap fun q => [pair q.a q.b, pair q.c q.d]

end Block

/-- The key, the number of the next block, and the words of the last one that are not drawn yet. -/
structure Stream where
  key0 : Quad
  key1 : Quad
  next : Nat
  rest : List Nat
deriving Repr

def block (key0 key1 : Quad) (number : Nat) : Block :=
  let start : Block :=
    ⟨⟨0x61707865, 0x3320646e, 0x79622d32, 0x6b206574⟩, key0, key1,
     ⟨number.toUInt32, (number >>> 32).toUInt32, 0, 0⟩⟩
  (start.rounds 6).add start

namespace Stream

def draw (s : Stream) : Nat × Stream :=
  match s.rest with
  | w :: rest => (w, { s with rest := rest })
  | [] =>
    let words := (block s.key0 s.key1 s.next).words
    (words.headD 0, { s with next := s.next + 1, rest := words.tail })

/-- Steps of the congruential generator that expands a seed, and the word each step gives. -/
def expand : Nat → UInt64 → List UInt32
  | 0, _ => []
  | n + 1, state =>
    let state := state * 6364136223846793005 + 11634580027462260723
    let x := (((state >>> 18) ^^^ state) >>> 27).toUInt32
    let turn := (state >>> 59).toUInt32
    ((x >>> turn) ||| (x <<< ((32 - turn) % 32))) :: expand n state

def ofSeed (seed : UInt64) : Stream :=
  match expand 8 seed with
  | [a, b, c, d, e, f, g, h] => ⟨⟨a, b, c, d⟩, ⟨e, f, g, h⟩, 0, []⟩
  | _ => ⟨⟨0, 0, 0, 0⟩, ⟨0, 0, 0, 0⟩, 0, []⟩

end Stream
end ChaCha
end Backtest
