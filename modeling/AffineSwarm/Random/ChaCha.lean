import AffineSwarm.Random.WordStream

/-!
# The ChaCha8 word stream

Pools and nodes draw from ChaCha with eight rounds, keyed by a 64-bit seed. The
seed is stretched to a 256-bit key by eight steps of a permuted congruential
generator; the block counter has 64 bits and starts at zero, and so does the stream
number. The words of the blocks are the stream, in order.
-/

namespace AffineSwarm.ChaCha

-- ---------------------------------------------------------------------------
-- The block function
-- ---------------------------------------------------------------------------

/-- Four words: a row of a block. -/
structure Row where
  a : UInt32
  b : UInt32
  c : UInt32
  d : UInt32
  deriving DecidableEq, Repr

def rotateLeft (x : UInt32) (n : UInt32) : UInt32 := x <<< n ||| x >>> (32 - n)

namespace Row

def toList (r : Row) : List UInt32 := [r.a, r.b, r.c, r.d]

/-- The sum of two rows, word by word. -/
def add (r s : Row) : Row := ⟨r.a + s.a, r.b + s.b, r.c + s.c, r.d + s.d⟩

/-- The words that differ between two rows, each rotated. -/
def mix (r s : Row) (n : UInt32) : Row :=
  ⟨rotateLeft (r.a ^^^ s.a) n, rotateLeft (r.b ^^^ s.b) n, rotateLeft (r.c ^^^ s.c) n,
    rotateLeft (r.d ^^^ s.d) n⟩

/-- The row with every word one place on, the first one last. -/
def turn (r : Row) : Row := ⟨r.b, r.c, r.d, r.a⟩

end Row

/-- Sixteen words in four rows. -/
structure Block where
  first : Row
  second : Row
  third : Row
  fourth : Row
  deriving DecidableEq, Repr

namespace Block

/-- The words of a block, row by row. -/
def words (s : Block) : List UInt32 :=
  s.first.toList ++ s.second.toList ++ s.third.toList ++ s.fourth.toList

def add (s t : Block) : Block :=
  ⟨s.first.add t.first, s.second.add t.second, s.third.add t.third, s.fourth.add t.fourth⟩

def mixColumns (s : Block) : Block :=
  let a := s.first.add s.second
  let d := s.fourth.mix a 16
  let c := s.third.add d
  let b := s.second.mix c 12
  let a := a.add b
  let d := d.mix a 8
  let c := c.add d
  ⟨a, b.mix c 7, c, d⟩

/-- Turn the rows so that every diagonal becomes a column. -/
def diagonalsUp (s : Block) : Block :=
  ⟨s.first, s.second.turn, s.third.turn.turn, s.fourth.turn.turn.turn⟩

/-- Turn the rows back. -/
def diagonalsBack (s : Block) : Block :=
  ⟨s.first, s.second.turn.turn.turn, s.third.turn.turn, s.fourth.turn⟩

/-- One round on the columns and one on the diagonals. -/
def doubleRound (s : Block) : Block := s.mixColumns.diagonalsUp.mixColumns.diagonalsBack

/-- Eight rounds, then the input is added word by word. -/
def permute (s : Block) : Block := s.doubleRound.doubleRound.doubleRound.doubleRound.add s

end Block

/-- The key words, in two rows. -/
structure Key where
  low : Row
  high : Row
  deriving DecidableEq, Repr

/-- The block with the given number: constants, key, counter, stream number 0. -/
def Key.block (key : Key) (counter : UInt64) : Block :=
  Block.permute ⟨⟨0x61707865, 0x3320646e, 0x79622d32, 0x6b206574⟩, key.low, key.high,
    ⟨counter.toUInt32, (counter >>> 32).toUInt32, 0, 0⟩⟩

-- ---------------------------------------------------------------------------
-- Seeds
-- ---------------------------------------------------------------------------

/-- One step of the congruential generator. -/
def seedStep (state : UInt64) : UInt64 :=
  state * 6364136223846793005 + 11634580027462260723

/-- The word of a generator state: xor-shifted high bits, rotated by the top bits. -/
def seedWord (state : UInt64) : UInt32 :=
  let shifted := (((state >>> 18) ^^^ state) >>> 27).toUInt32
  let rotation := (state >>> 59).toUInt32
  shifted >>> rotation ||| shifted <<< ((32 - rotation) % 32)

/-- The words of the next four states, and the last of these. -/
def seedRow (state : UInt64) : Row × UInt64 :=
  let first := seedStep state
  let second := seedStep first
  let third := seedStep second
  let fourth := seedStep third
  (⟨seedWord first, seedWord second, seedWord third, seedWord fourth⟩, fourth)

def Key.ofSeed (seed : UInt64) : Key :=
  let (low, state) := seedRow seed
  ⟨low, (seedRow state).1⟩

-- ---------------------------------------------------------------------------
-- The stream
-- ---------------------------------------------------------------------------

/-- A place in the stream: the words left of the current block and the number of the
block after it. -/
structure Stream where
  key : Key
  left : List UInt32
  next : UInt64
  deriving DecidableEq, Repr

/-- The stream of a seed, at its start. -/
def Stream.ofSeed (seed : UInt64) : Stream := ⟨Key.ofSeed seed, [], 0⟩

/-- The next word; an exhausted block is followed by the next one. -/
def Stream.word (s : Stream) : UInt32 × Stream :=
  match s.left with
  | w :: rest => (w, { s with left := rest })
  | [] =>
    let words := (s.key.block s.next).words
    (words.headD 0, { s with left := words.tail, next := s.next + 1 })

instance : WordStream Stream := ⟨Stream.word⟩

end AffineSwarm.ChaCha
