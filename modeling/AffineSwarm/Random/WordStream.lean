/-!
# Random draws

Every random decision reads 32-bit words from a stream. `WordStream` is any source
of such words; `below32` and `below64` turn words into a number below a bound by
multiplying and keeping the high part. Words whose low part falls outside the
accepted zone are skipped, so every result has the same share of accepted words.
-/

namespace AffineSwarm

/-- A source of 32-bit words, read one at a time. -/
class WordStream (σ : Type) where
  /-- The next word and the stream after it. -/
  word : σ → UInt32 × σ

namespace WordStream

variable {σ : Type} [WordStream σ]

/-- The next 64 bits: two words, the low one first. -/
def doubleWord (s : σ) : UInt64 × σ :=
  let (low, s) := word s
  let (high, s) := word s
  (high.toUInt64 <<< 32 ||| low.toUInt64, s)

/-- How often a draw looks for an accepted word. Each look fails with probability
at most one half, so the bound is out of reach. -/
def patience : Nat := UInt32.size

/-- The high part of `range * v`, if its low part is at most `zone`. -/
def scaled? (width range zone v : Nat) : Option Nat :=
  if v * range % (1 <<< width) ≤ zone then some ((v * range) >>> width) else none

/-- Draw until `next` gives an accepted value. -/
def drawAccepted (next : σ → Option Nat × σ) : Nat → σ → Nat × σ
  | 0, s => (0, s)
  | fuel + 1, s =>
    match next s with
    | (some n, s) => (n, s)
    | (none, s) => drawAccepted next fuel s

/-- A number below `range`, drawn from single words. The accepted zone is the largest
multiple of `range`. -/
def below32 (range : Nat) (s : σ) : Nat × σ :=
  let zone := UInt32.size - 1 - (UInt32.size - range) % range
  drawAccepted (fun s => let (w, s) := word s; (scaled? 32 range zone w.toNat, s)) patience s

/-- A number below `range`, drawn from double words. The accepted zone is `range`
shifted up to the top bit. -/
def below64 (range : Nat) (s : σ) : Nat × σ :=
  let zone := range <<< (63 - range.log2) - 1
  drawAccepted (fun s => let (w, s) := doubleWord s; (scaled? 64 range zone w.toNat, s))
    patience s

end WordStream

end AffineSwarm
