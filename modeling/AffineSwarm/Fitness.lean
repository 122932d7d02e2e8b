import AffineSwarm.Formula

/-!
# Fitness

Formulas are scored against labelled examples. The error of a formula is the sum of
its absolute errors, and its fitness is `1 / (1 + error) + feedback`, kept within
`[0, 1]`. At most 32 examples are kept; a further one is refused.
-/

namespace AffineSwarm

/-- An input and the output that it should have. -/
structure Example where
  input : Int32
  target : Int32
  deriving DecidableEq, Repr

/-- The most examples that are kept. -/
def maxExamples : Nat := 32

/-- The examples in the order in which they were added. -/
structure ExampleRing where
  items : List Example
  length_le : items.length ≤ maxExamples
  deriving DecidableEq

namespace ExampleRing

def empty : ExampleRing := ⟨[], Nat.zero_le _⟩

instance : Inhabited ExampleRing := ⟨empty⟩

def length (r : ExampleRing) : Nat := r.items.length

def isEmpty (r : ExampleRing) : Bool := r.items.isEmpty

def isFull (r : ExampleRing) : Bool := r.items.length = maxExamples

/-- Add an example at the end; `none` if there is no room. -/
def push? (r : ExampleRing) (e : Example) : Option ExampleRing :=
  if h : r.items.length < maxExamples then
    some ⟨r.items ++ [e], by simp only [List.length_append, List.length_singleton]; exact h⟩
  else none

end ExampleRing

namespace Formula

/-- How far the formula misses the target of an example. -/
def absError (f : Formula) (e : Example) : Nat :=
  ((f.apply e.input).toInt - e.target.toInt).natAbs

/-- The sum of the absolute errors, added in order. -/
def totalError (f : Formula) (examples : List Example) : Binary64 :=
  examples.foldl (fun sum e => sum.add (.ofNat (f.absError e))) .zero

/-- The fitness of a formula on some examples. -/
def evaluate (f : Formula) (examples : List Example) : Binary64 :=
  ((Binary64.one.div (Binary64.one.add (f.totalError examples))).add f.feedback).clampUnit

end Formula

end AffineSwarm
