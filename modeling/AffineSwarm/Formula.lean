import AffineSwarm.Gene.Text
import AffineSwarm.Binary64.Basic

/-!
# Formulas

A formula is a gene with a fitness in `[0, 1]` and a feedback in `[-1, 1]`. The gene
spells an affine function: digits 0 and 1 are the sizes of slope and bias, digits 2
and 3 their signs, an odd digit standing for minus. Missing digits count as zero, and
the digits after the first four are carried along without effect.
-/

namespace AffineSwarm

/-- The affine function of a gene. -/
structure Coefficients where
  slope : Int32
  bias : Int32
  deriving DecidableEq, Repr

namespace Coefficients

/-- The number of leading digits that have an effect. -/
def decodedDigits : Nat := 4

/-- A size with the sign that a digit stands for. -/
def signed (size sign : Nat) : Int := if sign % 2 = 1 then -(size : Int) else size

def ofGene (g : Gene) : Coefficients :=
  ⟨Int32.ofInt (signed (g.digit 0) (g.digit 2)), Int32.ofInt (signed (g.digit 1) (g.digit 3))⟩

/-- The nearest 32-bit integer. -/
def saturate (n : Int) : Int32 :=
  Int32.ofInt (max Int32.minValue.toInt (min Int32.maxValue.toInt n))

/-- `slope * input + bias`, saturated to 32 bits. -/
def apply (c : Coefficients) (input : Int32) : Int32 :=
  saturate (c.slope.toInt * input.toInt + c.bias.toInt)

end Coefficients

structure Formula where
  gene : Gene
  fitness : Binary64
  feedback : Binary64
  deriving DecidableEq, Inhabited

namespace Formula

def ofGene (gene : Gene) : Formula := ⟨gene, .zero, .zero⟩

/-- A formula with a fitness claimed by somebody else, kept within `[0, 1]`. -/
def withFitness (gene : Gene) (fitness : Binary64) : Formula := ⟨gene, fitness.clampUnit, .zero⟩

def coefficients (f : Formula) : Coefficients := .ofGene f.gene

def apply (f : Formula) (input : Int32) : Int32 := f.coefficients.apply input

end Formula

end AffineSwarm
