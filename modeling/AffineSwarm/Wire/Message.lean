import AffineSwarm.Gene.Basic
import AffineSwarm.Formula
import AffineSwarm.Error

/-!
# Messages

Nodes greet each other, migrate formulas and acknowledge what they received. Only
greetings and migrations name their sender.
-/

namespace AffineSwarm

inductive Message where
  /-- I am alive. -/
  | hello (id : NodeId)
  /-- Take in this gene; I score it this well. -/
  | migrate (id : NodeId) (gene : Gene) (fitness : Binary64)
  /-- I received your formula. -/
  | ack (status : UInt8)
  deriving DecidableEq

namespace Message

def accepted : UInt8 := 0

/-- The status of a formula that found the event queue full. -/
def queueFull : UInt8 := 1

def migration (id : NodeId) (f : Formula) : Message := .migrate id f.gene f.fitness

/-- The node that a message names as its sender. -/
def sender? : Message → Option NodeId
  | .hello id => some id
  | .migrate id _ _ => some id
  | .ack _ => none

end Message

end AffineSwarm
