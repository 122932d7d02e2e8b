import AffineSwarm.Formula
import AffineSwarm.Json.Record

/-!
# Formulas in JSON

A gene is a JSON string of its digits, a formula an object with gene, fitness and
feedback.
-/

namespace AffineSwarm

namespace Gene

def toJson (g : Gene) : Json := .ofText g.text

def ofJson? (j : Json) : Option Gene := do
  let text ← j.string?
  (ofText? text).toOption

end Gene

namespace Formula

def toJson (f : Formula) : Json :=
  .ofFields [("gene", f.gene.toJson), ("fitness", .ofBinary64 f.fitness),
    ("feedback", .ofBinary64 f.feedback)]

def ofJson? (j : Json) : Option Formula := do
  let fields ← j.fields? ["gene", "fitness", "feedback"]
  match fields with
  | [gene, fitness, feedback] =>
    let gene ← Reader.required Gene.ofJson? gene
    let fitness ← Reader.required Json.number? fitness
    let feedback ← Reader.required Json.number? feedback
    return ⟨gene, fitness, feedback⟩
  | _ => none

end Formula

end AffineSwarm
