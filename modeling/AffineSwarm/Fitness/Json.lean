import AffineSwarm.Fitness
import AffineSwarm.Json.Record

/-!
# Examples as records

An example is an object with input and target.
-/

namespace AffineSwarm.Example

def toJson (e : Example) : Json :=
  .ofFields [("input", .ofInt e.input.toInt), ("target", .ofInt e.target.toInt)]

/-- Read an example; both fields must be there. -/
def read? {V : Type} (r : Reader V) (v : V) : Option Example := do
  let fields ← r.fields ["input", "target"] v
  match fields with
  | [input, target] =>
    let input ← Reader.required r.signed input
    let target ← Reader.required r.signed target
    return ⟨input, target⟩
  | _ => none

def ofJson? (j : Json) : Option Example := read? Json.strict j

end AffineSwarm.Example
