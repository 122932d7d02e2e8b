import AffineSwarm.Json.Number
import AffineSwarm.Record.Reader

/-!
# Records in JSON

The strict way of reading records: nothing is converted, a known field may stand only
once, and unknown fields are skipped. A record may also be written as an array of its
fields in order, which must not have too many elements.
-/

namespace AffineSwarm.Json

/-- A natural number of so many bits. -/
def unsigned? (width : Nat) : Json → Option Nat
  | .number text =>
    match integer? text with
    | some (.ofNat n) => if n < 1 <<< width then some n else none
    | _ => none
  | _ => none

/-- An integer of so many bits. -/
def signed? (width : Nat) : Json → Option Int
  | .number text =>
    match integer? text with
    | some n =>
      let bound : Int := (1 <<< (width - 1) : Nat)
      if -bound ≤ n ∧ n < bound then some n else none
    | none => none
  | _ => none

def bool? : Json → Option Bool
  | .bool b => some b
  | _ => none

def string? : Json → Option String
  | .string content => content
  | _ => none

/-- A binary64 number; integers are numbers too. -/
def number? : Json → Option Binary64
  | .number text => binary64? text
  | _ => none

def items? : Json → Option (List Json)
  | .array items => some items
  | _ => none

/-- The value of a member that must not stand twice. -/
def member? (members : List (Option String × Json)) (name : String) : Option (Option Json) :=
  match members.filter fun m => decide (m.1 = some name) with
  | [] => some none
  | [m] => some (some m.2)
  | _ => none

/-- The values of the named fields. -/
def fields? (names : List String) : Json → Option (List (Option Json))
  | .object members =>
    if members.all fun m => m.1.isSome then names.mapM (member? members) else none
  | .array items => if items.length ≤ names.length then some (Reader.inOrder names items) else none
  | _ => none

def strict : Reader Json where
  unsigned := unsigned?
  signed := fun j => (signed? 32 j).map Int32.ofInt
  bool := bool?
  text := string?
  items := items?
  fields := fields?

end AffineSwarm.Json
