/-!
# Reading records

A record is read from some kind of value: a JSON value, or a value of layered settings.
The kinds differ in what they accept as a number, a flag or a text, and in how they
treat surplus and repeated fields; a `Reader` says so. Reading fails without a reason,
because no caller tells reasons apart.
-/

namespace AffineSwarm

/-- How the parts of records are read from values of a kind. -/
structure Reader (V : Type) where
  /-- A natural number of so many bits. -/
  unsigned : (width : Nat) → V → Option Nat
  signed : V → Option Int32
  bool : V → Option Bool
  text : V → Option String
  items : V → Option (List V)
  /-- The values of the named fields, in the order of the names; none for a missing one. -/
  fields : (names : List String) → V → Option (List (Option V))

namespace Reader

variable {V α : Type}

/-- A field that must be there. -/
def required (read : V → Option α) : Option V → Option α
  | some v => read v
  | none => none

/-- A field with a value to fall back on. -/
def withDefault (fallback : α) (read : V → Option α) : Option V → Option α
  | some v => read v
  | none => some fallback

def list (r : Reader V) (read : V → Option α) (v : V) : Option (List α) :=
  r.items v >>= fun vs => vs.mapM read

/-- The values given in order for the fields of a record, the missing ones as none. -/
def inOrder (names : List String) (vs : List V) : List (Option V) :=
  (vs.take names.length).map some ++ List.replicate (names.length - vs.length) none

end Reader

end AffineSwarm
