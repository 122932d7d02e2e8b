import AffineSwarm.Json.Parser

/-!
# Values that have a text

Not every value can be written: a string may have no characters to stand for, and a number has
to be spelled as one.
-/

namespace AffineSwarm.Json

mutual

def isPrintable : Json → Bool
  | .null => true
  | .bool _ => true
  | .number text => scanNumber text == some (text, [])
  | .string content => content.isSome
  | .array items => itemsPrintable items
  | .object members => membersPrintable members

def itemsPrintable : List Json → Bool
  | [] => true
  | item :: rest => isPrintable item && itemsPrintable rest

def membersPrintable : List (Option String × Json) → Bool
  | [] => true
  | (name, value) :: rest => name.isSome && isPrintable value && membersPrintable rest

end

/-- The text of a value; none if it cannot be written. -/
def text? (j : Json) : Option String := if j.isPrintable then some j.text else none

end AffineSwarm.Json
