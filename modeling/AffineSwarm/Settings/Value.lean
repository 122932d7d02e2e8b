import AffineSwarm.Decimal.Reading
import AffineSwarm.Decimal.Text
import AffineSwarm.Record.Reader

/-!
# Settings

Settings come from files and from the environment and are merged before anything is
read from them, so they are kept as values without a fixed meaning. What a value gives
where a number, a flag or a text is wanted is decided when it is read; the reader is
generous and converts between them.
-/

namespace AffineSwarm

inductive Setting where
  /-- Nothing: an explicit null, or a skipped place of a list. -/
  | absent
  | bool (b : Bool)
  | integer (n : Int)
  | float (x : Binary64)
  | text (s : String)
  | list (items : List Setting)
  /-- Named values; a name stands at most once. -/
  | table (members : List (String × Setting))

namespace Setting

def lookup (members : List (String × Setting)) (name : String) : Option Setting :=
  members.lookup name

/-- Put a value under a name, in place of the old one if there is one. -/
def insert (members : List (String × Setting)) (name : String) (value : Setting) :
    List (String × Setting) :=
  match members with
  | [] => [(name, value)]
  | (other, old) :: rest =>
    if other = name then (name, value) :: rest else (other, old) :: insert rest name value

-- ---------------------------------------------------------------------------
-- Conversions
-- ---------------------------------------------------------------------------

/-- The words that mean yes and the words that mean no. -/
def yesWord (s : String) : Bool := ["true", "on", "yes"].contains s
def noWord (s : String) : Bool := ["false", "off", "no"].contains s

/-- A text in lower case; only ASCII letters matter to the words it is compared with. -/
def lowered (s : String) : String := String.ofList (s.toList.map Char.toLower)

/-- The integer that a text writes, if it is within bounds. -/
def integerWithin? (low high : Int) (s : String) : Option Int :=
  match Decimal.integer? s.toList with
  | some n => if low ≤ n ∧ n ≤ high then some n else none
  | none => none

/-- A text as an integer within bounds: a word for yes or no, or digits. -/
def textInteger? (low high : Int) (s : String) : Option Int :=
  if yesWord (lowered s) then some 1
  else if noWord (lowered s) then some 0
  else integerWithin? low high s

/-- The largest natural number of 64 bits. -/
def largestNatural : Int := UInt64.size - 1

/-- A value as a natural number of 64 bits. -/
def natural64? : Setting → Option Nat
  | .integer n => if 0 ≤ n then some n.toNat else none
  | .float x => some (x.roundWithin 0 largestNatural).toNat
  | .bool b => some (if b then 1 else 0)
  | .text s =>
    if s.startsWith "-" then none else (textInteger? 0 largestNatural s).map Int.toNat
  | _ => none

/-- A value as an integer of 64 bits. -/
def integer64? : Setting → Option Int
  | .integer n => some n
  | .float x => some (x.roundWithin Int64.minValue.toInt Int64.maxValue.toInt)
  | .bool b => some (if b then 1 else 0)
  | .text s => textInteger? Int64.minValue.toInt Int64.maxValue.toInt s
  | _ => none

def bool? : Setting → Option Bool
  | .bool b => some b
  | .integer n => some (n != 0)
  | .float x => some (x.isNaN || x.magnitude != 0)
  | .text s =>
    let s := lowered s
    if yesWord s || s == "1" then some true
    else if noWord s || s == "0" then some false
    else none
  | _ => none

def text? : Setting → Option String
  | .text s => some s
  | .bool b => some (if b then "true" else "false")
  | .integer n => some (Decimal.intText n)
  | .float x => some (Decimal.Layout.plain.text x)
  | _ => none

def items? : Setting → Option (List Setting)
  | .list items => some items
  | _ => none

/-- The values of the named fields; in a list the fields stand in order, and surplus
elements are ignored. -/
def fields? (names : List String) : Setting → Option (List (Option Setting))
  | .table members => some (names.map (lookup members))
  | .list items => some (Reader.inOrder names items)
  | _ => none

/-- The generous reader. Numbers of few bits keep the lowest bits of the value. -/
def generous : Reader Setting where
  unsigned := fun width v => v.natural64?.map (· % (1 <<< width))
  signed := fun v => v.integer64?.map Int32.ofInt
  bool := bool?
  text := text?
  items := items?
  fields := fields?

end Setting

end AffineSwarm
