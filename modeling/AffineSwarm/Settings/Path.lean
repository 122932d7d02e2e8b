import AffineSwarm.Settings.Value

/-!
# Paths into settings

The name of a setting is a path: names joined by points, with indices in brackets, as
in `examples[0].input`. A name that is no path stands for itself. Setting a value
through a path makes the tables and lists on the way, in place of whatever else is
there. Where a table is set, its members are merged into the table that is there;
any other value takes the place of the old one.
-/

namespace AffineSwarm.Setting

inductive Step where
  | name (s : String)
  | index (i : Int)
  deriving DecidableEq, Repr

namespace Path

-- ---------------------------------------------------------------------------
-- Reading
-- ---------------------------------------------------------------------------

/-- Whether a character may stand in a name. -/
def isNameChar (c : Char) : Bool :=
  Ascii.isLetter c || Ascii.isDigit c || c == ' ' || c == '_' || c == '-'

/-- A name of at least one character. -/
def name? (cs : List Char) : Option (Step × List Char) :=
  match cs.takeWhile isNameChar with
  | [] => none
  | name => some (.name (String.ofList name), cs.dropWhile isNameChar)

def isSpace (c : Char) : Bool := c == ' ' || c == '\t'

/-- An index and its closing bracket. Blanks around the index are skipped. -/
def index? (cs : List Char) : Option (Step × List Char) :=
  let cs := cs.dropWhile isSpace
  let (sign, cs) := match cs with
    | '-' :: rest => (['-'], rest)
    | cs => ([], cs)
  let digits := cs.takeWhile Ascii.isDigit
  match Decimal.integer? (sign ++ digits), (cs.dropWhile Ascii.isDigit).dropWhile isSpace with
  | some i, ']' :: rest => if Decimal.isInt64 i then some (.index i, rest) else none
  | _, _ => none

/-- The steps after the first one. The first argument bounds their number. -/
def steps? : Nat → List Char → Option (List Step)
  | _, [] => some []
  | 0, _ => none
  | fuel + 1, '.' :: rest => do
    let (step, rest) ← name? rest
    return step :: (← steps? fuel rest)
  | fuel + 1, '[' :: rest => do
    let (step, rest) ← index? rest
    return step :: (← steps? fuel rest)
  | _, _ => none

def parse? (cs : List Char) : Option (List Step) := do
  let (first, rest) ← name? cs
  return first :: (← steps? cs.length rest)

def ofName (name : String) : List Step := (parse? name.toList).getD [.name name]

end Path

-- ---------------------------------------------------------------------------
-- Merging
-- ---------------------------------------------------------------------------

/-- The members of a table; any other value has none. -/
def members : Setting → List (String × Setting)
  | .table ms => ms
  | _ => []

/-- The elements of a list; any other value has none. -/
def elements : Setting → List Setting
  | .list vs => vs
  | _ => []

mutual

/-- The value that results from setting a new value where there may be an old one. -/
def merge : Setting → Option Setting → Setting
  | .table ms, old => mergeMembers ms (old.getD (.table []))
  | value, _ => value

/-- Set named values in a value, which becomes a table if there are any. -/
def mergeMembers : List (String × Setting) → Setting → Setting
  | [], target => target
  | (name, value) :: rest, target =>
    let ms := target.members
    mergeMembers rest (.table (insert ms name (merge value (lookup ms name))))

end

/-- The place of an index in a list; a negative one counts from the end. -/
def placeOf (i : Int) (length : Nat) : Nat := if 0 ≤ i then i.toNat else length - i.natAbs

/-- Change the element at a place. The list is filled up to it. -/
def modifyPlace (place : Nat) (change : Setting → Setting) (vs : List Setting) : List Setting :=
  let filled := vs ++ List.replicate (place + 1 - vs.length) .absent
  filled.modify place change

/-- Set a value at the end of a path. -/
def assign (value : Setting) : List Step → Setting → Setting
  | [], _ => value
  | [.name n], target =>
    let ms := target.members
    .table (insert ms n (merge value (lookup ms n)))
  | .name n :: rest, target =>
    let ms := target.members
    .table (insert ms n (assign value rest ((lookup ms n).getD .absent)))
  | .index i :: rest, target =>
    let vs := target.elements
    .list (modifyPlace (placeOf i vs.length) (assign value rest) vs)

/-- Set every named value of a source, the name being a path. -/
def assignAll (source : List (String × Setting)) (target : Setting) : Setting :=
  source.foldl (fun target (name, value) => assign value (Path.ofName name) target) target

end AffineSwarm.Setting
