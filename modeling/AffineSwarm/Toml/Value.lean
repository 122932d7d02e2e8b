import AffineSwarm.Settings.Value
import AffineSwarm.Toml.Date

/-!
# TOML values

Reading keeps the members of a table as they were written. Only when a value is taken as
a setting must dates be dates and the names of a table differ. A table whose first name
is the date mark is a date in disguise: the member under that name must be the text of a
date, the table stands for that text, and its other members do not count.
-/

namespace AffineSwarm.Toml

-- ---------------------------------------------------------------------------
-- Values as they are written
-- ---------------------------------------------------------------------------

/-- A value as it is written. -/
inductive Value where
  /-- A flag, a number or a text. -/
  | plain (value : Setting)
  /-- A word that can only be a date, with its continuation. -/
  | date (text : List Char)
  | list (items : List Value)
  /-- A table; the flag says whether it was made by dotted keys, and so may be added to
  by further ones. -/
  | table (dotted : Bool) (members : List (String × Value))

/-- Replace the first member of a name, or else add one. -/
def setMember (members : List (String × Value)) (name : String) (value : Value) :
    List (String × Value) :=
  match members with
  | [] => [(name, value)]
  | (other, old) :: rest =>
    if other = name then (name, value) :: rest else (other, old) :: setMember rest name value

/-- Add a value under a dotted key. Only the tables on the way must be made by dotted
keys; a last name that is there already stands twice. -/
def addDotted (value : Value) : List String → List (String × Value) →
    Option (List (String × Value))
  | [], _ => none
  | [name], members => some (members ++ [(name, value)])
  | name :: path, members => do
    let inner ← match members.lookup name with
      | none => some []
      | some (.table true inner) => some inner
      | some _ => none
    return setMember members name (.table true (← addDotted value path inner))

-- ---------------------------------------------------------------------------
-- Values as settings
-- ---------------------------------------------------------------------------

/-- The name under which a table keeps the date that it is. -/
def dateMark : String := "$__toml_private_datetime"

def dateSetting? (text : List Char) : Option Setting := (dateTimeText? text).map .text

/-- The date that a table is, if its first name is the date mark. -/
def markedDate? : List (String × Value) → Option (Option Setting)
  | (name, value) :: _ =>
    if name = dateMark then
      match value with
      | .plain (.text s) => some (dateSetting? s.toList)
      | _ => some none
    else none
  | [] => none

/-- A table whose names differ. -/
def distinct? (members : List (String × Setting)) : Option Setting :=
  if (members.map (·.1)).Nodup then some (.table members) else none

mutual

def Value.setting? : Value → Option Setting
  | .plain value => some value
  | .date text => dateSetting? text
  | .list items => (itemSettings? items).map .list
  | .table _ members => (markedDate? members).getD ((memberSettings? members).bind distinct?)

def itemSettings? : List Value → Option (List Setting)
  | [] => some []
  | value :: rest => do return (← value.setting?) :: (← itemSettings? rest)

def memberSettings? : List (String × Value) → Option (List (String × Setting))
  | [] => some []
  | (name, value) :: rest => do return (name, ← value.setting?) :: (← memberSettings? rest)

end

end AffineSwarm.Toml
