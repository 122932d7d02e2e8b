import AffineSwarm.Settings.Value

/-!
# Settings from the environment

A variable whose name starts with `SWARM__`, in any case, is a setting. The rest of its
name, in lower case and with every `__` read as a point, is the name of the setting.
Its value is a flag, an integer, a number or a text, whichever reads it first.
-/

namespace AffineSwarm.Setting

/-- A character of a variable's name in lower case. The Kelvin sign is the one letter
outside ASCII whose lower case lies within, and so could matter to a name. -/
def lowerChar (c : Char) : Char := if c = '\u212a' then 'k' else c.toLower

/-- The marks of a variable that is a setting. -/
def variableMark : List Char := "swarm__".toList

/-- Read every pair of underscores as a point. -/
def pointed : List Char → List Char
  | '_' :: '_' :: rest => '.' :: pointed rest
  | c :: rest => c :: pointed rest
  | [] => []

/-- The setting that a variable names. -/
def variableName? (name : String) : Option String :=
  let cs := name.toList.map lowerChar
  if variableMark.isPrefixOf cs then
    some (String.ofList (pointed (cs.drop variableMark.length)))
  else none

/-- The value that a variable's text gives. -/
def ofVariable (text : String) : Setting :=
  if lowered text = "true" then .bool true
  else if lowered text = "false" then .bool false
  else
    match integerWithin? Int64.minValue.toInt Int64.maxValue.toInt text,
        Decimal.binary64? text.toList with
    | some n, _ => .integer n
    | none, some x => .float x
    | none, none => .text text

/-- The settings among variables. -/
def ofEnvironment (vars : List (String × String)) : List (String × Setting) :=
  vars.foldl (fun settings (name, value) =>
    match variableName? name with
    | some name => insert settings name (ofVariable value)
    | none => settings) []

end AffineSwarm.Setting
