import AffineSwarm.Json.Record
import AffineSwarm.Node.Record
import AffineSwarm.Settings.Dotenv
import AffineSwarm.Settings.Environment
import AffineSwarm.Settings.Path
import AffineSwarm.Toml.Document

/-!
# Loading the configuration

A node's configuration is layered: standard values, then a settings file, then the
environment, into which a variable file may have put further variables. The result is
validated.
-/

namespace AffineSwarm

namespace Setting

/-- The deepest nesting that a settings file may have. -/
def deepestNesting : Nat := 127

mutual

/-- A JSON value as a setting. A value that cannot be represented spoils the whole. -/
def ofJson? : Json → Option Setting
  | .null => some .absent
  | .bool b => some (.bool b)
  | .number digits =>
    match Json.integer? digits with
    | some n =>
      if Decimal.isInt64 n then some (.integer n) else (Json.binary64? digits).map .float
    | none => (Json.binary64? digits).map .float
  | .string content => content.map .text
  | .array items => (ofJsonItems? items).map .list
  | .object members => (ofJsonMembers? members []).map .table

def ofJsonItems? : List Json → Option (List Setting)
  | [] => some []
  | item :: rest => do return (← ofJson? item) :: (← ofJsonItems? rest)

/-- The members of an object, added to those given; of a repeated name the last counts. -/
def ofJsonMembers? : List (Option String × Json) → List (String × Setting) →
    Option (List (String × Setting))
  | [], ms => some ms
  | (name, value) :: rest, ms => do
    ofJsonMembers? rest (insert ms (← name) (← ofJson? value))

end

end Setting

/-- A settings file: the extension of its name, and its content if there is such a file. -/
structure SettingsFile where
  extension : String
  content : Option String

/-- The named values of a settings file, if it can be read. A file that is one value
without names has none. -/
def SettingsFile.members? (file : SettingsFile) : Option (List (String × Setting)) := do
  let content ← file.content
  match file.extension with
  | "toml" => Toml.parse? content
  | "json" =>
    let json ← Json.parse? content
    if Setting.deepestNesting < json.depth then none
    else return (← Setting.ofJson? json).members
  | _ => none

namespace NodeConfig

inductive LoadError where
  /-- A source cannot be read, or a setting cannot be converted to what it is for. -/
  | unreadable
  | invalid (error : SwarmError)
  deriving Repr

/-- Load a configuration from a settings file, a variable file and the environment. -/
def load (file : Option SettingsFile) (variableFile : Option String)
    (environment : Dotenv.Variables) : Except LoadError NodeConfig :=
  let vars := match variableFile with
    | some text => Dotenv.load text environment
    | none => environment
  let fromFile := match file with
    | some file => file.members?
    | none => some []
  let loaded := fromFile >>= fun members =>
    let base := Setting.assignAll members (.table [])
    read? Setting.generous (Setting.assignAll (Setting.ofEnvironment vars) base)
  match loaded with
  | none => .error .unreadable
  | some config =>
    match config.validate with
    | .error e => .error (.invalid e)
    | .ok () => .ok config

end NodeConfig

end AffineSwarm
