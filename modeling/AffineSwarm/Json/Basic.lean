import AffineSwarm.Decimal.Text
import AffineSwarm.Json.Quoted

/-!
# JSON values

A JSON text as a value. Numbers are kept as they are written, so that no digit is lost
before it is known what they are used for; a string that has no characters to stand for
is kept as such. Objects keep their members in order, repeated names included.
-/

namespace AffineSwarm

inductive Json where
  | null
  | bool (b : Bool)
  /-- A number as written. -/
  | number (text : List Char)
  /-- A string; `none` if one of its escapes stands for no character. -/
  | string (content : Option String)
  | array (items : List Json)
  | object (members : List (Option String × Json))

namespace Json

-- ---------------------------------------------------------------------------
-- Building
-- ---------------------------------------------------------------------------

def ofText (s : String) : Json := .string (some s)

def ofNat (n : Nat) : Json := .number (Decimal.digitText n).toList

def ofInt (n : Int) : Json := .number (Decimal.intText n).toList

/-- A binary64 number; JSON has no form for NaN and infinities. -/
def ofBinary64 (x : Binary64) : Json :=
  if x.isFinite then .number (Decimal.Layout.json.text x).toList else .null

/-- An object with the given members, in order. -/
def ofFields (fields : List (String × Json)) : Json :=
  .object (fields.map fun (name, value) => (some name, value))

-- ---------------------------------------------------------------------------
-- Writing
-- ---------------------------------------------------------------------------

/-- A string with its quotes. -/
def stringChars (content : Option String) : List Char :=
  '"' :: Quoted.encode (content.getD "").toList ++ ['"']

mutual

/-- The compact text of a value: no blanks at all. -/
def chars : Json → List Char
  | .null => "null".toList
  | .bool true => "true".toList
  | .bool false => "false".toList
  | .number text => text
  | .string content => stringChars content
  | .array items => '[' :: itemsChars items ++ [']']
  | .object members => '{' :: membersChars members ++ ['}']

def itemsChars : List Json → List Char
  | [] => []
  | [item] => chars item
  | item :: rest => chars item ++ ',' :: itemsChars rest

def membersChars : List (Option String × Json) → List Char
  | [] => []
  | [(name, value)] => stringChars name ++ ':' :: chars value
  | (name, value) :: rest => stringChars name ++ ':' :: chars value ++ ',' :: membersChars rest

end

def text (j : Json) : String := String.ofList j.chars

-- ---------------------------------------------------------------------------
-- Depth
-- ---------------------------------------------------------------------------

mutual

/-- How deeply arrays and objects are nested. -/
def depth : Json → Nat
  | .array items => itemsDepth items + 1
  | .object members => membersDepth members + 1
  | _ => 0

def itemsDepth : List Json → Nat
  | [] => 0
  | item :: rest => max (depth item) (itemsDepth rest)

def membersDepth : List (Option String × Json) → Nat
  | [] => 0
  | (_, value) :: rest => max (depth value) (membersDepth rest)

end

end Json

end AffineSwarm
