import AffineSwarm.Toml.Reading

/-!
# TOML documents

A document is a sequence of sections: the lines before the first header, then every
header with the lines after it. A header names a table, or a further element of an array
of tables, by its path. A table may have one section of its own, though tables inside it
may have theirs before it.

Reading yields the sections; what they make together is worked out from their paths
afterwards. A table that is a date in disguise leaves the sections inside it unused. They
are an error, unless the table is an element of an array, where they fall to the next
element, or the whole document, where nothing else counts.
-/

namespace AffineSwarm.Toml

/-- A header's path, whether it opens an element of an array, and the lines after it. -/
structure Section where
  path : List String
  isElement : Bool
  lines : List (String × Value)

-- ---------------------------------------------------------------------------
-- Reading
-- ---------------------------------------------------------------------------

/-- The end of a line: an optional comment, then a line end or the end of the text. -/
def endLine? (tokens : List Token) : Option (List Token) :=
  match skipBlank tokens with
  | [] => some []
  | .newline :: rest => some rest
  | [.comment] => some []
  | .comment :: .newline :: rest => some rest
  | _ => none

/-- A header after its first bracket, as a section without lines. -/
def header? (tokens : List Token) : Option (Section × List Token) := do
  let (isElement, tokens) := match tokens with
    | .openBracket :: rest => (true, rest)
    | tokens => (false, tokens)
  let (path, tokens) ← key? tokens.length (skipBlank tokens)
  let tokens ← match isElement, tokens with
    | true, .closeBracket :: .closeBracket :: rest => some rest
    | false, .closeBracket :: rest => some rest
    | _, _ => none
  return (⟨path, isElement, []⟩, ← endLine? tokens)

def keyValue? (tokens : List Token) : Option ((List String × Value) × List Token) := do
  let (path, tokens) ← key? tokens.length tokens
  match tokens with
  | .equals :: rest =>
    let (value, rest) ← value? (2 * rest.length + 2) (skipBlank rest)
    return ((path, value), ← endLine? rest)
  | _ => none

/-- Read lines into a section, and the sections after it. The first argument bounds the
number of lines. -/
def sections? : Nat → Section → List Token → Option (List Section)
  | fuel, current, tokens =>
    match fuel, skipLines (tokens.length + 1) tokens with
    | _, [] => some [current]
    | 0, _ => none
    | fuel + 1, .openBracket :: rest => do
      let (next, rest) ← header? rest
      return current :: (← sections? fuel next rest)
    | fuel + 1, tokens => do
      let ((path, value), rest) ← keyValue? tokens
      let lines ← addDotted value path current.lines
      sections? fuel { current with lines } rest

-- ---------------------------------------------------------------------------
-- Tables
-- ---------------------------------------------------------------------------

/-- A section as a part of the member of a name, if it is one. -/
def Section.within? (name : String) (s : Section) : Option Section :=
  match s.path with
  | [] => none
  | first :: path => if first = name then some { s with path } else none

/-- Whether a section opens an element of the array that it is a part of. -/
def Section.opensElement (s : Section) : Bool := s.isElement && s.path.isEmpty

/-- Put a section after the elements of an array read so far, the last element first. -/
def addToElements (elements : List (List Section)) (s : Section) : List (List Section) :=
  if s.opensElement then [{ s with isElement := false }] :: elements
  else
    match elements with
    | [] => [[s]]
    | last :: earlier => (last ++ [s]) :: earlier

/-- The date that a table is, if its own section comes first and says so, and the sections
that are left. -/
def sectionDate? : List Section → Option (Option Setting × List Section)
  | [] => none
  | s :: rest => if s.path.isEmpty then (markedDate? s.lines).map (·, rest) else none

/-- The members that a table's own section gives it. -/
def ownMembers? (sections : List Section) : Option (List (String × Setting)) :=
  match sections.filter (·.path.isEmpty) with
  | [s] => if s.isElement then none else memberSettings? s.lines
  | _ => none

/-- The array that sections make, and the sections that it does not use. `table?` is to say
what the sections of an element make; those that one element does not use come after the
own section of the next. -/
def array? (table? : List Section → Option (Setting × List Section)) (sections : List Section) :
    Option (Setting × List Section) := do
  let elements := (sections.foldl addToElements []).reverse
  let (items, left) ← elements.foldlM
    (fun (items, left) element => do
      let (item, left) ← table? (element.take 1 ++ left ++ element.drop 1)
      return (items ++ [item], left))
    (([], []) : List Setting × List Section)
  return (.list items, left)

/-- The table that sections make, and the sections that it does not use. Members stand in
the order of their first sections. The first argument bounds the length of the paths. -/
def table? : Nat → List Section → Option (Setting × List Section)
  | 0, _ => none
  | depth + 1, sections =>
    match sectionDate? sections with
    | some (date, rest) => date.map (·, rest)
    | none => do
      let parts ← (sections.map (·.path.head?)).eraseDups.mapM fun
        | none => ownMembers? sections
        | some name => do
          let inner := sections.filterMap (·.within? name)
          let (value, left) ←
            if inner.head?.any (·.opensElement) then array? (table? depth) inner
            else table? depth inner
          if left.isEmpty then return [(name, value)] else none
      let members := parts.flatten
      -- A table inside cannot be the text of a date.
      if members.head?.any (·.1 == dateMark) then none
      else (distinct? members).map (·, [])

/-- The members of the document that a text spells. A document that is a date has none. -/
def parse? (text : String) : Option (List (String × Setting)) := do
  let tokens ← tokenize? text
  let sections ← sections? (tokens.length + 1) ⟨[], false, []⟩ tokens
  let depth := (sections.map (·.path.length)).foldl max 0 + 1
  let (table, _) ← table? depth sections
  match table with
  | .table members => return members
  | _ => return []

end AffineSwarm.Toml
