import AffineSwarm.Text.Alphanumeric
import AffineSwarm.Text.Blank

/-!
# Variable files

A variable file holds lines `NAME=value`, read before the environment is looked at. A
name that is already a variable keeps its value. The first line that cannot be read
ends the reading; what came before it stays.

Values may be quoted. Within double quotes and outside quotes a backslash escapes, and
`$NAME` or `${NAME}` stands for the value of a variable; between single quotes
everything stands for itself. A quoted value may run over several lines. A `#` after a
blank starts a comment.
-/

namespace AffineSwarm.Dotenv

open Ascii (isLetter isDigit)

/-- Variables in the order in which they were set. -/
abbrev Variables := List (String × String)

-- ---------------------------------------------------------------------------
-- Lines
-- ---------------------------------------------------------------------------

/-- Where in a logical line the reading stands. -/
inductive LineState where
  | plain
  | afterBlank
  | escape
  | single
  | singleEscape
  | double
  | doubleEscape
  deriving DecidableEq, Repr

/-- The state after an opening quote, a backslash or any other character. -/
def LineState.opening (c : Char) : LineState :=
  if c = '\\' then .escape
  else if c = '"' then .double
  else if c = '\'' then .single
  else .plain

/-- The state after one more character. -/
def LineState.next (c : Char) : LineState → LineState
  | .afterBlank => opening c
  | .plain => if Blank.isBlank c && c != '\n' && c != '\r' then .afterBlank else opening c
  | .escape => .plain
  | .single => if c = '\\' then .singleEscape else if c = '\'' then .plain else .single
  | .singleEscape => .single
  | .double => if c = '\\' then .doubleEscape else if c = '"' then .plain else .double
  | .doubleEscape => .double

/-- How a physical line ends. -/
inductive LineEnd where
  /-- In this state, after all characters. -/
  | state (s : LineState)
  /-- In a comment, after these characters. -/
  | comment (before : List Char)

/-- Run through a physical line. `before` holds the characters seen, last one first. -/
def lineEnd (before : List Char) : LineState → List Char → LineEnd
  | state, [] => .state state
  | state, c :: rest =>
    if state = .afterBlank ∧ c = '#' then .comment before.reverse
    else lineEnd (c :: before) (state.next c) rest

/-- The first physical line with its line feed, and the text after it. -/
def firstLine (cs : List Char) : List Char × List Char :=
  match cs.dropWhile (· != '\n') with
  | [] => (cs, [])
  | feed :: rest => (cs.takeWhile (· != '\n') ++ [feed], rest)

def cutLineEnd (cs : List Char) : List Char :=
  match cs.reverse with
  | '\n' :: '\r' :: rest => rest.reverse
  | '\n' :: rest => rest.reverse
  | _ => cs

/-- What the next logical line is. -/
inductive Line where
  | text (cs : List Char)
  /-- The text ended within a quotation, an escape or a blank. -/
  | broken

/-- The next logical line, `sofar` being what was read of it, and the text after it;
none at the end of the text. The first argument bounds the number of physical lines. -/
def nextLine : Nat → LineState → (sofar : List Char) → List Char → Option (Line × List Char)
  | 0, _, _, _ => none
  | fuel + 1, state, sofar, cs =>
    if cs.isEmpty then if state = .plain then none else some (.broken, [])
    else
      let (line, rest) := firstLine cs
      let whole := sofar ++ line
      if (whole.dropWhile Blank.isBlank).head? = some '#' then some (.text [], rest)
      else
        match lineEnd [] state line with
        | .comment before => some (.text (sofar ++ before), rest)
        | .state .plain => some (.text (cutLineEnd whole), rest)
        | .state state => nextLine fuel state whole rest

-- ---------------------------------------------------------------------------
-- Values
-- ---------------------------------------------------------------------------

/-- What a value's next character belongs to. -/
inductive ValueState where
  | plain
  | single
  | double
  /-- After a backslash; the flag says whether within double quotes. -/
  | escape (quoted : Bool)
  /-- In the name of a variable, which letters and numbers of any script continue, last
  character first. -/
  | bare (quoted : Bool) (name : List Char)
  /-- In the braced name of a variable, last character first. -/
  | braced (quoted : Bool) (name : List Char)
  /-- After the value, where only a comment may follow. -/
  | ended
  deriving DecidableEq, Repr

def ValueState.unquoted (quoted : Bool) : ValueState := if quoted then .double else .plain

/-- The value of a variable, as characters; empty if it is not set. -/
def valueOf (vars : Variables) (name : List Char) : List Char :=
  ((vars.lookup (String.ofList name.reverse)).getD "").toList

/-- Read a value; `out` holds its characters, last one first. -/
def readValue (vars : Variables) : ValueState → (out : List Char) → List Char → Option (List Char)
  | state, out, [] =>
    match state with
    | .plain => some out.reverse
    | .ended => some out.reverse
    | .escape false => some out.reverse
    | .bare false name => some (out.reverse ++ valueOf vars name)
    | _ => none
  | state, out, c :: rest =>
    match state with
    | .ended =>
      if c = ' ' || c = '\t' then readValue vars .ended out rest
      else if c = '#' then some out.reverse
      else none
    | .escape quoted =>
      if c = '\\' || c = '\'' || c = '"' || c = '$' || c = ' ' then
        readValue vars (.unquoted quoted) (c :: out) rest
      else if c = 'n' then readValue vars (.unquoted quoted) ('\n' :: out) rest
      else none
    | .single =>
      if c = '\'' then readValue vars .plain out rest
      else readValue vars .single (c :: out) rest
    | .bare quoted name =>
      if Alphanumeric.isAlphanumeric c then readValue vars (.bare quoted (c :: name)) out rest
      else if c = '\x7b' && name.isEmpty then readValue vars (.braced quoted []) out rest
      else
        let out := (valueOf vars name).reverse ++ out
        if c = '$' then readValue vars (.bare quoted []) out rest
        else readValue vars (.unquoted quoted) (c :: out) rest
    | .braced quoted name =>
      if c = '\x7d' then
        readValue vars (.unquoted quoted) ((valueOf vars name).reverse ++ out) rest
      else readValue vars (.braced quoted (c :: name)) out rest
    | .double =>
      if c = '$' then readValue vars (.bare true []) out rest
      else if c = '"' then readValue vars .plain out rest
      else if c = '\\' then readValue vars (.escape true) out rest
      else readValue vars .double (c :: out) rest
    | .plain =>
      if c = '$' then readValue vars (.bare false []) out rest
      else if c = '\'' then readValue vars .single out rest
      else if c = '"' then readValue vars .double out rest
      else if c = '\\' then readValue vars (.escape false) out rest
      else if c = ' ' || c = '\t' then readValue vars .ended out rest
      else readValue vars .plain (c :: out) rest

-- ---------------------------------------------------------------------------
-- Definitions
-- ---------------------------------------------------------------------------

/-- What a logical line says. -/
inductive Entry where
  | nothing
  | define (name value : String)

/-- A name: letters, digits, underscores and points, not starting with a digit or point. -/
def readName (cs : List Char) : Option (String × List Char) :=
  match cs with
  | c :: _ =>
    if isLetter c || c = '_' then
      let inName := fun c => isLetter c || isDigit c || c = '_' || c = '.'
      some (String.ofList (cs.takeWhile inName), cs.dropWhile inName)
    else none
  | [] => none

def skipBlanks (cs : List Char) : List Char := cs.dropWhile Blank.isBlank

def readEqual : List Char → Option (List Char)
  | '=' :: rest => some rest
  | _ => none

/-- The name that a line defines, and the text after the equals sign. A line may start
with `export`, which is a name itself if an equals sign follows. -/
def readTarget (cs : List Char) : Option (String × List Char) := do
  let (name, rest) ← readName cs
  match name == "export", readEqual (skipBlanks rest) with
  | _, some rest => return (name, rest)
  | true, none =>
    let (name, rest) ← readName (skipBlanks rest)
    let rest ← readEqual (skipBlanks rest)
    return (name, rest)
  | false, none => none

/-- Read a logical line; blanks at its ends do not count. -/
def readEntry (vars : Variables) (line : List Char) : Option Entry :=
  let cs := Blank.trim line
  if cs.isEmpty || cs.head? = some '#' then some .nothing
  else do
    let (name, rest) ← readTarget cs
    let rest := skipBlanks rest
    if rest.isEmpty || rest.head? = some '#' then return .define name ""
    let value ← readValue vars .plain [] rest
    return .define name (String.ofList value)

/-- Set a variable unless it is set. -/
def define (vars : Variables) (name value : String) : Variables :=
  if (vars.lookup name).isSome then vars else vars ++ [(name, value)]

/-- Read lines until one cannot be read. The first argument bounds their number. -/
def readLines : Nat → Variables → List Char → Variables
  | 0, vars, _ => vars
  | fuel + 1, vars, cs =>
    match nextLine (cs.length + 1) .plain [] cs with
    | some (.text line, rest) =>
      match readEntry vars line with
      | some (.define name value) => readLines fuel (define vars name value) rest
      | some .nothing => readLines fuel vars rest
      | none => vars
    | _ => vars

/-- The variables after a variable file was read. A byte order mark is skipped. -/
def load (text : String) (vars : Variables) : Variables :=
  let cs := match text.toList with
    | '\ufeff' :: rest => rest
    | cs => cs
  readLines (cs.length + 1) vars cs

end AffineSwarm.Dotenv
