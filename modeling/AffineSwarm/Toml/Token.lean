import AffineSwarm.Bytes.Hex
import AffineSwarm.Text.Ascii

/-!
# TOML tokens

A TOML text is a sequence of blanks, line ends, comments, marks, bare words and strings.
A carriage return counts only together with the line feed after it.
-/

namespace AffineSwarm.Toml

inductive Token where
  | blank (text : List Char)
  | newline
  | comment
  | equals
  | period
  | comma
  | colon
  | plus
  | openBrace
  | closeBrace
  | openBracket
  | closeBracket
  /-- Letters, digits, hyphens and underscores. -/
  | word (text : List Char)
  | string (content : List Char) (multiline : Bool)
  deriving DecidableEq, Repr

/-- Join every carriage return with the line feed after it. -/
def foldLineEnds : List Char → List Char
  | '\r' :: '\n' :: rest => '\n' :: foldLineEnds rest
  | c :: rest => c :: foldLineEnds rest
  | [] => []

def isWordChar (c : Char) : Bool :=
  Ascii.isLetter c || Ascii.isDigit c || c = '-' || c = '_'

def isSpace (c : Char) : Bool := c = ' ' || c = '\t'

/-- Whether a character may stand in a comment. -/
def isCommentChar (c : Char) : Bool := c = '\t' || 0x20 ≤ c.toNat

/-- Whether a character may stand in a string as it is. -/
def isStringChar (c : Char) : Bool := c = '\t' || (0x20 ≤ c.toNat && c.toNat != 0x7f)

-- ---------------------------------------------------------------------------
-- Strings
-- ---------------------------------------------------------------------------

/-- The character with a code, if there is one. -/
def charOfCode? (n : Nat) : Option Char := if n.isValidChar then some (Char.ofNat n) else none

/-- The character of an escape with so many hexadecimal digits. -/
def hexEscape? (digits : Nat) (cs : List Char) : Option (Char × List Char) := do
  let values ← (cs.take digits).mapM Hex.value?
  if values.length = digits then
    let c ← charOfCode? (values.foldl (fun n d => n * 16 + d) 0)
    return (c, cs.drop digits)
  else none

def shortEscape? (c : Char) : Option Char :=
  match c with
  | '"' => some '"'
  | '\\' => some '\\'
  | 'b' => some '\x08'
  | 'f' => some '\x0c'
  | 'n' => some '\n'
  | 'r' => some '\r'
  | 't' => some '\t'
  | _ => none

/-- Skip the line end after a backslash and all blanks and line ends after that. -/
def skipContinuation (cs : List Char) : Option (List Char) :=
  let skip := fun cs : List Char => cs.dropWhile fun c => isSpace c || c = '\n'
  match cs.dropWhile isSpace with
  | [] => some []
  | '\n' :: rest => some (skip rest)
  | _ => none

/-- An escape after its backslash: a character, or none for a line continuation. -/
def escape? (multiline : Bool) (cs : List Char) : Option (Option Char × List Char) :=
  match cs with
  | [] => none
  | 'u' :: rest => (hexEscape? 4 rest).map fun (c, rest) => (some c, rest)
  | 'U' :: rest => (hexEscape? 8 rest).map fun (c, rest) => (some c, rest)
  | c :: rest =>
    match shortEscape? c with
    | some c => some (some c, rest)
    | none =>
      if multiline && (isSpace c || c = '\n') then
        (skipContinuation (c :: rest)).map fun rest => (none, rest)
      else none

/-- How a string is delimited. -/
structure Quotation where
  delimiter : Char
  escapes : Bool
  multiline : Bool

/-- The content of a string up to its closing delimiters, and the text after them. `out`
holds what was read, last character first; the first argument bounds the recursion. A
multiline string may end in one or two delimiters of its own. -/
def content? (q : Quotation) : Nat → (out : List Char) → List Char → Option (List Char × List Char)
  | 0, _, _ => none
  | _, _, [] => none
  | fuel + 1, out, c :: rest =>
    if c = '\n' then if q.multiline then content? q fuel (c :: out) rest else none
    else if c = q.delimiter then
      if !q.multiline then some (out.reverse, rest)
      else
        match rest.takeWhile (· == c) with
        | [] => content? q fuel (c :: out) rest
        | [_] => content? q fuel (c :: c :: out) (rest.drop 1)
        | [_, _] => some (out.reverse, rest.drop 2)
        | [_, _, _] => some ((c :: out).reverse, rest.drop 3)
        | _ => some ((c :: c :: out).reverse, rest.drop 4)
    else if c = '\\' && q.escapes then
      match escape? q.multiline rest with
      | some (some c, rest) => content? q fuel (c :: out) rest
      | some (none, rest) => content? q fuel out rest
      | none => none
    else if isStringChar c then content? q fuel (c :: out) rest
    else none

/-- A string after its first delimiter. A line end right after three delimiters is not
part of the content. -/
def string? (delimiter : Char) (cs : List Char) : Option (Token × List Char) :=
  let escapes := delimiter = '"'
  match cs.takeWhile (· == delimiter) with
  | [] =>
    (content? ⟨delimiter, escapes, false⟩ (cs.length + 1) [] cs).map fun (content, rest) =>
      (.string content false, rest)
  | [_] => some (.string [] false, cs.drop 1)
  | _ =>
    let body := match cs.drop 2 with
      | '\n' :: rest => rest
      | rest => rest
    (content? ⟨delimiter, escapes, true⟩ (body.length + 1) [] body).map fun (content, rest) =>
      (.string content true, rest)

-- ---------------------------------------------------------------------------
-- Tokens
-- ---------------------------------------------------------------------------

/-- The first token of a text and the text after it. -/
def token? (c : Char) (rest : List Char) : Option (Token × List Char) :=
  match c with
  | '\n' => some (.newline, rest)
  | '#' => some (.comment, rest.dropWhile isCommentChar)
  | '=' => some (.equals, rest)
  | '.' => some (.period, rest)
  | ',' => some (.comma, rest)
  | ':' => some (.colon, rest)
  | '+' => some (.plus, rest)
  | '{' => some (.openBrace, rest)
  | '}' => some (.closeBrace, rest)
  | '[' => some (.openBracket, rest)
  | ']' => some (.closeBracket, rest)
  | '"' => string? '"' rest
  | '\'' => string? '\'' rest
  | c =>
    if isSpace c then some (.blank (c :: rest.takeWhile isSpace), rest.dropWhile isSpace)
    else if isWordChar c then
      some (.word (c :: rest.takeWhile isWordChar), rest.dropWhile isWordChar)
    else none

/-- The tokens of a text. The first argument bounds their number. -/
def tokens? : Nat → List Char → Option (List Token)
  | _, [] => some []
  | 0, _ => none
  | fuel + 1, c :: rest => do
    let (token, rest) ← token? c rest
    return token :: (← tokens? fuel rest)

/-- The tokens of a whole text. A byte order mark is skipped. -/
def tokenize? (text : String) : Option (List Token) :=
  let cs := match foldLineEnds text.toList with
    | '\ufeff' :: rest => rest
    | cs => cs
  tokens? cs.length cs

end AffineSwarm.Toml
