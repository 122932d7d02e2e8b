import AffineSwarm.Toml.Number
import AffineSwarm.Toml.Value

/-!
# Reading TOML values

Values and keys are read off a list of tokens. A date can take several tokens, because
points, plus signs and colons are tokens of their own; its text is put together from them.
-/

namespace AffineSwarm.Toml

-- ---------------------------------------------------------------------------
-- Dates
-- ---------------------------------------------------------------------------

/-- The rest of a time of day after its hours: minutes, seconds, a fraction and an
offset. Returns its text. -/
def clockRest? (tokens : List Token) : Option (List Char × List Token) := do
  let (minutes, tokens) ← match tokens with
    | .word m :: tokens => some (m, tokens)
    | _ => none
  let (seconds, tokens) ← match tokens with
    | .colon :: .word s :: tokens => some (s, tokens)
    | _ => none
  let (fraction, tokens) ← match tokens with
    | .period :: .word f :: tokens => some ('.' :: f, tokens)
    | .period :: _ => none
    | tokens => some ([], tokens)
  let (offset, tokens) ← match tokens with
    | .plus :: .word o :: tokens => some ('+' :: o, tokens)
    | .plus :: _ => none
    | tokens => some ([], tokens)
  let (offsetMinutes, tokens) ← match tokens with
    | .colon :: .word m :: tokens => some (':' :: m, tokens)
    | .colon :: _ => none
    | tokens => some ([], tokens)
  return (':' :: minutes ++ ':' :: seconds ++ fraction ++ offset ++ offsetMinutes, tokens)

/-- A date or time that starts with a word; the flag says whether a colon after the word
was taken already. -/
def date? (word : List Char) (colonTaken : Bool) (tokens : List Token) :
    Option (Value × List Token) := do
  let (head, tokens) := match tokens with
    | .blank [' '] :: .word hour :: rest => (word ++ ' ' :: hour, rest)
    | tokens => (word, tokens)
  let (text, tokens) ←
    if colonTaken then (clockRest? tokens).map fun (rest, tokens) => (head ++ rest, tokens)
    else
      match tokens with
      | .colon :: tokens => (clockRest? tokens).map fun (rest, tokens) => (head ++ rest, tokens)
      | tokens => some (head, tokens)
  return (.date text, tokens)

/-- Whether an exponent letter stands right before a minus sign. -/
def hasMinusExponent : List Char → Bool
  | 'e' :: '-' :: _ => true
  | 'E' :: '-' :: _ => true
  | _ :: rest => hasMinusExponent rest
  | [] => false

/-- Whether a word can only be a date. -/
def isDate (word : List Char) : Bool :=
  word.contains 'T' || word.contains 't' ||
    ((word.drop 1).contains '-' && !hasMinusExponent word)

def numberValue? (word : List Char) (tokens : List Token) : Option (Value × List Token) :=
  (number? word tokens).map fun (number, tokens) => (.plain number, tokens)

/-- A word that is a value. -/
def wordValue? (word : List Char) (tokens : List Token) : Option (Value × List Token) :=
  if word = "true".toList then some (.plain (.bool true), tokens)
  else if word = "false".toList then some (.plain (.bool false), tokens)
  else
    let first := word.headD ' '
    if word = "inf".toList || word = "nan".toList || first = '-' || Ascii.isDigit first then
      if isDate word then date? word false tokens
      else
        match tokens with
        | .colon :: tokens => date? word true tokens
        | tokens => numberValue? word tokens
    else none

-- ---------------------------------------------------------------------------
-- Keys
-- ---------------------------------------------------------------------------

def skipBlank : List Token → List Token
  | .blank _ :: rest => rest
  | tokens => tokens

/-- One part of a key: a word or a string on one line. -/
def keyPart? : List Token → Option (String × List Token)
  | .word text :: rest => some (String.ofList text, rest)
  | .string content false :: rest => some (String.ofList content, rest)
  | _ => none

/-- A key: parts with points between them. Blanks after it are skipped. The first
argument bounds the number of parts. -/
def key? : Nat → List Token → Option (List String × List Token)
  | 0, _ => none
  | fuel + 1, tokens => do
    let (part, tokens) ← keyPart? tokens
    match skipBlank tokens with
    | .period :: rest =>
      let (parts, rest) ← key? fuel (skipBlank rest)
      return (part :: parts, rest)
    | tokens => return ([part], tokens)

-- ---------------------------------------------------------------------------
-- Values
-- ---------------------------------------------------------------------------

/-- Skip blanks, line ends and comments. The first argument bounds their number. -/
def skipLines : Nat → List Token → List Token
  | 0, tokens => tokens
  | fuel + 1, tokens =>
    match tokens with
    | .blank _ :: rest => skipLines fuel rest
    | .newline :: rest => skipLines fuel rest
    | .comment :: .newline :: rest => skipLines fuel rest
    | [.comment] => []
    | tokens => tokens

mutual

/-- A value at the start of the tokens. The first argument bounds the recursion. -/
def value? : Nat → List Token → Option (Value × List Token)
  | 0, _ => none
  | fuel + 1, tokens =>
    match tokens with
    | .string content _ :: rest => some (.plain (.text (String.ofList content)), rest)
    | .word word :: rest => wordValue? word rest
    | .plus :: .word word :: rest => numberValue? word rest
    | .openBrace :: rest =>
      match skipBlank rest with
      | .closeBrace :: rest => some (.table false [], rest)
      | rest =>
        (inlineMembers? fuel [] rest).map fun (members, rest) => (.table false members, rest)
    | .openBracket :: rest =>
      (items? fuel rest).map fun (items, rest) => (.list items, rest)
    | _ => none

/-- The members of an inline table, up to its closing brace. -/
def inlineMembers? : Nat → List (String × Value) → List Token →
    Option (List (String × Value) × List Token)
  | 0, _, _ => none
  | fuel + 1, members, tokens => do
    let (path, tokens) ← key? tokens.length tokens
    match tokens with
    | .equals :: rest =>
      let (value, rest) ← value? fuel (skipBlank rest)
      let members ← addDotted value path members
      match skipBlank rest with
      | .closeBrace :: rest => return (members, rest)
      | .comma :: rest => inlineMembers? fuel members (skipBlank rest)
      | _ => none
    | _ => none

/-- The elements of an array, up to its closing bracket. A comma may follow the last
one. -/
def items? : Nat → List Token → Option (List Value × List Token)
  | 0, _ => none
  | fuel + 1, tokens =>
    match skipLines (tokens.length + 1) tokens with
    | .closeBracket :: rest => some ([], rest)
    | tokens => do
      let (item, rest) ← value? fuel tokens
      match skipLines (rest.length + 1) rest with
      | .comma :: rest =>
        let (items, rest) ← items? fuel rest
        return (item :: items, rest)
      | .closeBracket :: rest => return ([item], rest)
      | _ => none

end

end AffineSwarm.Toml
