import AffineSwarm.Gene.Basic

/-!
# The text of a gene

A gene is written as its digits, and nothing else is read as a gene: no sign, no
blank, no digit of another script. If a text has a character that is no digit, the
first such character is reported; the length is looked at only after that.
-/

namespace AffineSwarm.Gene

def digitChar (d : Fin 10) : Char := Char.ofNat (48 + d.val)

def charDigit? (c : Char) : Option (Fin 10) :=
  if h : 48 ≤ c.toNat ∧ c.toNat < 58 then some ⟨c.toNat - 48, by omega⟩ else none

/-- The digits written by characters; the first character that is none is reported. -/
def digitsOfChars : List Char → Except Error (List (Fin 10))
  | [] => .ok []
  | c :: rest =>
    match charDigit? c with
    | some d => (d :: ·) <$> digitsOfChars rest
    | none => .error (.badCharacter c)

def ofChars? (cs : List Char) : Except Error Gene := digitsOfChars cs >>= ofDigits?

def chars (g : Gene) : List Char := g.digits.map digitChar

def ofText? (text : String) : Except Error Gene := ofChars? text.toList

/-- The digits of a gene as a text. -/
def text (g : Gene) : String := String.ofList g.chars

/-- A gene in diagnostics. -/
def shown (g : Gene) : String := "Gene(" ++ g.text ++ ")"

end AffineSwarm.Gene
