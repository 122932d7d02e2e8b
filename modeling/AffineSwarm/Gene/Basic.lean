/-!
# Genes

A gene is a string of at most 32 decimal digits and the only thing a formula
inherits. The empty gene is a gene. On the wire a gene fills 32 slots; the slots past
its last digit are zero (`padded`), so a gene is known from its slots and its length
(`ext_padded`).
-/

namespace AffineSwarm

/-- The most digits a gene may have. -/
def maxGeneLength : Nat := 32

structure Gene where
  digits : List (Fin 10)
  length_le : digits.length ≤ maxGeneLength
  deriving DecidableEq

namespace Gene

inductive Error where
  /-- There are more digits than a gene may have. -/
  | tooLong (count : Nat)
  | badDigit (value : Nat)
  | badCharacter (c : Char)
  deriving DecidableEq, Repr

def Error.message : Error → String
  | .tooLong count => Nat.repr count ++ " digits exceeds the 32 digit limit"
  | .badDigit value => Nat.repr value ++ " is not a decimal digit"
  | .badCharacter c => "'" ++ c.toString ++ "' is not a decimal digit"

def empty : Gene := ⟨[], Nat.zero_le _⟩

instance : Inhabited Gene := ⟨empty⟩

def length (g : Gene) : Nat := g.digits.length

def isEmpty (g : Gene) : Bool := g.digits.isEmpty

/-- The digits of a gene, if they are not too many. -/
def ofDigits? (digits : List (Fin 10)) : Except Error Gene :=
  if h : digits.length ≤ maxGeneLength then .ok ⟨digits, h⟩
  else .error (.tooLong digits.length)

/-- Read digit values in order; the first one above nine is reported. -/
def digitsOfValues : List Nat → Except Error (List (Fin 10))
  | [] => .ok []
  | n :: rest =>
    if h : n < 10 then (⟨n, h⟩ :: ·) <$> digitsOfValues rest
    else .error (.badDigit n)

/-- The gene with the given digit values. The number of values is checked first. -/
def ofValues? (values : List Nat) : Except Error Gene :=
  if values.length ≤ maxGeneLength then digitsOfValues values >>= ofDigits?
  else .error (.tooLong values.length)

/-- The digit at a position, zero past the end. -/
def digit (g : Gene) (position : Nat) : Nat := (g.digits[position]?.map Fin.val).getD 0

/-- All 32 slots: the digits, then zeros. -/
def padded (g : Gene) : List UInt8 :=
  g.digits.map (fun d => UInt8.ofNat d.val) ++
    List.replicate (maxGeneLength - g.length) 0

@[simp] theorem length_padded (g : Gene) : g.padded.length = maxGeneLength := by
  have := g.length_le
  simp only [padded, length, List.length_append, List.length_map, List.length_replicate]
  omega

@[ext] theorem ext {g h : Gene} (digits_eq : g.digits = h.digits) : g = h := by
  cases g; cases h; simp_all

end Gene

end AffineSwarm
