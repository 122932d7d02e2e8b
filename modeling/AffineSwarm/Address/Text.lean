import AffineSwarm.Address.Basic
import AffineSwarm.Bytes.Hex
import AffineSwarm.Decimal.Text

/-!
# The text of an address

IPv4 addresses are written as `1.2.3.4:80`. IPv6 addresses stand in brackets, with a
scope number after `%` if it is not zero. The groups are written in lower-case
hexadecimal without leading zeros, the first longest run of two or more zero groups as
`::`, and an embedded IPv4 address in its own form.

Reading is more liberal: any run of zeros may be written `::`, the last two groups may
be written as an IPv4 address, and ports and scopes may have leading zeros.
-/

namespace AffineSwarm

open Decimal (digitText)

-- ---------------------------------------------------------------------------
-- Writing
-- ---------------------------------------------------------------------------

def Host4.text (h : Host4) : String :=
  digitText h.a.toNat ++ "." ++ digitText h.b.toNat ++ "." ++ digitText h.c.toNat ++ "." ++
    digitText h.d.toNat

namespace Host6

def groupText (g : UInt16) : String := String.ofList (Nat.toDigits 16 g.toNat)

def groupsText (gs : List UInt16) : String := ":".intercalate (gs.map groupText)

def zeroRun (gs : List UInt16) : Nat := (gs.takeWhile (· == 0)).length

/-- Start and length of the first longest run of zeros; `start` is the place of the
first group of the list. -/
def longestRun : Nat → List UInt16 → Nat × Nat
  | start, [] => (start, 0)
  | start, g :: rest =>
    let later := longestRun (start + 1) rest
    if later.2 ≤ zeroRun (g :: rest) then (start, zeroRun (g :: rest)) else later

/-- The IPv4 address embedded in an IPv6 address. -/
def embedded? (h : Host6) : Option Host4 :=
  if h[0] = 0 ∧ h[1] = 0 ∧ h[2] = 0 ∧ h[3] = 0 ∧ h[4] = 0 ∧ h[5] = 0xffff then
    some ⟨(h[6] >>> 8).toUInt8, h[6].toUInt8, (h[7] >>> 8).toUInt8, h[7].toUInt8⟩
  else none

def text (h : Host6) : String :=
  match embedded? h with
  | some host => "::ffff:" ++ host.text
  | none =>
    let (start, length) := longestRun 0 h.toList
    if 1 < length then
      groupsText (h.toList.take start) ++ "::" ++ groupsText (h.toList.drop (start + length))
    else groupsText h.toList

end Host6

def Address.text : Address → String
  | .v4 host port => host.text ++ ":" ++ digitText port.toNat
  | .v6 host port scope =>
    "[" ++ Host6.text host ++ (if scope = 0 then "" else "%" ++ digitText scope.toNat) ++ "]:" ++
      digitText port.toNat

-- ---------------------------------------------------------------------------
-- Reading
-- ---------------------------------------------------------------------------

/-- Reads a value off the front of a text. -/
abbrev Address.Reader (α : Type) := List Char → Option (α × List Char)

namespace Address.Reader

/-- Read one given character. -/
def char (c : Char) : Reader Unit
  | d :: rest => if d = c then some ((), rest) else none
  | [] => none

/-- Read digits for as long as there are any. -/
def digits (base : Nat) : List Char → List Nat × List Char
  | [] => ([], [])
  | c :: rest =>
    match Hex.valueIn? base c with
    | some n => let (ns, rest) := digits base rest; (n :: ns, rest)
    | none => ([], c :: rest)

/-- Read a number below `bound`. There must be a digit, there may be a limit on the
number of digits, and leading zeros may be forbidden. -/
def number (base bound : Nat) (limit? : Option Nat) (leadingZeros : Bool) : Reader Nat :=
  fun text =>
    let (ns, rest) := digits base text
    let n := ns.foldl (fun n d => n * base + d) 0
    let tooLong := match limit? with
      | some limit => limit < ns.length
      | none => false
    let badZero := !leadingZeros && ns.head? == some 0 && 1 < ns.length
    if ns.isEmpty || tooLong || badZero || bound ≤ n then none else some (n, rest)

def octet : Reader UInt8 := fun text => do
  let (n, text) ← number 10 256 (some 3) false text
  return (UInt8.ofNat n, text)

def host4 : Reader Host4 := fun text => do
  let (a, text) ← octet text
  let (_, text) ← char '.' text
  let (b, text) ← octet text
  let (_, text) ← char '.' text
  let (c, text) ← octet text
  let (_, text) ← char '.' text
  let (d, text) ← octet text
  return (⟨a, b, c, d⟩, text)

/-- The separator before every group but the first. -/
def separator (isFirst : Bool) : Reader Unit := fun text =>
  if isFirst then some ((), text) else char ':' text

/-- Read up to `limit` groups. The last two may be written as an IPv4 address, which
the flag reports. -/
def groups : (limit : Nat) → (isFirst : Bool) → List Char → (List UInt16 × Bool) × List Char
  | 0, _, text => (([], false), text)
  | limit + 1, isFirst, text =>
    let embedded := if limit = 0 then none else separator isFirst text >>= fun t => host4 t.2
    match embedded with
    | some (h, rest) =>
      (([h.a.toUInt16 <<< 8 ||| h.b.toUInt16, h.c.toUInt16 <<< 8 ||| h.d.toUInt16], true), rest)
    | none =>
      match separator isFirst text >>= fun t => number 16 0x10000 (some 4) true t.2 with
      | some (g, rest) =>
        let ((gs, isEmbedded), rest) := groups limit false rest
        ((UInt16.ofNat g :: gs, isEmbedded), rest)
      | none => (([], false), text)

def eight? (gs : List UInt16) : Option Host6 :=
  if h : gs.length = 8 then some ⟨gs.toArray, by simpa using h⟩ else none

def host6 : Reader Host6 := fun text =>
  let ((front, isEmbedded), rest) := groups 8 true text
  if front.length = 8 then (eight? front).map (·, rest)
  else if isEmbedded then none
  else do
    let (_, rest) ← char ':' rest
    let (_, rest) ← char ':' rest
    let ((back, _), rest) := groups (7 - front.length) true rest
    let gs := front ++ List.replicate (8 - front.length - back.length) 0 ++ back
    return (← eight? gs, rest)

def port : Reader UInt16 := fun text => do
  let (_, text) ← char ':' text
  let (n, text) ← number 10 0x10000 none true text
  return (UInt16.ofNat n, text)

/-- Read a scope number after a percent sign; without one the scope is 0. -/
def scope : List Char → UInt32 × List Char := fun text =>
  let read := char '%' text >>= fun t => number 10 0x100000000 none true t.2
  match read with
  | some (n, rest) => (UInt32.ofNat n, rest)
  | none => (0, text)

def address4 : Reader Address := fun text => do
  let (host, text) ← host4 text
  let (port, text) ← port text
  return (.v4 host port, text)

def address6 : Reader Address := fun text => do
  let (_, text) ← char '[' text
  let (host, text) ← host6 text
  let (scope, text) := scope text
  let (_, text) ← char ']' text
  let (port, text) ← port text
  return (.v6 host port scope, text)

/-- What a reader finds if it uses up the whole text. -/
def whole {α : Type} (read : Reader α) (text : List Char) : Option α :=
  match read text with
  | some (a, []) => some a
  | _ => none

end Address.Reader

namespace Address

open Reader

def ofText? (text : String) : Option Address :=
  (whole address4 text.toList).or (whole address6 text.toList)

inductive ResolveError where
  | noPort
  | badPort
  | unknownHost
  deriving DecidableEq, Repr

def ResolveError.message : ResolveError → String
  | .noPort => "invalid socket address"
  | .badPort => "invalid port value"
  | .unknownHost => "failed to lookup address information: Name or service not known"

/-- Split a text at its last colon. -/
def splitPort? (text : List Char) : Option (List Char × List Char) :=
  let port := text.reverse.takeWhile (· != ':')
  match text.reverse.dropWhile (· != ':') with
  | ':' :: host => some (host.reverse, port.reverse)
  | _ => none

/-- A port on its own, which may have a plus sign. -/
def portOf? (text : List Char) : Option UInt16 :=
  let digits := match text with
    | '+' :: rest => rest
    | text => text
  (whole (number 10 0x10000 none true) digits).map UInt16.ofNat

/-- The address that a text names: a written address, or the written address of a host
and a port with a colon between them. -/
def resolve (text : String) : Except ResolveError Address :=
  match ofText? text with
  | some address => .ok address
  | none =>
    match splitPort? text.toList with
    | none => .error .noPort
    | some (host, portText) =>
      match portOf? portText with
      | none => .error .badPort
      | some port =>
        match whole host4 host, whole host6 host with
        | some h, _ => .ok (.v4 h port)
        | none, some h => .ok (.v6 h port 0)
        | none, none => .error .unknownHost

end Address

end AffineSwarm
