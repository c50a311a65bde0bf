import Gamewire.Text.Numeral

/-! Addresses that a server listens on: an IPv4 address in four decimal numbers, or an IPv6 address
in square brackets, written with the longest run of zeros left out. -/
namespace Gamewire
set_option autoImplicit false

inductive HostAddress where
  | v4 (a b c d : UInt8)
  /-- Eight groups of sixteen bits, and the number of a network interface or zero. -/
  | v6 (groups : List UInt16) (scope : UInt32)
deriving Repr, DecidableEq

namespace HostAddress

/-! ## Numbers -/

/-- Reads a whole run of digits as a number up to `max`. -/
def readNumber (base max : Nat) (cs : List Char) : Option (Nat × List Char) :=
  let isDigit (c : Char) := (Text.digitValue? base c).isSome
  match Text.numeral? base (cs.takeWhile isDigit) with
  | some n => if n ≤ max then some (n, cs.dropWhile isDigit) else none
  | none => none

/-- Reads a number of up to three digits below 256; zeros in front are refused. -/
def readByte (cs : List Char) : Option (UInt8 × List Char) :=
  let digits := cs.takeWhile Text.isDigit
  if 3 < digits.length ∨ (1 < digits.length ∧ digits.head? = some '0') then none
  else (readNumber 10 255 cs).map fun (n, rest) => (UInt8.ofNat n, rest)

/-- Reads up to four hexadecimal digits. -/
def readGroup (cs : List Char) : Option (UInt16 × List Char) :=
  if 4 < (cs.takeWhile Text.isHexDigit).length then none
  else (readNumber 16 65535 cs).map fun (n, rest) => (UInt16.ofNat n, rest)

/-- Reads a separator and goes on, or just goes on at the `first` place. -/
def readAfter {α : Type} (separator : Char) (first : Bool)
    (read : List Char → Option (α × List Char)) : List Char → Option (α × List Char)
  | [] => if first then read [] else none
  | c :: cs => if first then read (c :: cs) else if c = separator then read cs else none

/-! ## IPv4 -/

def readV4 (cs : List Char) : Option ((UInt8 × UInt8 × UInt8 × UInt8) × List Char) := do
  let (a, cs) ← readByte cs
  let (b, cs) ← readAfter '.' false readByte cs
  let (c, cs) ← readAfter '.' false readByte cs
  let (d, cs) ← readAfter '.' false readByte cs
  return ((a, b, c, d), cs)

def renderV4 (a b c d : UInt8) : String := s!"{a.toNat}.{b.toNat}.{c.toNat}.{d.toNat}"

/-! ## IPv6 -/

def joinBytes (high low : UInt8) : UInt16 := UInt16.ofNat (high.toNat * 256 + low.toNat)

/-- Reads groups into so many places. An IPv4 address may take the place of two groups, and is the
last thing read; the flag tells whether there was one. -/
def readGroups : (places : Nat) → (first : Bool) → List Char → List UInt16 × Bool × List Char
  | 0, _, cs => ([], false, cs)
  | places + 1, first, cs =>
    match if places = 0 then none else readAfter ':' first readV4 cs with
    | some ((a, b, c, d), rest) => ([joinBytes a b, joinBytes c d], true, rest)
    | none =>
      match readAfter ':' first readGroup cs with
      | some (g, rest) =>
        let (groups, endsInV4, rest) := readGroups places false rest
        (g :: groups, endsInV4, rest)
      | none => ([], false, cs)

/-- Reads eight groups, of which a run of at least one zero may be written as two colons. -/
def readV6 (cs : List Char) : Option (List UInt16 × List Char) :=
  let (head, endsInV4, rest) := readGroups 8 true cs
  if head.length = 8 then some (head, rest)
  else if endsInV4 then none
  else
    match rest with
    | ':' :: ':' :: rest =>
      let (tail, _, rest) := readGroups (7 - head.length) true rest
      some (head ++ List.replicate (8 - head.length - tail.length) 0 ++ tail, rest)
    | _ => none

/-- The start and the length of the first longest run of zeros. -/
def longestZeros (groups : List UInt16) : Nat × Nat :=
  (List.range groups.length).foldl
    (fun best i =>
      let run := ((groups.drop i).takeWhile (· == 0)).length
      if best.2 < run then (i, run) else best)
    (0, 0)

def renderGroups (groups : List UInt16) : String :=
  ":".intercalate (groups.map fun g => String.ofList (Text.hexDigits g.toNat))

/-- Writes groups; those that stand for an IPv4 address show it. -/
def renderV6 (groups : List UInt16) : String :=
  match groups with
  | [0, 0, 0, 0, 0, 0xffff, high, low] =>
    "::ffff:" ++ renderV4 (high >>> 8).toUInt8 high.toUInt8 (low >>> 8).toUInt8 low.toUInt8
  | groups =>
    let (start, length) := longestZeros groups
    if 1 < length then
      renderGroups (groups.take start) ++ "::" ++ renderGroups (groups.drop (start + length))
    else renderGroups groups

/-! ## Addresses -/

/-- Reads an address without a port, with nothing around it. -/
def parse? (s : String) : Option HostAddress :=
  match s.toList with
  | '[' :: cs =>
    match readV6 cs with
    | some (groups, rest) =>
      let (scope, rest) :=
        match rest with
        | '%' :: r =>
          match readNumber 10 4294967295 r with
          | some (n, r) => (UInt32.ofNat n, r)
          | none => (0, rest)
        | _ => (0, rest)
      if rest = [']'] then some (.v6 groups scope) else none
    | none => none
  | cs =>
    match readV4 cs with
    | some ((a, b, c, d), []) => some (.v4 a b c d)
    | _ => none

def render : HostAddress → String
  | v4 a b c d => renderV4 a b c d
  | v6 groups scope =>
    "[" ++ renderV6 groups ++ (if scope = 0 then "" else s!"%{scope.toNat}") ++ "]"

end HostAddress

structure SocketAddress where
  host : HostAddress
  port : UInt16
deriving Repr, DecidableEq

def SocketAddress.render (a : SocketAddress) : String := a.host.render ++ s!":{a.port.toNat}"

end Gamewire
