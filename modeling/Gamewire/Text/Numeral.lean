/-! Numerals: reading runs of ASCII digits in a base, and writing numbers with leading zeros. -/
namespace Gamewire.Text
set_option autoImplicit false

/-! ## Digits -/

/-- The value of a digit in bases up to sixteen; letters of either case stand for ten to fifteen. -/
def digitValue? (base : Nat) (c : Char) : Option Nat :=
  let v? :=
    if '0' ≤ c ∧ c ≤ '9' then some (c.toNat - 48)
    else if 'a' ≤ c ∧ c ≤ 'f' then some (c.toNat - 87)
    else if 'A' ≤ c ∧ c ≤ 'F' then some (c.toNat - 55)
    else none
  match v? with
  | some v => if v < base then some v else none
  | none => none

def isDigit (c : Char) : Bool := '0' ≤ c && c ≤ '9'

def isHexDigit (c : Char) : Bool := (digitValue? 16 c).isSome

/-- The digit that stands for `n` below sixteen, in lower case. -/
def hexDigit (n : Nat) : Char :=
  if n < 10 then Char.ofNat (48 + n) else Char.ofNat (87 + n)

/-! ## Reading -/

/-- The number that a run of digits denotes, most significant digit first, counting on from
`acc`; every character has to be a digit. -/
def digitsFrom? (base : Nat) : Nat → List Char → Option Nat
  | acc, [] => some acc
  | acc, c :: cs =>
    match digitValue? base c with
    | some v => digitsFrom? base (acc * base + v) cs
    | none => none

/-- A numeral has at least one digit. -/
def numeral? (base : Nat) (cs : List Char) : Option Nat :=
  if cs.isEmpty then none else digitsFrom? base 0 cs

/-- A decimal numeral that may carry one plus sign; leading zeros are allowed. -/
def unsigned? : List Char → Option Nat
  | '+' :: cs => numeral? 10 cs
  | cs => numeral? 10 cs

/-- As `unsigned?`, but refuses numbers above `max`. -/
def unsignedUpTo? (max : Nat) (cs : List Char) : Option Nat :=
  match unsigned? cs with
  | some n => if n ≤ max then some n else none
  | none => none

/-! ## Writing -/

/-- The hexadecimal digits of `n` in lower case, without leading zeros. -/
def hexDigits (n : Nat) : List Char := Nat.toDigits 16 n

/-- Puts zeros in front until the text has `width` characters. -/
def zeroPad (width : Nat) (cs : List Char) : List Char :=
  List.replicate (width - cs.length) '0' ++ cs

/-- `0x` and at least `width` lower-case hexadecimal digits. -/
def hexLiteral (width : Nat) (n : Nat) : String :=
  "0x" ++ String.ofList (zeroPad width (hexDigits n))

/-- Puts spaces after the text until it has `width` characters. -/
def padRight (width : Nat) (s : String) : String :=
  s ++ String.ofList (List.replicate (width - s.length) ' ')

/-- Puts spaces before the text until it has `width` characters. -/
def padLeft (width : Nat) (s : String) : String :=
  String.ofList (List.replicate (width - s.length) ' ') ++ s

end Gamewire.Text
