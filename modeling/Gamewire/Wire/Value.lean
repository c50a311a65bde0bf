/-! Values of message fields, and messages as lists of them. A float is its binary32 bit pattern,
so that every pattern, those of NaN too, survives the wire. -/
namespace Gamewire
set_option autoImplicit false

inductive Value where
  | int (n : Int)
  | float (bits : UInt32)
  | bool (b : Bool)
  | text (s : String)
  | array (elements : List Value)
deriving Repr, BEq, Inhabited

/-- The fields of a message in the order of its definition; an absent optional field is `none`. -/
structure Message where
  tag : UInt8
  fields : List (Option Value)
deriving Repr, BEq, Inhabited

namespace Value

/-! ## Views -/

def asInt? : Value → Option Int
  | int n => some n
  | _ => none

def asFloat? : Value → Option UInt32
  | float bits => some bits
  | _ => none

def asBool? : Value → Option Bool
  | bool b => some b
  | _ => none

def asText? : Value → Option String
  | text s => some s
  | _ => none

def asArray? : Value → Option (List Value)
  | array xs => some xs
  | _ => none

/-! ## Equality of numbers -/

/-- A pattern whose exponent is all ones and whose fraction is not zero. -/
def isNaN (bits : UInt32) : Bool := (bits &&& 0x7fffffff) > 0x7f800000

/-- Equality of the numbers that two patterns stand for: NaN differs from everything, and the two
zeros are equal. -/
def sameFloat (a b : UInt32) : Bool :=
  !isNaN a && !isNaN b && (a == b || ((a ||| b) &&& 0x7fffffff) == 0)

mutual

/-- Equality where floats are compared as numbers. -/
def same : Value → Value → Bool
  | int a, int b => a == b
  | float a, float b => sameFloat a b
  | bool a, bool b => a == b
  | text a, text b => a == b
  | array xs, array ys => sameAll xs ys
  | _, _ => false

def sameAll : List Value → List Value → Bool
  | [], [] => true
  | x :: xs, y :: ys => same x y && sameAll xs ys
  | _, _ => false

end

end Value

end Gamewire
