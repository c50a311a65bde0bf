/-! Values of the TOML format. Floats, dates and times are kept as kinds only, since no setting and
no definition is one. -/
namespace Gamewire.Toml
set_option autoImplicit false

inductive Value where
  | text (s : String)
  | integer (n : Int)
  | float
  | boolean (b : Bool)
  | moment
  | array (elements : List Value)
  | table (entries : List (String × Value))
deriving Repr, BEq, Inhabited

/-- What is said of a text that is no document, or not the right one. -/
def faultMessage : String := "not a valid document"

/-- What is said of a value that a document cannot hold. -/
def limitMessage : String := "number out of range"

/-- The least and the greatest integer of the format. -/
def minInteger : Int := -9223372036854775808
def maxInteger : Int := 9223372036854775807

/-! ## Looking into values -/

namespace Value

def asText? : Value → Option String
  | text s => some s
  | _ => none

def asBoolean? : Value → Option Bool
  | boolean b => some b
  | _ => none

/-- An integer between 0 and `max`. -/
def asNat? (max : Nat) : Value → Option Nat
  | integer n => if 0 ≤ n ∧ n ≤ max then some n.toNat else none
  | _ => none

def asArray? : Value → Option (List Value)
  | array xs => some xs
  | _ => none

/-- Reads a record, which is a table or an array of its members in the order of their positions;
what is left over in either is ignored. The answer looks a member up by key and position. -/
def members? : Value → Option (String → Nat → Option Value)
  | table entries => some fun key _ => entries.lookup key
  | array xs => some fun _ position => xs[position]?
  | _ => none

/-- Reads a choice among names, which is a text or a table with the name as its only key and an
empty table or array under it. -/
def asChoice? : Value → Option String
  | text s => some s
  | table [(name, table [])] | table [(name, array [])] => some name
  | _ => none

end Value

/-- A member that has to be there. -/
def required {α : Type} (read : Value → Option α) : Option Value → Option α
  | some v => read v
  | none => none

/-- A member that may be missing. -/
def withDefault {α : Type} (default : α) (read : Value → Option α) : Option Value → Option α
  | some v => read v
  | none => some default

end Gamewire.Toml
