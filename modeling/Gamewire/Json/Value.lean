import Gamewire.Text.Numeral

/-! Values of the JSON format, and their compact text. Numbers with a fraction, an exponent or too
many digits are kept as a kind only. -/
namespace Gamewire.Json
set_option autoImplicit false

inductive Value where
  | null
  | boolean (b : Bool)
  | integer (n : Int)
  | float
  | text (s : String)
  | array (elements : List Value)
  | object (entries : List (String × Value))
deriving Repr, BEq, Inhabited

/-! ## Compact text -/

/-- A character between quotes. -/
def writeChar (c : Char) : List Char :=
  if c = '"' then ['\\', '"']
  else if c = '\\' then ['\\', '\\']
  else if c = '\x08' then ['\\', 'b']
  else if c = '\x0c' then ['\\', 'f']
  else if c = '\n' then ['\\', 'n']
  else if c = '\r' then ['\\', 'r']
  else if c = '\t' then ['\\', 't']
  else if c.toNat < 0x20 then '\\' :: 'u' :: Text.zeroPad 4 (Text.hexDigits c.toNat)
  else [c]

def writeText (s : String) : List Char := '"' :: s.toList.flatMap writeChar ++ ['"']

mutual

/-- Writes a value without blanks; a float, which has no text here, is written as null. -/
def write : Value → List Char
  | .null => "null".toList
  | .boolean b => if b then "true".toList else "false".toList
  | .integer n => (toString n).toList
  | .float => "null".toList
  | .text s => writeText s
  | .array xs => '[' :: writeElements xs ++ [']']
  | .object entries => '\x7b' :: writeEntries entries ++ ['\x7d']

def writeElements : List Value → List Char
  | [] => []
  | [v] => write v
  | v :: vs => write v ++ ',' :: writeElements vs

def writeEntries : List (String × Value) → List Char
  | [] => []
  | [(k, v)] => writeText k ++ ':' :: write v
  | (k, v) :: rest => writeText k ++ ':' :: write v ++ ',' :: writeEntries rest

end

def Value.render (v : Value) : String := String.ofList (write v)

/-! ## Looking into values -/

namespace Value

/-- An integer between 0 and `max`. -/
def asNat? (max : Nat) : Value → Option Nat
  | integer n => if 0 ≤ n ∧ n ≤ max then some n.toNat else none
  | _ => none

/-- Reads a value that may be null. -/
def nullable {α : Type} (read : Value → Option α) : Value → Option (Option α)
  | null => some none
  | v => (read v).map some

/-- Reads a choice among names: a text, or an object with the name as its only key and nothing
under it. -/
def asChoice? : Value → Option String
  | text s => some s
  | object [(name, null)] => some name
  | object [(name, object [])] => some name
  | _ => none

end Value

/-- The value of a key that occurs at most once; `none` if it occurs twice. -/
def uniqueKey? (key : String) (entries : List (String × Value)) : Option (Option Value) :=
  match entries.filter (·.1 == key) with
  | [] => some none
  | [(_, v)] => some (some v)
  | _ => none

end Gamewire.Json
