import Gamewire.Text.Blank
import Gamewire.Text.Numeral

/-! Field types: the fixed-width scalars, bounded text and arrays of scalars, how a type is written
in a protocol file, and how many bytes a value takes at most. -/
namespace Gamewire
set_option autoImplicit false

/-! ## Scalars -/

/-- A scalar of fixed width; `float` is the IEEE 754 format binary32. -/
inductive Primitive where
  | int8
  | uint8
  | int16
  | uint16
  | int32
  | uint32
  | float
  | bool
deriving Repr, DecidableEq, Inhabited

namespace Primitive

/-- Every scalar, in the order of the type codes. -/
def all : List Primitive := [int8, uint8, int16, uint16, int32, uint32, float, bool]

/-- The name used in protocol files. -/
def name : Primitive → String
  | int8 => "int8"
  | uint8 => "uint8"
  | int16 => "int16"
  | uint16 => "uint16"
  | int32 => "int32"
  | uint32 => "uint32"
  | float => "float"
  | bool => "bool"

def ofName? (s : String) : Option Primitive := all.find? (·.name == s)

/-- Bytes on the wire. -/
def size : Primitive → Nat
  | int8 | uint8 | bool => 1
  | int16 | uint16 => 2
  | int32 | uint32 | float => 4

/-- The least and the greatest value of an integer type. -/
def range? : Primitive → Option (Int × Int)
  | int8 => some (-128, 127)
  | uint8 => some (0, 255)
  | int16 => some (-32768, 32767)
  | uint16 => some (0, 65535)
  | int32 => some (-2147483648, 2147483647)
  | uint32 => some (0, 4294967295)
  | float | bool => none

/-- The number that stands for the type in a fingerprint. -/
def code : Primitive → UInt8
  | int8 => 0
  | uint8 => 1
  | int16 => 2
  | uint16 => 3
  | int32 => 4
  | uint32 => 5
  | float => 6
  | bool => 7

end Primitive

/-! ## Field types -/

/-- What a field holds once its type name is understood. -/
inductive FieldType where
  | scalar (type : Primitive)
  /-- UTF-8 text of at most `capacity` bytes, after one length byte. -/
  | text (capacity : UInt8)
  /-- Exactly `count` scalars in a row. -/
  | array (element : Primitive) (count : UInt8)
deriving Repr, DecidableEq, Inhabited

/-- Why a type name is refused. -/
inductive TypeFault where
  | unknownType (name : String)
  | unsupportedArrayElement (name : String)
  | invalidArrayLength (text : String)
  | maxLenNotAllowed (name : String)
  | invalidMaxLen (capacity : UInt16)
deriving Repr, DecidableEq

namespace FieldType

/-- The capacity of a text field that gives none. -/
def defaultCapacity : UInt8 := 32

/-- The longest array. -/
def maxArrayLength : Nat := 127

/-- Most bytes that a value can take. -/
def maxSize : FieldType → Nat
  | scalar p => p.size
  | text capacity => 1 + capacity.toNat
  | array element count => element.size * count.toNat

/-- The type as reports show it. -/
def render : FieldType → String
  | scalar p => p.name
  | text capacity => s!"string({capacity.toNat})"
  | array element count => s!"{element.name}[{count.toNat}]"

/-- The type of a text field, given the capacity that the file asks for. -/
def resolveText : Option UInt16 → Except TypeFault FieldType
  | none => .ok (.text defaultCapacity)
  | some n =>
    if 1 ≤ n.toNat ∧ n.toNat ≤ 255 then .ok (.text n.toUInt8) else .error (.invalidMaxLen n)

/-- The type written `element[length`, where `rest` still ends in the closing bracket. -/
def resolveArray (whole : String) (element rest : List Char) : Except TypeFault FieldType :=
  if rest.getLast? = some ']' then
    let length := rest.dropLast
    let elementName := String.ofList (Text.trimChars element)
    match Primitive.ofName? elementName with
    | some p =>
      match Text.unsigned? (Text.trimChars length) with
      | some n =>
        if 1 ≤ n ∧ n ≤ maxArrayLength then .ok (.array p n.toUInt8)
        else .error (.invalidArrayLength (String.ofList length))
      | none => .error (.invalidArrayLength (String.ofList length))
    | none =>
      if elementName = "string" then .error (.unsupportedArrayElement elementName)
      else .error (.unknownType whole)
  else .error (.unknownType whole)

/-- Reads a type name, with the capacity that the file gives beside it. Blanks around the name,
around the element name and around the array length do not count. -/
def resolve (written : String) (capacity : Option UInt16) : Except TypeFault FieldType :=
  let name := Text.trim written
  if name = "string" then resolveText capacity
  else if capacity.isSome then .error (.maxLenNotAllowed name)
  else
    match name.toList.dropWhile (· != '[') with
    | _ :: rest => resolveArray name (name.toList.takeWhile (· != '[')) rest
    | [] =>
      match Primitive.ofName? name with
      | some p => .ok (.scalar p)
      | none => .error (.unknownType name)

end FieldType

namespace TypeFault

def message : TypeFault → String
  | unknownType name => s!"unknown type `{name}`"
  | unsupportedArrayElement name => s!"arrays of `{name}` are not supported"
  | invalidArrayLength text => s!"invalid array length `{text}`"
  | maxLenNotAllowed name => s!"`max_len` is only allowed on strings, not `{name}`"
  | invalidMaxLen n => s!"string `max_len` must be between 1 and 255, got {n.toNat}"

end TypeFault

end Gamewire
