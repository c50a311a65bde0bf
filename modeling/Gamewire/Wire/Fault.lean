import Gamewire.Schema.Type

/-! Why a frame cannot be read and why a message cannot be written. A reading fault carries the
offset of the byte that it is about. -/
namespace Gamewire
set_option autoImplicit false

inductive DecodeFault where
  /-- The frame ends before `expected` more bytes. -/
  | truncated (offset expected got : Nat)
  /-- The frame goes on after its last field. -/
  | trailingBytes (offset expected got : Nat)
  | unknownTag (offset : Nat) (tag : UInt8)
  | tagMismatch (offset : Nat) (expected got : UInt8)
  | invalidBool (offset : Nat) (got : UInt8)
  | invalidPresence (offset : Nat) (got : UInt8)
  | stringTooLong (offset expected got : Nat)
  | invalidUtf8 (offset : Nat)
  | unknownRejectCode (offset : Nat) (got : UInt8)
deriving Repr, DecidableEq

/-- A byte as reports show it. -/
def byteLiteral (b : UInt8) : String := Text.hexLiteral 2 b.toNat

namespace DecodeFault

def offset : DecodeFault → Nat
  | truncated offset _ _ => offset
  | trailingBytes offset _ _ => offset
  | unknownTag offset _ => offset
  | tagMismatch offset _ _ => offset
  | invalidBool offset _ => offset
  | invalidPresence offset _ => offset
  | stringTooLong offset _ _ => offset
  | invalidUtf8 offset => offset
  | unknownRejectCode offset _ => offset

def message : DecodeFault → String
  | truncated offset expected got =>
    s!"truncated frame at byte {offset}: expected {expected} more byte(s), got {got}"
  | trailingBytes offset expected got =>
    s!"trailing bytes at byte {offset}: expected a {expected}-byte frame, got {got}"
  | unknownTag _ tag => s!"unknown message tag {byteLiteral tag}"
  | tagMismatch _ expected got =>
    s!"tag mismatch: expected {byteLiteral expected}, got {byteLiteral got}"
  | invalidBool offset got => s!"invalid bool {byteLiteral got} at byte {offset}"
  | invalidPresence offset got => s!"invalid presence byte {byteLiteral got} at byte {offset}"
  | stringTooLong offset expected got =>
    s!"string at byte {offset} is {got} bytes, limit is {expected}"
  | invalidUtf8 offset => s!"invalid UTF-8 in string at byte {offset}"
  | unknownRejectCode offset got => s!"unknown reject code {got.toNat} at byte {offset}"

end DecodeFault

inductive EncodeFault where
  | unknownTag (tag : UInt8)
  | tagMismatch (expected got : UInt8)
  | fieldCount (expected got : Nat)
  | unknownField (name : String)
  | missingField (name : String)
  | typeMismatch (field : String) (expected : FieldType)
  | outOfRange (field : String) (value : Int)
  | arrayLength (field : String) (expected got : Nat)
  | stringTooLong (field : String) (max got : Nat)
deriving Repr, DecidableEq

namespace EncodeFault

def message : EncodeFault → String
  | unknownTag tag => s!"no message is bound to tag {byteLiteral tag}"
  | tagMismatch expected got =>
    s!"instance tag {byteLiteral got} does not match binding tag {byteLiteral expected}"
  | fieldCount expected got => s!"expected {expected} field(s), got {got}"
  | unknownField name => s!"message has no field named `{name}`"
  | missingField name => s!"required field `{name}` is missing"
  | typeMismatch field expected => s!"field `{field}` expects {expected.render}"
  | outOfRange field value => s!"value {value} is out of range for field `{field}`"
  | arrayLength field expected got =>
    s!"field `{field}` expects {expected} element(s), got {got}"
  | stringTooLong field max got => s!"string for field `{field}` is {got} bytes, limit is {max}"

end EncodeFault

end Gamewire
