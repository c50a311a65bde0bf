import Gamewire.Schema.Validation
import Gamewire.Wire.Cursor
import Gamewire.Wire.Value

/-! Frames of a protocol. A frame is the tag of its message and then each field in order,
little-endian: an optional field after a presence byte, a text after a length byte, an array
without a mark of its own. -/
namespace Gamewire
set_option autoImplicit false

/-! ## Scalars -/

def Primitive.isSigned : Primitive → Bool
  | .int8 | .int16 | .int32 => true
  | _ => false

/-- The integer that the bytes of an integer type stand for; signed types are two's complement. -/
def Primitive.intOfBytes (p : Primitive) (bytes : List UInt8) : Int :=
  if p.isSigned then Int.bmod (ofLittleEndian bytes) (Nat.pow 256 p.size) else ofLittleEndian bytes

/-- Writes a scalar of field `field`, whose whole type is `type`. -/
def encodeScalar (field : String) (type : FieldType) (p : Primitive) :
    Value → Except EncodeFault (List UInt8)
  | .float bits =>
    if p = .float then .ok (toLittleEndian 4 bits.toNat) else .error (.typeMismatch field type)
  | .bool b =>
    if p = .bool then .ok [if b then 1 else 0] else .error (.typeMismatch field type)
  | .int n =>
    match p.range? with
    | some (min, max) =>
      if min ≤ n ∧ n ≤ max then .ok (toLittleEndian p.size (n % Nat.pow 256 p.size).toNat)
      else .error (.outOfRange field n)
    | none => .error (.typeMismatch field type)
  | _ => .error (.typeMismatch field type)

def decodeScalar (p : Primitive) (c : Cursor) : Except DecodeFault (Value × Cursor) :=
  match c.take p.size with
  | .error e => .error e
  | .ok (bytes, c') =>
    match p with
    | .float => .ok (.float (UInt32.ofNat (ofLittleEndian bytes)), c')
    | .bool =>
      match bytes with
      | [0] => .ok (.bool false, c')
      | [1] => .ok (.bool true, c')
      | got => .error (.invalidBool c.offset (got.headD 0))
    | p => .ok (.int (p.intOfBytes bytes), c')

/-! ## Values -/

def encodeElements (field : String) (type : FieldType) (p : Primitive) :
    List Value → Except EncodeFault (List UInt8)
  | [] => .ok []
  | v :: vs =>
    match encodeScalar field type p v with
    | .error e => .error e
    | .ok bytes =>
      match encodeElements field type p vs with
      | .error e => .error e
      | .ok more => .ok (bytes ++ more)

def encodeValue (field : String) (type : FieldType) (v : Value) :
    Except EncodeFault (List UInt8) :=
  match type with
  | .scalar p => encodeScalar field type p v
  | .text capacity =>
    match v with
    | .text s =>
      if capacity.toNat < s.utf8ByteSize then
        .error (.stringTooLong field capacity.toNat s.utf8ByteSize)
      else .ok (UInt8.ofNat s.utf8ByteSize :: Text.utf8Bytes s)
    | _ => .error (.typeMismatch field type)
  | .array element count =>
    match v with
    | .array vs =>
      if vs.length = count.toNat then encodeElements field type element vs
      else .error (.arrayLength field count.toNat vs.length)
    | _ => .error (.typeMismatch field type)

def decodeElements (p : Primitive) :
    (count : Nat) → Cursor → Except DecodeFault (List Value × Cursor)
  | 0, c => .ok ([], c)
  | count + 1, c =>
    match decodeScalar p c with
    | .error e => .error e
    | .ok (v, c) =>
      match decodeElements p count c with
      | .error e => .error e
      | .ok (vs, c) => .ok (v :: vs, c)

def decodeValue (type : FieldType) (c : Cursor) : Except DecodeFault (Value × Cursor) :=
  match type with
  | .scalar p => decodeScalar p c
  | .text capacity =>
    match c.text capacity.toNat with
    | .error e => .error e
    | .ok (s, c) => .ok (.text s, c)
  | .array element count =>
    match decodeElements element count.toNat c with
    | .error e => .error e
    | .ok (vs, c) => .ok (.array vs, c)

/-! ## Fields -/

def encodeField (f : FieldSpec) : Option Value → Except EncodeFault (List UInt8)
  | some v =>
    match encodeValue f.name f.type v with
    | .ok bytes => .ok (if f.optional then 1 :: bytes else bytes)
    | .error e => .error e
  | none => if f.optional then .ok [0] else .error (.missingField f.name)

def encodeFields : List FieldSpec → List (Option Value) → Except EncodeFault (List UInt8)
  | f :: fs, v :: vs =>
    match encodeField f v with
    | .error e => .error e
    | .ok bytes =>
      match encodeFields fs vs with
      | .error e => .error e
      | .ok more => .ok (bytes ++ more)
  | _, _ => .ok []

/-- Reads a value that has to be there. -/
def decodePresent (type : FieldType) (c : Cursor) :
    Except DecodeFault (Option Value × Cursor) :=
  match decodeValue type c with
  | .ok (v, c) => .ok (some v, c)
  | .error e => .error e

def decodeField (f : FieldSpec) (c : Cursor) : Except DecodeFault (Option Value × Cursor) :=
  if f.optional then
    match c.byte with
    | .error e => .error e
    | .ok (mark, c') =>
      if mark = 0 then .ok (none, c')
      else if mark = 1 then decodePresent f.type c'
      else .error (.invalidPresence c.offset mark)
  else decodePresent f.type c

def decodeFields : List FieldSpec → Cursor → Except DecodeFault (List (Option Value) × Cursor)
  | [], c => .ok ([], c)
  | f :: fs, c =>
    match decodeField f c with
    | .error e => .error e
    | .ok (v, c) =>
      match decodeFields fs c with
      | .error e => .error e
      | .ok (vs, c) => .ok (v :: vs, c)

/-! ## Messages -/

namespace MessageSpec

def encode (m : MessageSpec) (msg : Message) : Except EncodeFault (List UInt8) :=
  if msg.tag ≠ m.tag then .error (.tagMismatch m.tag msg.tag)
  else if msg.fields.length ≠ m.fields.length then
    .error (.fieldCount m.fields.length msg.fields.length)
  else
    match encodeFields m.fields msg.fields with
    | .ok bytes => .ok (m.tag :: bytes)
    | .error e => .error e

def decode (m : MessageSpec) (frame : List UInt8) : Except DecodeFault Message :=
  match (Cursor.start frame).byte with
  | .error e => .error e
  | .ok (tag, c) =>
    if tag ≠ m.tag then .error (.tagMismatch 0 m.tag tag)
    else
      match decodeFields m.fields c with
      | .error e => .error e
      | .ok (fields, c) =>
        match c.finish with
        | .ok () => .ok ⟨tag, fields⟩
        | .error e => .error e

/-- Sets fields by name on top of `fields`; a later value for a name replaces an earlier one. -/
def setFields (m : MessageSpec) :
    List (String × Value) → List (Option Value) → Except EncodeFault (List (Option Value))
  | [], fields => .ok fields
  | (name, v) :: rest, fields =>
    match m.fieldIndex? name with
    | some i => setFields m rest (fields.set i (some v))
    | none => .error (.unknownField name)

/-- The message with the given fields; fields that are not named are absent. -/
def instance? (m : MessageSpec) (values : List (String × Value)) : Except EncodeFault Message :=
  match setFields m values (List.replicate m.fields.length none) with
  | .ok fields => .ok ⟨m.tag, fields⟩
  | .error e => .error e

/-- The value of a field by name. -/
def get? (m : MessageSpec) (msg : Message) (name : String) : Option Value :=
  match m.fieldIndex? name with
  | some i => (msg.fields[i]?).join
  | none => none

end MessageSpec

namespace Protocol

def encode (p : Protocol) (msg : Message) : Except EncodeFault (List UInt8) :=
  match p.ofTag? msg.tag with
  | some m => m.encode msg
  | none => .error (.unknownTag msg.tag)

def decode (p : Protocol) (frame : List UInt8) : Except DecodeFault Message :=
  match frame with
  | [] => .error (.truncated 0 1 0)
  | tag :: _ =>
    match p.ofTag? tag with
    | some m => m.decode frame
    | none => .error (.unknownTag 0 tag)

end Protocol

end Gamewire
