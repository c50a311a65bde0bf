import Gamewire.Hash.Blake3
import Gamewire.Schema.Validation

/-! The fingerprint of a protocol: 32 bits of a hash over everything that shapes its frames. The
bytes that are hashed are a definition of their own, since they alone decide which protocols can
be told apart. -/
namespace Gamewire.Fingerprint
set_option autoImplicit false

/-! ## The hashed bytes -/

/-- A count or length as four little-endian bytes. -/
def word (n : Nat) : List UInt8 := Blake3.bytesOfWord n.toUInt32

def text (s : String) : List UInt8 := word s.utf8ByteSize ++ s.toUTF8.data.toList

def flag (b : Bool) : UInt8 := if b then 1 else 0

def type : FieldType → List UInt8
  | .scalar p => [0, p.code]
  | .text capacity => [1, capacity]
  | .array element count => [2, element.code, count]

def field (f : FieldSpec) : List UInt8 := text f.name ++ [flag f.optional] ++ type f.type

def message (m : MessageSpec) : List UInt8 :=
  text m.name ++ [m.direction.code, flag m.heartbeat] ++ word m.fields.length ++
    m.fields.flatMap field

def bytes (ms : List MessageSpec) : List UInt8 := word ms.length ++ ms.flatMap message

/-! ## The fingerprint -/

/-- The first four bytes of the hash as a little-endian number. -/
def ofMessages (ms : List MessageSpec) : UInt32 := Blake3.littleEndian 4 (Blake3.hash (bytes ms))

end Gamewire.Fingerprint

namespace Gamewire
set_option autoImplicit false

def Protocol.fingerprint (p : Protocol) : UInt32 := Fingerprint.ofMessages p.messages

end Gamewire
