import Gamewire.Text.Utf8
import Gamewire.Wire.Fault

/-! Reading a frame from front to back. A cursor is the offset reached and the bytes still to be
read; every step checks that there are enough of them. -/
namespace Gamewire
set_option autoImplicit false

structure Cursor where
  offset : Nat
  rest : List UInt8
deriving Repr, DecidableEq

/-- A number from little-endian bytes. -/
def ofLittleEndian : List UInt8 → Nat
  | [] => 0
  | b :: bs => b.toNat + 256 * ofLittleEndian bs

/-- The lowest `width` bytes of a number, lowest first. -/
def toLittleEndian : (width : Nat) → Nat → List UInt8
  | 0, _ => []
  | width + 1, n => UInt8.ofNat (n % 256) :: toLittleEndian width (n / 256)

namespace Cursor

def start (frame : List UInt8) : Cursor := ⟨0, frame⟩

/-- Reads exactly `n` bytes. -/
def take (n : Nat) (c : Cursor) : Except DecodeFault (List UInt8 × Cursor) :=
  if c.rest.length < n then .error (.truncated c.offset n c.rest.length)
  else .ok (c.rest.take n, ⟨c.offset + n, c.rest.drop n⟩)

def byte (c : Cursor) : Except DecodeFault (UInt8 × Cursor) :=
  match c.rest with
  | b :: rest => .ok (b, ⟨c.offset + 1, rest⟩)
  | [] => .error (.truncated c.offset 1 0)

/-- Reads four bytes as a little-endian number. -/
def word (c : Cursor) : Except DecodeFault (UInt32 × Cursor) :=
  match c.take 4 with
  | .ok (bytes, c) => .ok (UInt32.ofNat (ofLittleEndian bytes), c)
  | .error e => .error e

/-- Reads a length byte and that many bytes of UTF-8. -/
def text (capacity : Nat) (c : Cursor) : Except DecodeFault (String × Cursor) :=
  match c.byte with
  | .error e => .error e
  | .ok (length, c') =>
    if capacity < length.toNat then .error (.stringTooLong c.offset capacity length.toNat)
    else
      match c'.take length.toNat with
      | .error e => .error e
      | .ok (bytes, c'') =>
        match Text.ofUtf8? bytes with
        | some s => .ok (s, c'')
        | none => .error (.invalidUtf8 (c.offset + 1))

/-- Nothing may be left. -/
def finish (c : Cursor) : Except DecodeFault Unit :=
  if c.rest.isEmpty then .ok ()
  else .error (.trailingBytes c.offset c.offset (c.offset + c.rest.length))

end Cursor

end Gamewire
