import Gamewire.Proofs.Wire.Codec
import Mathlib

/-! The wire format loses nothing and has one frame for each message. Both hold of every protocol,
so of every one that a schema gives; the checks of a schema are not needed for them. -/
namespace Gamewire
set_option autoImplicit false
set_option maxRecDepth 4000

/-! ## A protocol to look at -/

/-- A heartbeat, and a message with a field of each kind. -/
def arcadeSchema : Schema where
  messages := [
    { name := "ping", direction := .bidirectional, heartbeat := true },
    { name := "state", direction := .serverToClient, fields := [
      { name := "x", typeName := "int16" },
      { name := "speed", typeName := "float" },
      { name := "nick", typeName := "string", capacity := some 4 },
      { name := "boost", typeName := "bool", optional := true },
      { name := "cells", typeName := "int8[2]", optional := true }] }]

def arcadeProtocol : Protocol where
  messages := [
    ⟨0, "ping", "Ping", .bidirectional, true, []⟩,
    ⟨1, "state", "State", .serverToClient, false, [
      ⟨"x", .scalar .int16, false⟩, ⟨"speed", .scalar .float, false⟩, ⟨"nick", .text 4, false⟩,
      ⟨"boost", .scalar .bool, true⟩, ⟨"cells", .array .int8 2, true⟩]⟩]

theorem arcadeSchema_validate : arcadeSchema.validate = .ok arcadeProtocol := by cbv

/-- Negative integers, a NaN with a payload, a text of more bytes than characters, and an absent
field. -/
def arcadeMessage : Message :=
  ⟨1, [some (.int (-2)), some (.float 0x7fc00001), some (.text "é!"), none,
    some (.array [.int (-128), .int 127])]⟩

def arcadeFrame : List UInt8 :=
  [1, 0xfe, 0xff, 0x01, 0x00, 0xc0, 0x7f, 3, 0xc3, 0xa9, 0x21, 0, 1, 0x80, 0x7f]

theorem arcadeMessage_encode : arcadeProtocol.encode arcadeMessage = .ok arcadeFrame := rfl

/-! ## The two laws -/

namespace Protocol

/-- A message that can be written is read back as it was: its tag, every field, every absent field
and every bit of its floats. -/
theorem decode_of_encode {p : Protocol} {msg : Message} {frame : List UInt8}
    (h : p.encode msg = .ok frame) : p.decode frame = .ok msg :=
  decode_ok_iff.mpr h

theorem decode_arcadeFrame :
    arcadeSchema.validate = .ok arcadeProtocol ∧
      arcadeProtocol.encode arcadeMessage = .ok arcadeFrame ∧
      arcadeProtocol.decode arcadeFrame = .ok arcadeMessage :=
  ⟨arcadeSchema_validate, arcadeMessage_encode, decode_of_encode arcadeMessage_encode⟩

/-- A frame that can be read is the one that its message is written as, so no other frame is read as
the same message. -/
theorem encode_of_decode {p : Protocol} {msg : Message} {frame : List UInt8}
    (h : p.decode frame = .ok msg) :
    p.encode msg = .ok frame ∧ ∀ other, p.decode other = .ok msg → other = frame := by
  have henc : p.encode msg = .ok frame := decode_ok_iff.mp h
  refine ⟨henc, ?_⟩
  intro other hother
  have hsame : Except.ok (ε := EncodeFault) other = .ok frame := by
    rw [← henc, decode_ok_iff.mp hother]
  exact Except.ok.inj hsame

theorem encode_arcadeFrame :
    arcadeSchema.validate = .ok arcadeProtocol ∧
      arcadeProtocol.decode arcadeFrame = .ok arcadeMessage ∧
      arcadeProtocol.encode arcadeMessage = .ok arcadeFrame ∧
      ∀ other, arcadeProtocol.decode other = .ok arcadeMessage → other = arcadeFrame :=
  ⟨arcadeSchema_validate, decode_ok_iff.mpr arcadeMessage_encode,
    encode_of_decode (decode_ok_iff.mpr arcadeMessage_encode)⟩

end Protocol

end Gamewire
