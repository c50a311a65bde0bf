import Gamewire.Wire.Cursor

/-! Control frames: what client and server exchange outside of any protocol. Their tags start at
0xf0, which no message of a protocol can have. -/
namespace Gamewire
set_option autoImplicit false

/-- Rooms and connections are numbered. -/
abbrev RoomId := UInt32
abbrev ConnId := UInt32

def roomLabel (room : RoomId) : String := s!"R-{room.toNat}"

def connLabel (conn : ConnId) : String := s!"conn-{conn.toNat}"

/-- Whom a message of a room goes to. -/
inductive Recipient where
  | all
  | only (conn : ConnId)
  | allExcept (conn : ConnId)
deriving Repr, DecidableEq

def Recipient.includes : Recipient → ConnId → Bool
  | all, _ => true
  | only id, conn => id == conn
  | allExcept id, conn => id != conn

/-! ## Refusals -/

/-- Why a client is not let in. -/
inductive Refusal where
  | serverFull
  | roomFull
  | shuttingDown
  | fingerprintMismatch
  | badHandshake
deriving Repr, DecidableEq

namespace Refusal

def all : List Refusal := [serverFull, roomFull, shuttingDown, fingerprintMismatch, badHandshake]

def code : Refusal → UInt8
  | serverFull => 1
  | roomFull => 2
  | shuttingDown => 3
  | fingerprintMismatch => 4
  | badHandshake => 5

def ofCode? (code : UInt8) : Option Refusal := all.find? (·.code == code)

def text : Refusal → String
  | serverFull => "server full"
  | roomFull => "room full"
  | shuttingDown => "shutting down"
  | fingerprintMismatch => "protocol fingerprint mismatch"
  | badHandshake => "bad handshake"

end Refusal

/-! ## Frames -/

inductive ControlFrame where
  /-- The first frame of a client; without a room, any room with space will do. -/
  | join (room : Option RoomId) (fingerprint : UInt32)
  | joined (room : RoomId) (conn : ConnId)
  | rejected (refusal : Refusal)
  | closing (reason : String)
deriving Repr, DecidableEq

def controlTagMin : UInt8 := 0xf0

def isControlFrame : List UInt8 → Bool
  | tag :: _ => controlTagMin ≤ tag
  | [] => false

def wordBytes (n : UInt32) : List UInt8 := toLittleEndian 4 n.toNat

namespace ControlFrame

/-- Most bytes of the reason in a closing frame. -/
def reasonLimit : Nat := 255

def encode : ControlFrame → List UInt8
  | join room fingerprint => 0xf0 :: (wordBytes (room.getD 0) ++ wordBytes fingerprint)
  | joined room conn => 0xf1 :: (wordBytes room ++ wordBytes conn)
  | rejected refusal => [0xf2, refusal.code]
  | closing reason =>
    let reason := Text.truncateBytes reasonLimit reason
    0xf3 :: UInt8.ofNat reason.utf8ByteSize :: Text.utf8Bytes reason

/-- Two words in a row. -/
def decodeWords (c : Cursor) : Except DecodeFault ((UInt32 × UInt32) × Cursor) :=
  match c.word with
  | .error e => .error e
  | .ok (a, c) =>
    match c.word with
    | .error e => .error e
    | .ok (b, c) => .ok ((a, b), c)

/-- The body of the frame with tag `tag`. -/
def decodeBody (tag : UInt8) (c : Cursor) : Except DecodeFault (ControlFrame × Cursor) :=
  if tag = 0xf0 then
    match decodeWords c with
    | .error e => .error e
    | .ok ((room, fingerprint), c) =>
      .ok (.join (if room = 0 then none else some room) fingerprint, c)
  else if tag = 0xf1 then
    match decodeWords c with
    | .error e => .error e
    | .ok ((room, conn), c) => .ok (.joined room conn, c)
  else if tag = 0xf2 then
    match c.byte with
    | .error e => .error e
    | .ok (code, c') =>
      match Refusal.ofCode? code with
      | some refusal => .ok (.rejected refusal, c')
      | none => .error (.unknownRejectCode c.offset code)
  else if tag = 0xf3 then
    match c.text reasonLimit with
    | .error e => .error e
    | .ok (reason, c) => .ok (.closing reason, c)
  else .error (.unknownTag 0 tag)

def decode (frame : List UInt8) : Except DecodeFault ControlFrame :=
  match (Cursor.start frame).byte with
  | .error e => .error e
  | .ok (tag, c) =>
    match decodeBody tag c with
    | .error e => .error e
    | .ok (frame, c) =>
      match c.finish with
      | .ok () => .ok frame
      | .error e => .error e

end ControlFrame

end Gamewire
