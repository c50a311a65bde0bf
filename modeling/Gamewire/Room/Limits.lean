import Gamewire.Wire.Control

/-! Limits of a server's rooms, the states a room goes through, and what can go wrong when a
connection asks for a room or somebody acts on one. -/
namespace Gamewire
set_option autoImplicit false

/-! ## Limits -/

structure Limits where
  /-- Rooms alive at once. -/
  maxRooms : Nat := 8
  /-- Members of one room. -/
  maxMembers : Nat := 16
  /-- How long an empty room is kept, in milliseconds. -/
  grace : Nat := 30000
  /-- Length of the command queues. -/
  commandBuffer : Nat := 64
deriving Repr, DecidableEq

/-! ## Faults -/

inductive AdmissionFault where
  | serverFull
  | roomFull (room : RoomId)
  | shuttingDown
  | unavailable
deriving Repr, DecidableEq

namespace AdmissionFault

def message : AdmissionFault → String
  | serverFull => "server is full"
  | roomFull room => s!"room {roomLabel room} is full"
  | shuttingDown => "server is shutting down"
  | unavailable => "room manager is unavailable"

/-- What the client is told. -/
def refusal : AdmissionFault → Refusal
  | serverFull => .serverFull
  | roomFull _ => .roomFull
  | shuttingDown | unavailable => .shuttingDown

end AdmissionFault

inductive RoomFault where
  /-- No room with this number was ever made. -/
  | notFound (room : RoomId)
  /-- The room is gone. -/
  | unavailable (room : RoomId)
  | managerUnavailable
  | invalidLimits (name : String)
deriving Repr, DecidableEq

def RoomFault.message : RoomFault → String
  | notFound room => s!"room {roomLabel room} not found"
  | unavailable room => s!"room {roomLabel room} is unavailable"
  | managerUnavailable => "room manager is unavailable"
  | invalidLimits name => s!"room limit {name} must be positive"

/-- Limits of zero are refused; an empty room may be given no time. -/
def Limits.check (l : Limits) : Except RoomFault Unit :=
  if l.maxRooms = 0 then .error (.invalidLimits "max_rooms")
  else if l.maxMembers = 0 then .error (.invalidLimits "max_conn_per_room")
  else if l.commandBuffer = 0 then .error (.invalidLimits "command_buffer")
  else .ok ()

/-! ## States of a room -/

/-- A room is closing while it is empty and waits for its grace period to end. -/
inductive RoomState where
  | open
  | full
  | closing
  | closed
deriving Repr, DecidableEq

namespace RoomState

def all : List RoomState := [.open, .full, .closing, .closed]

def name : RoomState → String
  | .open => "open"
  | .full => "full"
  | .closing => "closing"
  | .closed => "closed"

def ofName? (s : String) : Option RoomState := all.find? (·.name == s)

def acceptsMembers : RoomState → Bool
  | .open | .closing => true
  | .full | .closed => false

/-- The state that a number of members implies. -/
def ofCount (members capacity : Nat) : RoomState :=
  if members = 0 then .closing else if capacity ≤ members then .full else .open

end RoomState

/-- A room at a point in time, as lists show it. -/
structure RoomSnapshot where
  id : RoomId
  members : Nat
  capacity : Nat
  state : RoomState
deriving Repr, DecidableEq

end Gamewire
