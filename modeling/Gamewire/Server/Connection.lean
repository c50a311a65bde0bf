import Gamewire.Room.Lobby
import Gamewire.Server.Line

/-! A connection of the server: its line and how far it has come. A client has to ask for a room
first; then it is refused or let in, and is a member until either side goes. -/
namespace Gamewire
set_option autoImplicit false

/-- A frame under way from the writer of a member. -/
structure Transfer where
  bytes : List UInt8
  /-- When it arrives; a transfer that hangs never does. -/
  arrives : Option Nat
  /-- When the writer gives up. -/
  limit : Nat
  /-- Whether the writer stops after it. -/
  isLast : Bool
deriving Repr, DecidableEq

inductive Phase where
  /-- Waits for the client to ask for a room, up to a deadline. -/
  | greeting (deadline : Nat)
  /-- A refusal is under way. -/
  | refusing (bytes : List UInt8) (arrives : Option Nat)
  /-- The client is a member, and the frame that says so is under way. -/
  | joining (ticket : Ticket) (bytes : List UInt8) (arrives : Option Nat)
  | member (ticket : Ticket) (transfer : Option Transfer)
  | ended
deriving Repr, DecidableEq

namespace Phase

/-- The ticket of a member. -/
def ticket? : Phase → Option Ticket
  | joining ticket _ _ | member ticket _ => some ticket
  | greeting _ | refusing _ _ | ended => none

end Phase

structure Connection where
  /-- Connections are counted from one; this tells them apart. -/
  number : Nat
  line : Line
  phase : Phase
deriving Repr, DecidableEq

namespace Connection

/-- What a connection is called in rooms and frames: its number, as far as 32 bits hold it. -/
def id (c : Connection) : ConnId := UInt32.ofNat c.number

def isEnded (c : Connection) : Bool := c.phase == .ended

end Connection

/-- Whether a time has come. -/
def isDue (now : Nat) : Option Nat → Bool
  | some time => decide (time ≤ now)
  | none => false

end Gamewire
