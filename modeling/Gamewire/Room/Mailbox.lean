/-! The queue between a room and the writer of one of its members. Frames beyond the bound are
dropped. The notice that the room closes has a place of its own: it is never dropped, and it is
read before the frames that wait. -/
namespace Gamewire
set_option autoImplicit false

/-- What a member's writer gets. -/
inductive Delivery where
  | frame (bytes : List UInt8)
  | closed (reason : String)
deriving Repr, DecidableEq

structure Mailbox where
  /-- Frames that may wait at once. -/
  bound : Nat
  frames : List (List UInt8) := []
  notice : Option String := none
  /-- Whether a room still holds the other end. -/
  connected : Bool := true
deriving Repr, DecidableEq

namespace Mailbox

/-- A queue for at least one frame. -/
def ofBuffer (buffer : Nat) : Mailbox := { bound := max buffer 1 }

/-- Puts a frame at the end, unless the queue is full. -/
def deliver (frame : List UInt8) (m : Mailbox) : Mailbox :=
  if m.frames.length < m.bound then { m with frames := m.frames ++ [frame] } else m

/-- The room lets go of its end. -/
def disconnect (m : Mailbox) : Mailbox := { m with connected := false }

/-- The room says why it closes and lets go of its end. -/
def close (reason : String) (m : Mailbox) : Mailbox :=
  { m with notice := some reason, connected := false }

/-- Takes the next item, if there is one. -/
def receive (m : Mailbox) : Option Delivery × Mailbox :=
  match m.notice with
  | some reason => (some (.closed reason), { m with notice := none })
  | none =>
    match m.frames with
    | frame :: frames => (some (.frame frame), { m with frames := frames })
    | [] => (none, m)

/-- Everything that waits, in the order of reading. -/
def pending (m : Mailbox) : List Delivery :=
  (m.notice.map Delivery.closed).toList ++ m.frames.map Delivery.frame

/-- Nothing waits and nothing can come any more. -/
def isOver (m : Mailbox) : Bool := !m.connected && m.notice.isNone && m.frames.isEmpty

end Mailbox

end Gamewire
