import Gamewire.Room.Logic

/-! A room as a machine: it takes commands one at a time, asks the rules, and tells which queues
of members get what. It stops by itself when it is closed or its rules fail. -/
namespace Gamewire
set_option autoImplicit false

/-- Each admission has its own ticket, which also names the queue of the member. -/
abbrev Ticket := Nat

/-- What a room does to the queue of a ticket. -/
inductive Effect where
  | deliver (ticket : Ticket) (frame : List UInt8)
  | close (ticket : Ticket) (reason : String)
  | disconnect (ticket : Ticket)
deriving Repr, DecidableEq

inductive Command where
  | join (conn : ConnId) (ticket : Ticket)
  | leave (conn : ConnId)
  | frame (sender : ConnId) (bytes : List UInt8)
  | close (reason : String)
deriving Repr, DecidableEq

structure Room (σ : Type) where
  id : RoomId
  state : σ
  /-- The members in ascending order, each with the ticket of its queue. -/
  members : List (ConnId × Ticket) := []

/-- The protocol that is spoken and the rules that are played by. -/
structure Game (σ : Type) where
  protocol : Protocol
  logic : Logic σ

/-- The notice when the rules fail. -/
def faultReason : String := "room closed after an internal error"

namespace Room

variable {σ : Type}

/-! ## Members -/

/-- Adds or replaces a member, keeping the order. -/
def insertMember (conn : ConnId) (ticket : Ticket) :
    List (ConnId × Ticket) → List (ConnId × Ticket)
  | [] => [(conn, ticket)]
  | (c, t) :: rest =>
    if conn < c then (conn, ticket) :: (c, t) :: rest
    else if conn = c then (conn, ticket) :: rest
    else (c, t) :: insertMember conn ticket rest

def connections (r : Room σ) : List ConnId := r.members.map (·.1)

def view (g : Game σ) (r : Room σ) : RoomView := ⟨r.id, g.protocol, r.connections⟩

/-! ## Sending -/

/-- The frame of a message that servers may send and that can be written. -/
def frameOf? (p : Protocol) (msg : Message) : Option (List UInt8) :=
  match p.ofTag? msg.tag with
  | none => none
  | some m =>
    if m.direction.serverSends then
      match m.encode msg with
      | .ok bytes => some bytes
      | .error _ => none
    else none

/-- Deliveries of one message. -/
def deliveries (members : List (ConnId × Ticket)) (recipient : Recipient) (frame : List UInt8) :
    List Effect :=
  (members.filter fun m => recipient.includes m.1).map fun m => .deliver m.2 frame

/-- Deliveries of everything that the rules want sent. -/
def dispatch (p : Protocol) (members : List (ConnId × Ticket)) : Outbound → List Effect
  | [] => []
  | (recipient, msg) :: out =>
    (match frameOf? p msg with
      | some frame => deliveries members recipient frame
      | none => []) ++ dispatch p members out

/-! ## Steps -/

def closeAll (reason : String) (r : Room σ) : List Effect :=
  r.members.map fun m => .close m.2 reason

def disconnectAll (r : Room σ) : List Effect := r.members.map fun m => .disconnect m.2

/-- Goes on after a call of the rules. A room that is over is `none`. -/
def settle (g : Game σ) (r : Room σ) : Verdict σ → Option (Room σ) × List Effect
  | .proceed state out =>
    let r := { r with state := state }
    (some r, dispatch g.protocol r.members out)
  | .fault _ => (none, r.closeAll faultReason)
  | .crash => (none, r.disconnectAll)

/-- The message of a frame, if a client may send it. -/
def clientMessage? (p : Protocol) (bytes : List UInt8) : Option Message :=
  match p.decode bytes with
  | .error _ => none
  | .ok msg =>
    match p.ofTag? msg.tag with
    | some m => if m.direction.clientSends then some msg else none
    | none => none

/-- Handles one command. A member that joins again lets go of its former queue. -/
def step (g : Game σ) (r : Room σ) : Command → Option (Room σ) × List Effect
  | .join conn ticket =>
    let former := (r.members.lookup conn).toList.map Effect.disconnect
    let r := { r with members := insertMember conn ticket r.members }
    let (r?, effects) := r.settle g (g.logic.onJoin r.state (r.view g) conn)
    (r?, former ++ effects)
  | .leave conn =>
    match r.members.lookup conn with
    | none => (some r, [])
    | some ticket =>
      let r := { r with members := r.members.filter (·.1 != conn) }
      let (r?, effects) := r.settle g (g.logic.onLeave r.state (r.view g) conn)
      (r?, .disconnect ticket :: effects)
  | .frame sender bytes =>
    if (r.members.lookup sender).isNone then (some r, [])
    else
      match clientMessage? g.protocol bytes with
      | none => (some r, [])
      | some msg => r.settle g (g.logic.onMessage r.state (r.view g) sender msg)
  | .close reason => (none, r.closeAll reason)

/-- What becomes of a command that comes after the end: the queue of a join is let go of. -/
def abandon : Command → List Effect
  | .join _ ticket => [.disconnect ticket]
  | _ => []

/-- Handles queued commands in order. -/
def run (g : Game σ) : Option (Room σ) → List Command → Option (Room σ) × List Effect
  | r?, [] => (r?, [])
  | none, c :: cs =>
    let (r?, effects) := run g none cs
    (r?, abandon c ++ effects)
  | some r, c :: cs =>
    let (r?, first) := r.step g c
    let (r?, effects) := run g r? cs
    (r?, first ++ effects)

end Room

end Gamewire
