import Gamewire.Room.Machine
import Gamewire.Room.Mailbox
import Gamewire.Room.Registry

/-! The lobby: everything between the connections and the rooms. It admits connections, keeps the
register, runs the rooms, fills the queues of their members and lets empty rooms go when their
grace period ends. Every operation runs to completion before the next. -/
namespace Gamewire
set_option autoImplicit false

/-- A membership that its connection holds until it releases it. -/
structure Admission where
  ticket : Ticket
  room : RoomId
  conn : ConnId
deriving Repr, DecidableEq

/-- A description for logs. -/
def Admission.summary (a : Admission) : String :=
  "Admission \x7b room_id: RoomId(" ++ toString a.room.toNat ++ "), conn: ConnectionId(" ++
    toString a.conn.toNat ++ "), .. \x7d"

/-- The end of the grace period of a room that became empty. -/
structure Timer where
  due : Nat
  room : RoomId
  generation : Nat
deriving Repr, DecidableEq

/-- Who decides on admissions: a manager at work, one that was told to go, or one that crashed. -/
inductive Manager where
  | running
  | gone
  | crashed
deriving Repr, DecidableEq

structure Lobby (σ : Type) where
  limits : Limits
  registry : Registry
  manager : Manager := .running
  shuttingDown : Bool := false
  rooms : List (RoomId × Room σ) := []
  mailboxes : List (Ticket × Mailbox) := []
  held : List Admission := []
  timers : List Timer := []
  /-- Milliseconds since the start. -/
  now : Nat := 0
  nextTicket : Ticket := 0

namespace Lobby

variable {σ : Type}

def ofLimits (limits : Limits) : Lobby σ where
  limits := limits
  registry := { maxRooms := limits.maxRooms, capacity := limits.maxMembers }

/-- A lobby for limits that are in order. -/
def start (limits : Limits) : Except RoomFault (Lobby σ) :=
  match limits.check with
  | .ok () => .ok (ofLimits limits)
  | .error e => .error e

/-! ## Queues -/

def changeMailbox (ticket : Ticket) (f : Mailbox → Mailbox) (l : Lobby σ) : Lobby σ :=
  { l with mailboxes := l.mailboxes.map fun m => if m.1 = ticket then (m.1, f m.2) else m }

def applyEffect (l : Lobby σ) : Effect → Lobby σ
  | .deliver ticket frame => l.changeMailbox ticket (Mailbox.deliver frame)
  | .close ticket reason => l.changeMailbox ticket (Mailbox.close reason)
  | .disconnect ticket => l.changeMailbox ticket Mailbox.disconnect

def applyEffects (l : Lobby σ) (effects : List Effect) : Lobby σ := effects.foldl applyEffect l

def mailbox? (l : Lobby σ) (ticket : Ticket) : Option Mailbox := l.mailboxes.lookup ticket

/-- Takes the next item of a queue. -/
def receive (ticket : Ticket) (l : Lobby σ) : Option Delivery × Lobby σ :=
  match l.mailbox? ticket with
  | none => (none, l)
  | some m => (m.receive.1, l.changeMailbox ticket fun _ => m.receive.2)

/-- Takes everything that waits in a queue. -/
def receiveAll (ticket : Ticket) (l : Lobby σ) : List Delivery × Lobby σ :=
  match l.mailbox? ticket with
  | none => ([], l)
  | some m => (m.pending, l.changeMailbox ticket fun m => { m with notice := none, frames := [] })

/-- The reader of a queue goes away. -/
def dropMailbox (ticket : Ticket) (l : Lobby σ) : Lobby σ :=
  { l with mailboxes := l.mailboxes.filter (·.1 != ticket) }

/-! ## Rooms -/

def setRoom (id : RoomId) (r? : Option (Room σ)) (l : Lobby σ) : Lobby σ :=
  match r? with
  | some r => { l with rooms := l.rooms.map fun x => if x.1 = id then (id, r) else x }
  | none => { l with rooms := l.rooms.filter (·.1 != id) }

/-- Strikes a room that is over off the register. -/
def noteExit (id : RoomId) (r? : Option (Room σ)) (l : Lobby σ) : Lobby σ :=
  match r? with
  | some _ => l
  | none => { l with registry := l.registry.remove id }

/-- Lets a running room handle a command. -/
def command (g : Game σ) (id : RoomId) (c : Command) (l : Lobby σ) : Lobby σ :=
  match l.rooms.lookup id with
  | none => l
  | some r =>
    let (r?, effects) := r.step g c
    ((l.setRoom id r?).noteExit id r?).applyEffects effects

/-- Without a manager a room lives as long as somebody holds an admission to it. -/
def abandonRooms (l : Lobby σ) : Lobby σ :=
  let isHeld (id : RoomId) := l.held.any (·.room == id)
  let ended := l.rooms.filter fun r => !isHeld r.1
  let l' := { l with rooms := l.rooms.filter fun r => isHeld r.1 }
  l'.applyEffects (ended.flatMap fun r => r.2.disconnectAll)

/-! ## Grace periods -/

/-- The end of a grace period. A timer whose room was entered since does nothing. -/
def expire (g : Game σ) (l : Lobby σ) (t : Timer) : Lobby σ :=
  if l.manager = .running ∧ l.registry.isExpired t.room t.generation then
    command g t.room (.close "room closed") { l with registry := l.registry.remove t.room }
  else l

/-- Lets the timers that are due go off. -/
def expireDue (g : Game σ) (l : Lobby σ) : Lobby σ :=
  let due := l.timers.filter (·.due ≤ l.now)
  due.foldl (expire g) { l with timers := l.timers.filter fun t => ¬ t.due ≤ l.now }

/-- Time passes. -/
def advance (g : Game σ) (ms : Nat) (l : Lobby σ) : Lobby σ :=
  expireDue g { l with now := l.now + ms }

/-! ## Admissions -/

/-- A new queue; its ticket is handed out whatever becomes of the request. -/
def openMailbox (buffer : Nat) (l : Lobby σ) : Ticket × Lobby σ :=
  (l.nextTicket, { l with
    mailboxes := l.mailboxes ++ [(l.nextTicket, .ofBuffer buffer)]
    nextTicket := l.nextTicket + 1 })

/-- Puts a connection into a live room. -/
def enter (g : Game σ) (id : RoomId) (conn : ConnId) (ticket : Ticket) (l : Lobby σ) : Lobby σ :=
  command g id (.join conn ticket)
    { l with registry := l.registry.addMember id conn, held := ⟨ticket, id, conn⟩ :: l.held }

/-- Makes a room. If its rules crash the manager does, and so it does without a number left. -/
def createRoom (g : Game σ) (l : Lobby σ) : Option (RoomId × Lobby σ) :=
  match l.registry.create with
  | none => none
  | some (id, registry) =>
    match g.logic.init id with
    | some state =>
      let room := { id := id, state := state }
      some (id, { l with registry := registry, rooms := l.rooms ++ [(id, room)] })
    | none => none

/-- The manager is gone, and with it the register. -/
def crash (l : Lobby σ) : Lobby σ :=
  { l with manager := .crashed, registry := { l.registry with rooms := [] } }.abandonRooms

/-- The answer to a request that is not granted; its queue is let go of. -/
def refuse (ticket : Ticket) (e : AdmissionFault) (l : Lobby σ) :
    Except AdmissionFault RoomId × Lobby σ :=
  (.error e, l.changeMailbox ticket Mailbox.disconnect)

/-- Finds a room according to the policy, and has the connection let in there. A chosen room that no
longer runs is struck off the register, and the search starts again. -/
def seatBy (g : Game σ) (letIn : RoomId → Lobby σ → Lobby σ) (requested : Option RoomId)
    (ticket : Ticket) (l : Lobby σ) : Except AdmissionFault RoomId × Lobby σ :=
  match _h : l.registry.choose requested with
  | .error e => l.refuse ticket e
  | .ok .new =>
    match l.createRoom g with
    | some (id, l) => (.ok id, letIn id l)
    | none => l.crash.refuse ticket .unavailable
  | .ok (.existing id) =>
    match l.rooms.lookup id with
    | some _ => (.ok id, letIn id l)
    | none => seatBy g letIn requested ticket { l with registry := l.registry.remove id }
termination_by l.registry.rooms.length
decreasing_by
  obtain ⟨e, he, -⟩ := Registry.mem_of_choose _h
  exact Registry.length_remove_lt he

/-- Decides on a request with an open queue. -/
def placeBy (g : Game σ) (letIn : RoomId → Lobby σ → Lobby σ) (requested : Option RoomId)
    (ticket : Ticket) (l : Lobby σ) : Except AdmissionFault RoomId × Lobby σ :=
  if l.manager ≠ .running then l.refuse ticket .unavailable
  else if l.shuttingDown then l.refuse ticket .shuttingDown
  else l.seatBy g letIn requested ticket

/-- Finds a place according to the policy, where the connection is a member at once. -/
def seat (g : Game σ) (conn : ConnId) (requested : Option RoomId) (ticket : Ticket)
    (l : Lobby σ) : Except AdmissionFault RoomId × Lobby σ :=
  l.seatBy g (fun id l => l.enter g id conn ticket) requested ticket

/-- Decides on a request with an open queue; who is granted a place is a member at once. -/
def place (g : Game σ) (conn : ConnId) (requested : Option RoomId) (ticket : Ticket)
    (l : Lobby σ) : Except AdmissionFault RoomId × Lobby σ :=
  l.placeBy g (fun id l => l.enter g id conn ticket) requested ticket

/-- A connection asks for a room. -/
def join (g : Game σ) (conn : ConnId) (requested : Option RoomId) (buffer : Nat) (l : Lobby σ) :
    Ticket × Except AdmissionFault RoomId × Lobby σ :=
  let (ticket, l) := l.openMailbox buffer
  (ticket, l.place g conn requested ticket)

def admission? (ticket : Ticket) (l : Lobby σ) : Option Admission :=
  l.held.find? (·.ticket == ticket)

/-- Takes a released member out of its room, and starts the grace period of a room that is empty
now. -/
def takeOut (g : Game σ) (a : Admission) (l : Lobby σ) : Lobby σ :=
  match l.registry.removeMember a.room a.conn with
  | none => l
  | some (entry, registry) =>
    let l := command g a.room (.leave a.conn) { l with registry := registry }
    if entry.state = .closing then
      expireDue g { l with
        timers := l.timers ++ [⟨l.now + l.limits.grace, a.room, entry.generation⟩] }
    else l

/-- Gives an admission back. -/
def release (g : Game σ) (ticket : Ticket) (l : Lobby σ) : Lobby σ :=
  match l.admission? ticket with
  | none => l
  | some a =>
    let l := { l with held := l.held.filter (·.ticket != ticket) }
    match l.manager with
    | .running => l.takeOut g a
    | .gone | .crashed => l.abandonRooms

/-- A connection asks for a room and is gone before the answer: what it was granted is given back at
once. -/
def joinInVain (g : Game σ) (conn : ConnId) (requested : Option RoomId) (buffer : Nat)
    (l : Lobby σ) : Lobby σ :=
  match l.join g conn requested buffer with
  | (ticket, _, l) => l.release g ticket

/-- A connection that holds an admission sends a frame to its room, in the name of `conn`. -/
def send (g : Game σ) (a : Admission) (conn : ConnId) (bytes : List UInt8) (l : Lobby σ) :
    Except RoomFault Unit × Lobby σ :=
  match l.rooms.lookup a.room with
  | some _ => (.ok (), l.command g a.room (.frame conn bytes))
  | none => (.error (.unavailable a.room), l)

/-! ## Administration -/

def list (l : Lobby σ) : Except RoomFault (List RoomSnapshot) :=
  if l.manager = .running then .ok l.registry.snapshots else .error .managerUnavailable

/-- Closes a room. A room that is gone already is no fault. -/
def shutdownRoom (g : Game σ) (id : RoomId) (reason : String) (l : Lobby σ) :
    Except RoomFault Unit × Lobby σ :=
  if l.manager ≠ .running then (.error .managerUnavailable, l)
  else
    match l.registry.rooms.lookup id with
    | some _ => (.ok (), command g id (.close reason) { l with registry := l.registry.remove id })
    | none => (if l.registry.everExisted id then .ok () else .error (.notFound id), l)

def closeAll (g : Game σ) (reason : String) (l : Lobby σ) : Lobby σ :=
  (l.registry.rooms.map (·.1)).foldl (fun l id => command g id (.close reason) l)
    { l with registry := { l.registry with rooms := [] } }

/-- Closes every room and admits nobody any more. -/
def shutdown (g : Game σ) (reason : String) (l : Lobby σ) : Except RoomFault Unit × Lobby σ :=
  if l.manager ≠ .running then (.error .managerUnavailable, l)
  else (.ok (), closeAll g reason { l with shuttingDown := true })

/-- The manager ends, because nobody can reach it any more. -/
def dismiss (g : Game σ) (l : Lobby σ) : Lobby σ :=
  if l.manager = .running then { closeAll g "server stopped" l with manager := .gone } else l

end Lobby

end Gamewire
