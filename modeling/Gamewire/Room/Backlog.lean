import Gamewire.Room.Lobby

/-! Commands that wait for their rooms to get on. A room lets as many frames wait as its command
queue has places; the next one makes every room catch up first. The manager does not wait for the
rooms either: of requests that come at once, those that fit into its own queue are answered before
a room hears of the members it gets. -/
namespace Gamewire
set_option autoImplicit false

structure WaitingCommand where
  room : RoomId
  command : Command
deriving Repr, DecidableEq

/-- What a connection asks for. -/
structure JoinRequest where
  conn : ConnId
  requested : Option RoomId
  buffer : Nat
deriving Repr, DecidableEq

structure Backlog (σ : Type) where
  lobby : Lobby σ
  /-- In the order of sending. -/
  waiting : List WaitingCommand := []

namespace Backlog

variable {σ : Type}

/-- Lets a room handle what waited for it. The queue of a join that waited for a room that is over
is let go of. -/
def handle (g : Game σ) (l : Lobby σ) (w : WaitingCommand) : Lobby σ :=
  match l.rooms.lookup w.room with
  | some _ => l.command g w.room w.command
  | none => l.applyEffects (Room.abandon w.command)

/-- Lets every room handle what waits for it. -/
def catchUp (g : Game σ) (b : Backlog σ) : Backlog σ where
  lobby := b.waiting.foldl (handle g) b.lobby

def hasPlace (b : Backlog σ) (room : RoomId) : Bool :=
  decide ((b.waiting.filter (·.room == room)).length < b.lobby.limits.commandBuffer)

/-- Leaves a frame for the room of an admission. -/
def post (g : Game σ) (a : Admission) (conn : ConnId) (bytes : List UInt8) (b : Backlog σ) :
    Except RoomFault Unit × Backlog σ :=
  let b := if b.hasPlace a.room then b else b.catchUp g
  match b.lobby.rooms.lookup a.room with
  | some _ => (.ok (), { b with waiting := b.waiting ++ [⟨a.room, .frame conn bytes⟩] })
  | none => (.error (.unavailable a.room), b)

/-- Records a connection as a member of a room that is yet to hear of it. -/
def enroll (conn : ConnId) (ticket : Ticket) (id : RoomId) (l : Lobby σ) : Lobby σ :=
  { l with registry := l.registry.addMember id conn, held := ⟨ticket, id, conn⟩ :: l.held }

/-- Answers a request. The room that is chosen is to hear of its member. -/
def answer (g : Game σ) (q : JoinRequest) (b : Backlog σ) :
    (Ticket × Except AdmissionFault RoomId) × Backlog σ :=
  let (ticket, l) := b.lobby.openMailbox q.buffer
  let (result, l) := l.placeBy g (enroll q.conn ticket) q.requested ticket
  let joins := result.toOption.toList.map fun id => ⟨id, .join q.conn ticket⟩
  ((ticket, result), ⟨l, b.waiting ++ joins⟩)

/-- Answers requests that come at once, in order. The rooms catch up after the last one, and
whenever the manager's queue, with `places` left in it, is full. -/
def answerAll (g : Game σ) : (places : Nat) → List JoinRequest → Backlog σ →
    List (Ticket × Except AdmissionFault RoomId) × Backlog σ
  | _, [], b => ([], b.catchUp g)
  | 0, q :: qs, b =>
    let (answer, b) := (b.catchUp g).answer g q
    let (answers, b) := b.answerAll g (b.lobby.limits.commandBuffer - 1) qs
    (answer :: answers, b)
  | places + 1, q :: qs, b =>
    let (answer, b) := b.answer g q
    let (answers, b) := b.answerAll g places qs
    (answer :: answers, b)

end Backlog

namespace Lobby

variable {σ : Type}

/-- Connections ask for rooms at once. -/
def joinAll (g : Game σ) (requests : List JoinRequest) (l : Lobby σ) :
    List (Ticket × Except AdmissionFault RoomId) × Lobby σ :=
  let (answers, b) := Backlog.answerAll g l.limits.commandBuffer requests ⟨l, []⟩
  (answers, b.lobby)

end Lobby

end Gamewire
