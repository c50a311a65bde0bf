import Gamewire.Schema.Fingerprint
import Gamewire.Server.Config
import Gamewire.Server.Connection

/-! The server as a machine. Every operation lets each connection go as far as it can: a connection
reads what its client sent, the rooms react, and the writers send what the rooms have for them. -/
namespace Gamewire
set_option autoImplicit false

/-! ## Servers -/

/-- Why a server cannot be started, and what it may end with. -/
inductive ServerFault where
  | config (fault : ConfigFault)
  | room (fault : RoomFault)
  | admin (fault : AdminFault)
  | transport (fault : TransportFault)
  | io (fault : FileFault)
deriving Repr, DecidableEq

def ServerFault.message : ServerFault → String
  | config fault => fault.message
  | room fault => fault.message
  | admin fault => fault.message
  | transport fault => fault.message
  | io fault => "I/O error: " ++ fault.message

/-- The faults behind the fault. -/
def ServerFault.causes : ServerFault → List String
  | config fault => fault.causes
  | transport (.bind _ fault) => [fault.message]
  | io fault => [fault.message]
  | room _ | admin _ | transport _ => []

structure Server (σ : Type) where
  lobby : Lobby σ
  /-- In the order of their numbers. -/
  connections : List Connection := []
  /-- The number that the next connection gets. -/
  nextConn : Nat := 1
  /-- Frames that may wait for one member. -/
  buffer : Nat
  /-- Milliseconds that a writer waits for a frame to arrive. -/
  sendLimit : Nat
  /-- Milliseconds within which a client has to ask for a room. -/
  joinLimit : Nat
  /-- How the server ended, if it did. -/
  ended : Option (Except RoomFault Unit) := none

namespace Server

variable {σ : Type}

/-- A server for settings that are in order, with the key of its administrators. -/
def start (config : ServerConfig) : Except ServerFault (Server σ × AdminKey) :=
  match config.validate with
  | .error e => .error (.config e)
  | .ok () =>
    match Lobby.start config.limits, AdminKey.make config.adminHeader config.adminSecret with
    | .error e, _ => .error (.room e)
    | .ok _, .error e => .error (.admin e)
    | .ok lobby, .ok key =>
      .ok ({ lobby := lobby, buffer := config.outboundBuffer, sendLimit := config.sendLimit,
             joinLimit := config.joinLimit }, key)

def now (s : Server σ) : Nat := s.lobby.now

def connection? (s : Server σ) (number : Nat) : Option Connection :=
  s.connections.find? (·.number == number)

def setConnection (c : Connection) (s : Server σ) : Server σ :=
  { s with connections := s.connections.map fun x => if x.number = c.number then c else x }

/-! ## Connections -/

/-- Ends a connection: a member leaves its room, and the server hangs up. -/
def finish (g : Game σ) (c : Connection) (s : Server σ) : Server σ :=
  let lobby :=
    match c.phase.ticket? with
    | some ticket => (s.lobby.release g ticket).dropMailbox ticket
    | none => s.lobby
  { s with lobby := lobby }.setConnection { c with phase := .ended, line := c.line.hangUp }

/-- Starts to send a frame that no limit is set for. When sending fails the connection ends. -/
def startSend (g : Game σ) (c : Connection) (phase : Option Nat → Phase) (s : Server σ) :
    Server σ :=
  match c.line.startSend with
  | (.fails, line) => s.finish g { c with line := line, phase := phase none }
  | (.hangs, line) => s.setConnection { c with line := line, phase := phase none }
  | (.takes ms, line) => s.setConnection { c with line := line, phase := phase (some (s.now + ms)) }

def refuse (g : Game σ) (c : Connection) (r : Refusal) (s : Server σ) : Server σ :=
  s.startSend g c (.refusing (ControlFrame.rejected r).encode)

/-- Asks for a room for a client. -/
def enter (g : Game σ) (c : Connection) (room : Option RoomId) (s : Server σ) : Server σ :=
  match s.lobby.join g c.id room s.buffer with
  | (ticket, .ok id, lobby) =>
    { s with lobby := lobby }.startSend g c (.joining ticket (ControlFrame.joined id c.id).encode)
  | (ticket, .error e, lobby) =>
    { s with lobby := lobby.dropMailbox ticket }.refuse g c e.refusal

/-- Handles the first frame of a client. -/
def greet (g : Game σ) (c : Connection) (bytes : List UInt8) (s : Server σ) : Server σ :=
  match ControlFrame.decode bytes with
  | .ok (.join room fingerprint) =>
    if fingerprint = g.protocol.fingerprint then s.enter g c room
    else s.refuse g c .fingerprintMismatch
  | _ => s.refuse g c .badHandshake

/-- Passes frames of a member on to its room; control frames are left out. The flag tells that the
room is gone. -/
def forward (g : Game σ) (a : Admission) : List (List UInt8) → Lobby σ → Bool × Lobby σ
  | [], l => (false, l)
  | bytes :: rest, l =>
    if isControlFrame bytes then forward g a rest l
    else
      match l.send g a a.conn bytes with
      | (.ok (), l) => forward g a rest l
      | (.error _, l) => (true, l)

/-- Reads what a member sent. -/
def listen (g : Game σ) (c : Connection) (ticket : Ticket) (s : Server σ) : Server σ :=
  match s.lobby.admission? ticket with
  | none => s
  | some a =>
    let (frames, isEnded, line) := c.line.readAll
    let (isGone, lobby) := forward g a frames s.lobby
    let c := { c with line := line }
    let s := { s with lobby := lobby }
    if isEnded ∨ isGone then s.finish g c else s.setConnection c

/-- Ends a transfer whose time has come, one way or the other. -/
def endTransfer (g : Game σ) (c : Connection) (ticket : Ticket) (t : Transfer) (s : Server σ) :
    Server σ :=
  if isDue s.now t.arrives then
    match c.line.deliver t.bytes with
    | none => s.finish g c
    | some line =>
      let c := { c with line := line, phase := .member ticket none }
      if t.isLast then s.finish g c else s.setConnection c
  else if t.limit ≤ s.now then s.finish g c
  else s

/-- One stage of a connection. -/
def proceed (g : Game σ) (n : Nat) (s : Server σ) : Server σ :=
  match s.connection? n with
  | none => s
  | some c =>
    match c.phase with
    | .greeting deadline =>
      match c.line.read with
      | (.frame bytes, line) => s.greet g { c with line := line } bytes
      | (.ended, _) => s.finish g c
      | (.waits, _) => if deadline ≤ s.now then s.refuse g c .badHandshake else s
    | .refusing bytes arrives =>
      if isDue s.now arrives then s.finish g { c with line := (c.line.deliver bytes).getD c.line }
      else s
    | .joining ticket bytes arrives =>
      if isDue s.now arrives then
        match c.line.deliver bytes with
        | some line => s.setConnection { c with line := line, phase := .member ticket none }
        | none => s.finish g c
      else s
    | .member ticket none => s.listen g c ticket
    | .member ticket (some t) =>
      let s := s.endTransfer g c ticket t
      match s.connection? n with
      | some c => if c.isEnded then s else s.listen g c ticket
      | none => s
    | .ended => s

/-- All stages of a connection: at most a greeting, an answer to it, and the reading of a member. -/
def proceedFully (g : Game σ) (n : Nat) (s : Server σ) : Server σ :=
  ((s.proceed g n).proceed g n).proceed g n

/-! ## Writers -/

/-- Starts to send what a room has for a member. -/
def startTransfer (g : Game σ) (c : Connection) (ticket : Ticket) (bytes : List UInt8)
    (isLast : Bool) (s : Server σ) : Server σ :=
  let transfer (arrives : Option Nat) : Phase :=
    .member ticket (some ⟨bytes, arrives, s.now + s.sendLimit, isLast⟩)
  match c.line.startSend with
  | (.fails, line) => s.finish g { c with line := line }
  | (.hangs, line) => s.setConnection { c with line := line, phase := transfer none }
  | (.takes 0, line) =>
    match line.deliver bytes with
    | none => s.finish g { c with line := line }
    | some line =>
      let c := { c with line := line }
      if isLast then s.finish g c else s.setConnection c
  | (.takes ms, line) =>
    s.setConnection { c with line := line, phase := transfer (some (s.now + ms)) }

/-- Lets a writer that has nothing under way take its next item. -/
def write (g : Game σ) (n : Nat) (s : Server σ) : Server σ :=
  match s.connection? n with
  | none => s
  | some c =>
    match c.phase with
    | .member ticket none =>
      match s.lobby.receive ticket with
      | (some (.frame bytes), lobby) =>
        { s with lobby := lobby }.startTransfer g c ticket bytes false
      | (some (.closed reason), lobby) =>
        { s with lobby := lobby }.startTransfer g c ticket (ControlFrame.closing reason).encode true
      | (none, _) =>
        if (s.lobby.mailbox? ticket).any (·.isOver) then s.finish g c else s
    | _ => s

/-- The number of items that wait for a connection. -/
def waiting (s : Server σ) (n : Nat) : Nat :=
  match (s.connection? n).bind (·.phase.ticket?) with
  | some ticket => ((s.lobby.mailbox? ticket).map (·.pending.length)).getD 0
  | none => 0

/-- Lets a writer take what waits. -/
def writeAll (g : Game σ) (n : Nat) (s : Server σ) : Server σ :=
  Nat.repeat (write g n) (s.waiting n + 1) s

/-- Lets every writer take what waits. -/
def writeRound (g : Game σ) (s : Server σ) : Server σ :=
  (s.connections.map (·.number)).foldl (fun s n => s.writeAll g n) s

/-- Writes until nothing more can be written: there is new work after a round only if a connection
ended in it. -/
def settle (g : Game σ) (s : Server σ) : Server σ :=
  Nat.repeat (writeRound g) (s.connections.length + 1) s

/-- Lets one connection go on, and then all writers. -/
def wake (g : Game σ) (n : Nat) (s : Server σ) : Server σ := (s.proceedFully g n).settle g

/-! ## Clients -/

/-- A client connects; there is nobody to answer when the server has ended. -/
def connect (g : Game σ) (faults : LineFaults) (s : Server σ) :
    Except TransportFault ConnId × Server σ :=
  if s.ended.isSome then (.error .shutdown, s)
  else
    let c : Connection :=
      { number := s.nextConn, line := { faults := faults }, phase := .greeting (s.now + s.joinLimit) }
    let s := { s with connections := s.connections ++ [c], nextConn := s.nextConn + 1 }
    (.ok c.id, s.wake g c.number)

/-- A client sends a frame; `none` if there is no such client. -/
def hear (g : Game σ) (n : Nat) (bytes : List UInt8) (s : Server σ) :
    Option (Except TransportFault Unit) × Server σ :=
  match s.connection? n with
  | none => (none, s)
  | some c =>
    if c.line.clientPresent then
      match c.line.clientSend bytes with
      | .ok line => (some (.ok ()), (s.setConnection { c with line := line }).wake g n)
      | .error e => (some (.error e), s)
    else (none, s)

/-- A client ends its sending; the flag tells whether there is such a client. -/
def hearEnd (g : Game σ) (n : Nat) (s : Server σ) : Bool × Server σ :=
  match s.connection? n with
  | none => (false, s)
  | some c =>
    if c.line.clientPresent then
      (true, (s.setConnection { c with line := c.line.clientClose }).wake g n)
    else (false, s)

/-- A client goes; tells whether it was there, or `none` if there never was such a client. -/
def lose (g : Game σ) (n : Nat) (s : Server σ) : Option Bool × Server σ :=
  match s.connection? n with
  | none => (none, s)
  | some c =>
    if c.line.clientPresent then
      (some true, (s.setConnection { c with line := c.line.clientLeave }).wake g n)
    else (some false, s)

/-! Clients by what they are called. -/

def clientSend (g : Game σ) (id : ConnId) (bytes : List UInt8) (s : Server σ) :
    Option (Except TransportFault Unit) × Server σ := s.hear g id.toNat bytes

def clientClose (g : Game σ) (id : ConnId) (s : Server σ) : Bool × Server σ := s.hearEnd g id.toNat

def clientLeave (g : Game σ) (id : ConnId) (s : Server σ) : Option Bool × Server σ :=
  s.lose g id.toNat

/-- What reached the clients since the last look. -/
def collect (s : Server σ) : List (ConnId × List Arrival) × Server σ :=
  let seen := s.connections.map fun c => { c with line := { c.line with arrivals := [] } }
  ((s.connections.map fun c => (c.id, c.line.arrivals)).filter fun x => !x.2.isEmpty,
    { s with connections := seen })

/-! ## Time and administration -/

/-- Time passes. -/
def advance (g : Game σ) (ms : Nat) (s : Server σ) : Server σ :=
  let s := { s with lobby := s.lobby.advance g ms }
  ((s.connections.map (·.number)).foldl (fun s n => s.proceedFully g n) s).settle g

def shutdownRoom (g : Game σ) (id : RoomId) (reason : String) (s : Server σ) :
    Except RoomFault Unit × Server σ :=
  let (result, lobby) := s.lobby.shutdownRoom g id reason
  (result, { s with lobby := lobby }.settle g)

/-- Closes all rooms for good; the server goes on and refuses everybody. -/
def shutdown (g : Game σ) (reason : String) (s : Server σ) : Except RoomFault Unit × Server σ :=
  let (result, lobby) := s.lobby.shutdown g reason
  (result, { s with lobby := lobby }.settle g)

/-- Ends the server, if it has not ended yet. -/
def stop (g : Game σ) (s : Server σ) : Server σ :=
  if s.ended.isSome then s
  else
    let (result, s) := s.shutdown g serverShutdownReason
    { s with ended := some result }

end Server

end Gamewire
