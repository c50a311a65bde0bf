import Gamewire.Files.Tree

/-! The line between a client and the server: frames in both directions, delivered whole and in
order. Either side may go, and a line may have faults on the side of the server. -/
namespace Gamewire
set_option autoImplicit false

inductive TransportFault where
  | bind (address : String) (fault : FileFault)
  | accept (reason : String)
  | handshake (reason : String)
  | connectionClosed (reason : String)
  | shutdown
deriving Repr, DecidableEq

def TransportFault.message : TransportFault → String
  | bind address fault => "cannot listen on " ++ address ++ ": " ++ fault.message
  | accept reason => "accept failed: " ++ reason
  | handshake reason => "websocket upgrade failed: " ++ reason
  | connectionClosed reason => "connection closed: " ++ reason
  | shutdown => "transport shut down"

/-- Faults of a line. The calls of the server are counted from zero. -/
structure LineFaults where
  sendFailsFrom : Option Nat := none
  /-- From this call on sending never ends. -/
  sendHangsFrom : Option Nat := none
  /-- How long every sending takes, in milliseconds. -/
  sendDelay : Nat := 0
  /-- From this call on reading fails, even when a frame waits. -/
  readFailsFrom : Option Nat := none
deriving Repr, DecidableEq

/-- What a client gets. -/
inductive Arrival where
  | frame (bytes : List UInt8)
  | hungUp
deriving Repr, DecidableEq

structure Line where
  faults : LineFaults := {}
  sends : Nat := 0
  reads : Nat := 0
  /-- Frames of the client that are not read yet. -/
  inbox : List (List UInt8) := []
  clientPresent : Bool := true
  /-- Whether the client may still send. -/
  clientSending : Bool := true
  serverPresent : Bool := true
  /-- What reached the client since it last looked. -/
  arrivals : List Arrival := []
deriving Repr, DecidableEq

namespace Line

/-! ## The client's side -/

def clientSend (bytes : List UInt8) (l : Line) : Except TransportFault Line :=
  if ! l.clientSending then .error (.connectionClosed "closed locally")
  else if ! l.serverPresent then .error (.connectionClosed "server dropped")
  else .ok { l with inbox := l.inbox ++ [bytes] }

/-- The client sends nothing more. -/
def clientClose (l : Line) : Line := { l with clientSending := false }

/-- The client goes away. -/
def clientLeave (l : Line) : Line :=
  { l with clientSending := false, clientPresent := false, arrivals := [] }

/-! ## The server's side -/

/-- What becomes of a frame that the server starts to send. -/
inductive Fate where
  | fails
  | hangs
  | takes (ms : Nat)
deriving Repr, DecidableEq

def reaches (call : Nat) : Option Nat → Bool
  | some first => decide (first ≤ call)
  | none => false

/-- Starts to send. -/
def startSend (l : Line) : Fate × Line :=
  (if reaches l.sends l.faults.sendFailsFrom then .fails
    else if reaches l.sends l.faults.sendHangsFrom then .hangs
    else .takes l.faults.sendDelay,
    { l with sends := l.sends + 1 })

/-- Hands a frame to the client, if it is there. -/
def deliver (bytes : List UInt8) (l : Line) : Option Line :=
  if l.clientPresent then some { l with arrivals := l.arrivals ++ [.frame bytes] } else none

/-- The server lets go of the line. -/
def hangUp (l : Line) : Line :=
  if l.serverPresent ∧ l.clientPresent then
    { l with serverPresent := false, arrivals := l.arrivals ++ [.hungUp] }
  else { l with serverPresent := false }

/-- The end of a reading; a line that fails and one that the client closed are told apart by
nobody. -/
inductive Reading where
  | frame (bytes : List UInt8)
  | ended
  | waits
deriving Repr, DecidableEq

/-- Reads one frame. -/
def read (l : Line) : Reading × Line :=
  if reaches l.reads l.faults.readFailsFrom then (.ended, l)
  else
    match l.inbox with
    | bytes :: inbox => (.frame bytes, { l with inbox := inbox, reads := l.reads + 1 })
    | [] => (if l.clientSending then .waits else .ended, l)

/-- Reads the given number of frames, as far as they are there. The flag tells that the line is
over after them. -/
def readUpTo : Nat → Line → List (List UInt8) × Bool × Line
  | 0, l => ([], false, l)
  | n + 1, l =>
    match l.read with
    | (.frame bytes, l) =>
      let (frames, isEnded, l) := readUpTo n l
      (bytes :: frames, isEnded, l)
    | (.ended, l) => ([], true, l)
    | (.waits, l) => ([], false, l)

/-- Reads everything that waits. -/
def readAll (l : Line) : List (List UInt8) × Bool × Line := readUpTo (l.inbox.length + 1) l

end Line

end Gamewire
