import Gamewire.Wire.Codec
import Gamewire.Wire.Control

/-! The rules of a game, as a room sees them: functions from a state and an event to a new state
and messages to send. The room decodes, checks and delivers; the rules only decide. -/
namespace Gamewire
set_option autoImplicit false

/-- What the rules may look at. -/
structure RoomView where
  room : RoomId
  protocol : Protocol
  /-- The members in ascending order. -/
  members : List ConnId

/-- Messages to send, each with those it goes to. -/
abbrev Outbound := List (Recipient × Message)

/-- The end of a call of the rules. A fault closes the room with a notice to its members; a crash
ends it without one. -/
inductive Verdict (σ : Type) where
  | proceed (state : σ) (out : Outbound)
  | fault (text : String)
  | crash

/-- The rules of a game with room states of type `σ`. -/
structure Logic (σ : Type) where
  /-- The state of a new room; `none` is a crash. -/
  init : RoomId → Option σ
  onJoin : σ → RoomView → ConnId → Verdict σ
  onLeave : σ → RoomView → ConnId → Verdict σ
  onMessage : σ → RoomView → (sender : ConnId) → Message → Verdict σ

namespace Logic

/-- What a relay sends for a message: a heartbeat back to its sender, a message that servers may
send to everybody else, and any other to nobody. -/
def relayed (view : RoomView) (sender : ConnId) (msg : Message) : Outbound :=
  match view.protocol.ofTag? msg.tag with
  | none => []
  | some m =>
    if m.heartbeat then [(.only sender, msg)]
    else if m.direction.serverSends then [(.allExcept sender, msg)]
    else []

/-- Rules without a state that pass messages on. -/
def relay : Logic Unit where
  init _ := some ()
  onJoin s _ _ := .proceed s []
  onLeave s _ _ := .proceed s []
  onMessage s view sender msg := .proceed s (relayed view sender msg)

end Logic

end Gamewire
