import Gamewire.Room.Logic

/-! Rules written down as data: for each event a list of steps that build the messages to send.
The state of a room is the number of messages it has handled. -/
namespace Gamewire
set_option autoImplicit false

/-- A number that a script can ask for. -/
inductive Variable where
  | count
  | room
  | members
  | first
  | last
  | conn
deriving Repr, DecidableEq

def Variable.name : Variable → String
  | count => "count"
  | room => "room"
  | members => "members"
  | first => "first"
  | last => "last"
  | conn => "conn"

def Variable.ofName? (s : String) : Option Variable :=
  [count, room, members, first, last, conn].find? (·.name == s)

/-- A field of a message to send. -/
inductive ScriptField where
  | absent
  | value (v : Value)
  | variable (v : Variable)

/-- Whom a message goes to; `sender` is the connection of the event. -/
inductive Audience where
  | all
  | sender
  | others
  | only (conn : ConnId)
  | allExcept (conn : ConnId)

inductive Rule where
  | fault (text : String)
  | crash
  /-- Sends the handled message. -/
  | echo (audience : Audience)
  | send (audience : Audience) (tag : UInt8) (fields : List ScriptField)

structure Script where
  onJoin : List Rule := []
  onLeave : List Rule := []
  /-- Rules by tag; a message without rules is relayed. -/
  onMessage : List (UInt8 × List Rule) := []
  /-- The room that cannot be made. -/
  brokenRoom : Option RoomId := none

namespace Script

def recipient (conn : ConnId) : Audience → Recipient
  | .all => .all
  | .sender => .only conn
  | .others => .allExcept conn
  | .only id => .only id
  | .allExcept id => .allExcept id

/-- The value of a variable; a room without members has no first and no last one. -/
def evaluate (count : Nat) (view : RoomView) (conn : ConnId) : Variable → Int
  | .count => count
  | .room => view.room.toNat
  | .members => view.members.length
  | .first => ((view.members.head?).map fun c => (c.toNat : Int)).getD (-1)
  | .last => ((view.members.getLast?).map fun c => (c.toNat : Int)).getD (-1)
  | .conn => conn.toNat

def field (count : Nat) (view : RoomView) (conn : ConnId) : ScriptField → Option Value
  | .absent => none
  | .value v => some v
  | .variable v => some (.int (evaluate count view conn v))

/-- Runs rules in order; `handled` is the message of the event, if it has one. -/
def run (count : Nat) (view : RoomView) (conn : ConnId) (handled : Option Message) :
    List Rule → Outbound → Verdict Nat
  | [], out => .proceed count out
  | .fault text :: _, _ => .fault text
  | .crash :: _, _ => .crash
  | .echo audience :: rules, out =>
    let sent := (handled.map fun msg => (recipient conn audience, msg)).toList
    run count view conn handled rules (out ++ sent)
  | .send audience tag fields :: rules, out =>
    let msg : Message := ⟨tag, fields.map (field count view conn)⟩
    run count view conn handled rules (out ++ [(recipient conn audience, msg)])

/-- The rules of a script. -/
def logic (s : Script) : Logic Nat where
  init room := if s.brokenRoom = some room then none else some 0
  onJoin count view conn := run count view conn none s.onJoin []
  onLeave count view conn := run count view conn none s.onLeave []
  onMessage count view sender msg :=
    match s.onMessage.lookup msg.tag with
    | some rules => run (count + 1) view sender (some msg) rules []
    | none => .proceed (count + 1) (Logic.relayed view sender msg)

end Script

end Gamewire
