import Gamewire.Schema.Definition
import Gamewire.Schema.Type

/-! What can be wrong with a schema, where, and how a report words it. -/
namespace Gamewire
set_option autoImplicit false

inductive Reason where
  | noMessages
  | tooManyMessages (count max : Nat)
  | duplicateMessage (name : String)
  | duplicateField (name : String)
  | invalidIdentifier (name : String)
  /-- Two message names give the same generated name. -/
  | generatedNameCollision (ident other : String)
  | badType (fault : TypeFault)
  | emptyMessage
  | heartbeatWithFields
  | heartbeatDirection (direction : Direction)
  /-- The largest frame of the message does not fit. -/
  | frameTooLarge (size limit : Nat)
deriving Repr, DecidableEq

def Reason.message : Reason → String
  | noMessages => "schema declares no messages"
  | tooManyMessages count max => s!"schema declares {count} messages, at most {max} are allowed"
  | duplicateMessage name => s!"duplicate message name `{name}`"
  | duplicateField name => s!"duplicate field name `{name}`"
  | invalidIdentifier name => s!"`{name}` is not a valid identifier"
  | generatedNameCollision ident other =>
    s!"generated name `{ident}` collides with message `{other}`"
  | badType fault => fault.message
  | emptyMessage => "message has no fields and is not marked as heartbeat"
  | heartbeatWithFields => "heartbeat message must not declare fields"
  | heartbeatDirection d => s!"heartbeat message must be bidirectional, not {d.name}"
  | frameTooLarge size limit => s!"worst-case frame is {size} bytes, limit is {limit}"

/-- One problem of a schema. The indices point into the schema as written; a problem of the whole
schema has neither. -/
structure Problem where
  message? : Option Nat
  field? : Option Nat
  reason : Reason
deriving Repr, DecidableEq

namespace Problem

def ofSchema (reason : Reason) : Problem := ⟨none, none, reason⟩

def ofMessage (message : Nat) (reason : Reason) : Problem := ⟨some message, none, reason⟩

def ofField (message field : Nat) (reason : Reason) : Problem := ⟨some message, some field, reason⟩

def location (p : Problem) : String :=
  match p.message?, p.field? with
  | some m, some f => s!"message #{m}, field #{f}"
  | some m, none => s!"message #{m}"
  | none, _ => "schema"

def message (p : Problem) : String := s!"{p.location}: {p.reason.message}"

/-- One line for a list of problems. -/
def summary (ps : List Problem) : String := s!"protocol has {ps.length} validation error(s)"

end Problem

end Gamewire
