import Gamewire.Proofs.Room.Lobby

/-! Everything that can be done to a lobby, as data, so that one can speak of all its runs. Each
operation runs to completion before the next begins. -/
namespace Gamewire
set_option autoImplicit false

inductive Operation where
  | join (conn : ConnId) (room : Option RoomId) (buffer : Nat)
  /-- A request whose connection is gone before the answer. -/
  | joinInVain (conn : ConnId) (room : Option RoomId) (buffer : Nat)
  | release (ticket : Ticket)
  /-- A frame by way of an admission, held or not, in the name of any connection. -/
  | send (a : Admission) (sender : ConnId) (bytes : List UInt8)
  | receive (ticket : Ticket)
  | dropMailbox (ticket : Ticket)
  | shutdownRoom (room : RoomId) (reason : String)
  | shutdown (reason : String)
  | advance (ms : Nat)
  /-- The last who could reach the manager goes. -/
  | dismiss
deriving DecidableEq

/-- A request for a place is not made under a number that holds an admission. -/
def Operation.Fresh (held : List Admission) : Operation → Prop
  | .join conn _ _ => ∀ a ∈ held, a.conn ≠ conn
  | .joinInVain conn _ _ => ∀ a ∈ held, a.conn ≠ conn
  | _ => True

/-- No place is asked for or given back, and no time passes. -/
def Operation.Plain : Operation → Prop
  | .join _ _ _ | .joinInVain _ _ _ | .release _ | .advance _ => False
  | _ => True

namespace Lobby

variable {σ : Type}

def perform (g : Game σ) (l : Lobby σ) : Operation → Lobby σ
  | .join conn room buffer => (l.join g conn room buffer).2.2
  | .joinInVain conn room buffer => l.joinInVain g conn room buffer
  | .release ticket => l.release g ticket
  | .send a sender bytes => (l.send g a sender bytes).2
  | .receive ticket => (l.receive ticket).2
  | .dropMailbox ticket => l.dropMailbox ticket
  | .shutdownRoom room reason => (l.shutdownRoom g room reason).2
  | .shutdown reason => (l.shutdown g reason).2
  | .advance ms => l.advance g ms
  | .dismiss => l.dismiss g

def run (g : Game σ) (l : Lobby σ) (ops : List Operation) : Lobby σ := ops.foldl (perform g) l

theorem run_append (g : Game σ) (l : Lobby σ) (ops ops' : List Operation) :
    l.run g (ops ++ ops') = (l.run g ops).run g ops' := List.foldl_append

/-- Everything that an operation can do. -/
inductive Outcome (g : Game σ) (l : Lobby σ) : Operation → Lobby σ → Prop where
  | join (conn : ConnId) (room : Option RoomId) (buffer : Nat) :
      Outcome g l (.join conn room buffer) (l.join g conn room buffer).2.2
  | joinInVain (conn : ConnId) (room : Option RoomId) (buffer : Nat) :
      Outcome g l (.joinInVain conn room buffer)
        ((l.join g conn room buffer).2.2.release g l.nextTicket)
  | release (ticket : Ticket) : Outcome g l (.release ticket) (l.release g ticket)
  | frame (a : Admission) (sender : ConnId) (bytes : List UInt8) :
      Outcome g l (.send a sender bytes) (command g a.room (.frame sender bytes) l)
  | closeRoom (room : RoomId) (reason : String) : Outcome g l (.shutdownRoom room reason)
      (command g room (.close reason) { l with registry := l.registry.remove room })
  | shutdown (reason : String) (hrunning : l.manager = .running) :
      Outcome g l (.shutdown reason) (closeAll g reason { l with shuttingDown := true })
  | advance (ms : Nat) : Outcome g l (.advance ms) (expireDue g { l with now := l.now + ms })
  | dismiss : Outcome g l .dismiss { closeAll g "server stopped" l with manager := .gone }
  /-- Nothing but queues changes; a shutdown comes to that only without a manager. -/
  | queues {op : Operation} (ms : List (Ticket × Mailbox)) (hplain : op.Plain)
      (hop : l.manager = .running → ∀ reason, op ≠ .shutdown reason) :
      Outcome g l op { l with mailboxes := ms }

theorem perform_outcome (g : Game σ) (l : Lobby σ) (op : Operation) :
    Outcome g l op (l.perform g op) := by
  have hidle : ∀ {op : Operation}, op.Plain → (l.manager = .running →
      ∀ reason, op ≠ .shutdown reason) → Outcome g l op l :=
    fun hplain hop => .queues l.mailboxes hplain hop
  cases op with
  | join conn room buffer => exact .join conn room buffer
  | joinInVain conn room buffer => exact .joinInVain conn room buffer
  | release ticket => exact .release ticket
  | send a sender bytes =>
    simp only [Lobby.perform, send]
    split
    · exact .frame a sender bytes
    · exact hidle trivial (by simp)
  | receive ticket =>
    simp only [Lobby.perform, receive]
    split
    · exact hidle trivial (by simp)
    · exact .queues _ trivial (by simp)
  | dropMailbox ticket => exact .queues _ trivial (by simp)
  | shutdownRoom room reason =>
    simp only [Lobby.perform, shutdownRoom]
    split
    · exact hidle trivial (by simp)
    · split
      · exact .closeRoom room reason
      · exact hidle trivial (by simp)
  | shutdown reason =>
    simp only [Lobby.perform, Lobby.shutdown]
    split
    · rename_i hgone
      exact hidle trivial fun hrunning => absurd hrunning hgone
    · rename_i hrunning
      exact .shutdown reason (Decidable.not_not.mp hrunning)
  | advance ms => exact .advance ms
  | dismiss =>
    simp only [Lobby.perform, Lobby.dismiss]
    split
    · exact .dismiss
    · exact hidle trivial (by simp)

/-- A game without messages, whose rules let everything pass. -/
def quietGame : Game Unit := ⟨⟨[]⟩, Logic.relay⟩

end Lobby

end Gamewire
