import Gamewire.Proofs.Room.Queues
import Gamewire.Proofs.Wire.Tags

/-! What waits for members: frames that the room made of messages of the protocol, and nothing else. So
the first byte of each tells it from every control frame. -/
namespace Gamewire
set_option autoImplicit false

/-- A frame that a server may send: its tag is that of no control frame, and it reads as a message
that servers send. -/
structure Protocol.ServerFrame (p : Protocol) (bytes : List UInt8) : Prop where
  tag : ∃ tag rest, bytes = tag :: rest ∧ tag < controlTagMin
  message : ∃ msg m, p.decode bytes = .ok msg ∧ p.ofTag? msg.tag = some m ∧
    m.direction.serverSends = true

theorem Schema.serverFrame_of_frameOf? {s : Schema} {p : Protocol} (h : s.validate = .ok p)
    {msg : Message} {bytes : List UInt8} (hframe : Room.frameOf? p msg = some bytes) :
    p.ServerFrame bytes := by
  unfold Room.frameOf? at hframe
  split at hframe
  · cases hframe
  · rename_i m hm
    split at hframe
    · rename_i hsends
      split at hframe
      · rename_i frame hencode
        cases hframe
        have hdecode := Protocol.decode_ok_iff.mpr (Protocol.encode_ok_iff.mpr ⟨m, hm, hencode⟩)
        obtain ⟨htag, -, body, -, hbytes⟩ := MessageSpec.encode_ok_iff.mp hencode
        exact ⟨⟨m.tag, body, hbytes, htag ▸ tag_lt h hm⟩, msg, m, hdecode, hm, hsends⟩
      · cases hframe
    · cases hframe

namespace Lobby

variable {σ : Type} {g : Game σ} {limits : Limits} {l l' : Lobby σ}

/-- All frames in queues were made of messages. -/
def Composed (p : Protocol) (l : Lobby σ) : Prop :=
  ∀ t q, l.mailbox? t = some q → ∀ bytes ∈ q.frames, ∃ msg, Room.frameOf? p msg = some bytes

theorem composed_start (h : start limits = .ok l) (p : Protocol) : Composed p l := by
  obtain ⟨rfl, -⟩ := start_eq h
  rintro _ _ ⟨⟩

theorem Composed.command (h : Composed g.protocol l) (id : RoomId) (c : Command) :
    Composed g.protocol (Lobby.command g id c l) := by
  cases hr : l.rooms.lookup id with
  | none =>
    rw [command_of_lookup_none g c hr]
    exact h
  | some r =>
    intro t q hq bytes hbytes
    rw [mailbox?_command g c hr] at hq
    obtain ⟨q₀, hq₀, rfl⟩ := Option.map_eq_some_iff.mp hq
    obtain hold | hnew := Mailbox.mem_frames_after hbytes
    · exact h t q₀ hq₀ bytes hold
    · obtain ⟨_, -, he⟩ | ⟨m, -, ⟨msg, frame, hframe, he⟩ | ⟨_, -, he⟩ | ⟨_, -, he⟩ | ⟨-, he⟩⟩ :=
        Room.mem_step hnew
      · cases he
      · cases he
        exact ⟨msg, hframe⟩
      · cases he
      · cases he
      · cases he

/-- Queues may lose frames, but not come by any. -/
theorem Composed.shrink {p : Protocol} (h : Composed p l)
    (hsub : ∀ t q', l'.mailbox? t = some q' → q'.frames = [] ∨
      ∃ q, l.mailbox? t = some q ∧ q'.frames ⊆ q.frames) : Composed p l' := by
  intro t q' hq' bytes hbytes
  obtain hnil | ⟨q, hq, hframes⟩ := hsub t q' hq'
  · rw [hnil] at hbytes
    cases hbytes
  · exact h t q hq bytes (hframes hbytes)

theorem Composed.changeMailbox {p : Protocol} (h : Composed p l) (ticket : Ticket)
    {f : Mailbox → Mailbox}
    (hf : ∀ q, l.mailbox? ticket = some q → (f q).frames ⊆ q.frames) :
    Composed p (l.changeMailbox ticket f) := by
  refine h.shrink fun t q' hq' => .inr ?_
  rw [mailbox?_changeMailbox] at hq'
  split at hq'
  · rename_i ht
    rw [ht] at hq' ⊢
    obtain ⟨q, hq, rfl⟩ := Option.map_eq_some_iff.mp hq'
    exact ⟨q, hq, hf q hq⟩
  · exact ⟨q', hq', List.Subset.refl _⟩

theorem Composed.openMailbox {p : Protocol} (h : Composed p l) (buffer : Nat) :
    Composed p (l.openMailbox buffer).2 := by
  refine h.shrink fun t q' hq' => ?_
  have hlookup : (l.mailbox? t).or (List.lookup t [(l.nextTicket, Mailbox.ofBuffer buffer)]) =
      some q' := by
    rw [mailbox?, ← List.lookup_append]
    exact hq'
  cases hq : l.mailbox? t with
  | some q =>
    rw [hq] at hlookup
    cases hlookup
    exact .inr ⟨q', rfl, List.Subset.refl _⟩
  | none =>
    rw [hq, Option.none_or, List.lookup_cons] at hlookup
    split at hlookup
    · cases hlookup
      exact .inl rfl
    · cases hlookup

theorem Composed.abandonRooms {p : Protocol} (h : Composed p l) : Composed p l.abandonRooms := by
  refine h.shrink fun t q' hq' => .inr ?_
  rw [mailbox?_abandonRooms] at hq'
  obtain ⟨q, hq, rfl⟩ := Option.map_eq_some_iff.mp hq'
  refine ⟨q, hq, ?_⟩
  split
  · exact List.Subset.refl _
  · exact List.Subset.refl _

theorem Composed.upheld (g : Game σ) : Upheld g (Composed g.protocol) where
  same := by
    intro l l' h _ hmailboxes _ _
    refine h.shrink fun t q' hq' => .inr ⟨q', ?_, List.Subset.refl _⟩
    rw [mailbox?, ← hmailboxes]
    exact hq'
  command := fun id _ _ h => h.command id _
  abandonRooms := Composed.abandonRooms

theorem Composed.join (h : Composed g.protocol l) (hb : Bounded limits l) (conn : ConnId)
    (room : Option RoomId) (buffer : Nat) : Composed g.protocol (l.join g conn room buffer).2.2 := by
  have hopened := h.openMailbox buffer
  obtain ⟨e, hj⟩ | ⟨id, l', -, hl', hj⟩ | hj := hb.join_cases g conn room buffer
  · rw [hj]
    exact hopened.changeMailbox _ fun _ _ => List.Subset.refl _
  · have hl'' : Composed g.protocol l' := by
      obtain rfl | hcreate := hl'
      · exact hopened
      · obtain ⟨registry, state, -, -, rfl⟩ := createRoom_eq_some hcreate
        exact hopened
    rw [hj, enter_eq]
    exact Composed.command (l := entering id conn l.nextTicket l') hl'' id _
  · rw [hj]
    exact ((Composed.upheld g).crash hopened).changeMailbox _ fun _ _ => List.Subset.refl _

theorem Composed.receive {p : Protocol} (h : Composed p l) (ticket : Ticket) :
    Composed p (l.receive ticket).2 := by
  unfold Lobby.receive
  split
  · exact h
  · rename_i q hq
    refine h.changeMailbox ticket fun q' hq' => ?_
    cases hq.symm.trans hq'
    unfold Mailbox.receive
    split
    · exact List.Subset.refl _
    · split
      · rename_i frame frames heq
        rw [heq]
        exact List.subset_cons_self frame frames
      · exact List.Subset.refl _

theorem Composed.dropMailbox {p : Protocol} (h : Composed p l) (ticket : Ticket) :
    Composed p (l.dropMailbox ticket) := by
  refine h.shrink fun t q' hq' => .inr ?_
  rw [mailbox?_dropMailbox] at hq'
  split at hq'
  · cases hq'
  · exact ⟨q', hq', List.Subset.refl _⟩

theorem Composed.perform (h : Composed g.protocol l) (hb : Bounded limits l) (op : Operation) :
    Composed g.protocol (l.perform g op) :=
  (Composed.upheld g).perform h op (fun conn room buffer _ => h.join hb conn room buffer) h.receive
    h.dropMailbox

theorem Composed.received {p : Protocol} (h : Composed p l) {ticket : Ticket} {bytes : List UInt8}
    (hreceive : (l.receive ticket).1 = some (.frame bytes)) :
    ∃ msg, Room.frameOf? p msg = some bytes := by
  unfold Lobby.receive at hreceive
  split at hreceive
  · cases hreceive
  · rename_i q hq
    unfold Mailbox.receive at hreceive
    split at hreceive
    · cases hreceive
    · split at hreceive
      · rename_i frame frames heq
        cases hreceive
        refine h ticket q hq bytes ?_
        rw [heq]
        exact List.mem_cons_self
      · cases hreceive

end Lobby

end Gamewire
