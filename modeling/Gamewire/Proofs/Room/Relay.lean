import Gamewire.Proofs.Room.Effects
import Gamewire.Proofs.Schema.WellFormed

/-! Rooms that relay. What a member sends is either passed on byte for byte to those it is for, or to
nobody; no bytes do anything else to a room. It is passed on unchanged although it is read and written
again on the way, because there is only one frame for each message. -/
namespace Gamewire
set_option autoImplicit false

/-- Whom the bytes reach that a member of a room sends: a heartbeat comes back, and what both sides may
send goes to everybody else. -/
inductive Hears (p : Protocol) (sender : ConnId) (bytes : List UInt8) : ConnId → Prop where
  | echo {msg : Message} {m : MessageSpec} (hdecode : p.decode bytes = .ok msg)
      (hm : p.ofTag? msg.tag = some m) (hbeat : m.heartbeat = true) : Hears p sender bytes sender
  | pass {msg : Message} {m : MessageSpec} {conn : ConnId} (hdecode : p.decode bytes = .ok msg)
      (hm : p.ofTag? msg.tag = some m) (hbeat : m.heartbeat = false)
      (hways : m.direction = .bidirectional) (hother : conn ≠ sender) : Hears p sender bytes conn

variable {p : Protocol} {sender : ConnId} {bytes : List UInt8}

theorem hears_iff {msg : Message} {m : MessageSpec} (hdecode : p.decode bytes = .ok msg)
    (hm : p.ofTag? msg.tag = some m) {conn : ConnId} :
    Hears p sender bytes conn ↔ (m.heartbeat = true ∧ conn = sender) ∨
      (m.heartbeat = false ∧ m.direction = .bidirectional ∧ conn ≠ sender) := by
  constructor
  · rintro (⟨hdecode', hm', hbeat⟩ | ⟨hdecode', hm', hbeat, hways, hother⟩)
    · rw [hdecode] at hdecode'
      cases hdecode'
      rw [hm] at hm'
      cases hm'
      exact .inl ⟨hbeat, rfl⟩
    · rw [hdecode] at hdecode'
      cases hdecode'
      rw [hm] at hm'
      cases hm'
      exact .inr ⟨hbeat, hways, hother⟩
  · rintro (⟨hbeat, rfl⟩ | ⟨hbeat, hways, hother⟩)
    · exact .echo hdecode hm hbeat
    · exact .pass hdecode hm hbeat hways hother

/-! ## What the room does -/

namespace Room

/-- The frame of a message that was just read is what it was read from. -/
theorem frameOf?_of_decode {msg : Message} {m : MessageSpec} (hdecode : p.decode bytes = .ok msg)
    (hm : p.ofTag? msg.tag = some m) (hsends : m.direction.serverSends = true) :
    frameOf? p msg = some bytes := by
  obtain ⟨m', hm', hencode⟩ := Protocol.encode_ok_iff.mp (Protocol.decode_ok_iff.mp hdecode)
  rw [hm] at hm'
  cases hm'
  simp only [frameOf?, hm, hsends, if_true, hencode]

theorem dispatch_singleton {msg : Message} {members : List (ConnId × Ticket)} {recipient : Recipient}
    (hframe : frameOf? p msg = some bytes) :
    dispatch p members [(recipient, msg)] =
      (members.filter fun m => recipient.includes m.1).map fun m => .deliver m.2 bytes := by
  simp only [dispatch, hframe, deliveries, List.append_nil]

/-- A relaying room stays as it is, and delivers the very bytes. -/
theorem step_relay (hbeats : ∀ tag m, p.ofTag? tag = some m → m.heartbeat = true →
    m.direction = .bidirectional) (r : Room Unit) (hmember : sender ∈ r.connections)
    (bytes : List UInt8) : ∃ heard : List (ConnId × Ticket), heard.Sublist r.members ∧
      (∀ m ∈ r.members, m ∈ heard ↔ Hears p sender bytes m.1) ∧
      r.step ⟨p, Logic.relay⟩ (.frame sender bytes) =
        (some r, heard.map fun m => .deliver m.2 bytes) := by
  have hlookup : (r.members.lookup sender).isNone = false := by
    cases hnone : r.members.lookup sender with
    | none => exact absurd hmember (lookup_eq_none_iff.mp hnone)
    | some ticket => rfl
  simp only [step, hlookup, Bool.false_eq_true, if_false, clientMessage?]
  cases hdecode : p.decode bytes with
  | error e =>
    refine ⟨[], List.nil_sublist _, fun m _ => iff_of_false List.not_mem_nil ?_, rfl⟩
    rintro (⟨hdecode', -⟩ | ⟨hdecode', -⟩)
    · rw [hdecode] at hdecode'
      cases hdecode'
    · rw [hdecode] at hdecode'
      cases hdecode'
  | ok msg =>
    obtain ⟨m, hm, -⟩ := Protocol.encode_ok_iff.mp (Protocol.decode_ok_iff.mp hdecode)
    simp only [hm]
    by_cases hways : m.direction = .bidirectional
    · have hframe := frameOf?_of_decode hdecode hm (by rw [hways]; rfl)
      simp only [hways, Direction.clientSends, if_true, Logic.relay, Logic.relayed, view, hm,
        Direction.serverSends, settle]
      cases hbeat : m.heartbeat with
      | true =>
        refine ⟨r.members.filter fun x => (Recipient.only sender).includes x.1,
          List.filter_sublist, ?_, ?_⟩
        · intro x hx
          rw [hears_iff hdecode hm, List.mem_filter, and_iff_right hx]
          simp only [Recipient.includes, beq_iff_eq, hbeat, true_and, Bool.true_eq_false, false_and,
            or_false]
          exact eq_comm
        · rw [if_pos rfl, dispatch_singleton hframe]
      | false =>
        refine ⟨r.members.filter fun x => (Recipient.allExcept sender).includes x.1,
          List.filter_sublist, ?_, ?_⟩
        · intro x hx
          rw [hears_iff hdecode hm, List.mem_filter, and_iff_right hx]
          simp only [Recipient.includes, bne_iff_ne, hbeat, hways, Bool.false_eq_true, false_and,
            false_or, true_and]
          exact ne_comm
        · rw [if_neg Bool.false_ne_true, dispatch_singleton hframe]
    · -- no heartbeat goes only one way, so nobody hears of it
      have hbeat : m.heartbeat = false := Bool.eq_false_iff.mpr fun h => hways (hbeats _ m hm h)
      refine ⟨[], List.nil_sublist _, fun x _ => iff_of_false List.not_mem_nil ?_, ?_⟩
      · rw [hears_iff hdecode hm]
        simp [hbeat, hways]
      · cases hdirection : m.direction with
        | serverToClient => rfl
        | bidirectional => exact absurd hdirection hways
        | clientToServer =>
          simp only [Direction.clientSends, if_true, Logic.relay, Logic.relayed, view, hm, hbeat,
            hdirection, Direction.serverSends, Bool.false_eq_true, if_false, settle, dispatch,
            List.map_nil]

end Room

namespace Lobby

variable {σ : Type} {g : Game σ} {limits : Limits} {l l' : Lobby σ} {id : RoomId}

/-! ## What the queues get -/

theorem mailbox?_deliver {heard : List (ConnId × Ticket)} (hn : (heard.map (·.2)).Nodup)
    (frame : List UInt8) (l : Lobby σ) (t : Ticket) :
    (l.applyEffects (heard.map fun m => .deliver m.2 frame)).mailbox? t =
      if t ∈ heard.map (·.2) then (l.mailbox? t).map (Mailbox.deliver frame) else l.mailbox? t := by
  induction heard generalizing l with
  | nil => rfl
  | cons m heard ih =>
    obtain ⟨hm, hn⟩ := List.nodup_cons.mp hn
    have hfirst : l.applyEffects ((m :: heard).map fun m => .deliver m.2 frame) =
        (l.changeMailbox m.2 (Mailbox.deliver frame)).applyEffects
          (heard.map fun m => .deliver m.2 frame) := rfl
    rw [hfirst, ih hn, mailbox?_changeMailbox]
    by_cases ht : t = m.2
    · subst ht
      rw [if_neg hm, if_pos rfl, if_pos (by simp)]
    · rw [if_neg ht, List.map_cons]
      simp only [List.mem_cons, ht, false_or]

/-! ## Rooms that relay -/

/-- What bytes do that a member sends: they are put into the queues of those who are to hear of them,
where there is a place, and nothing else changes. -/
structure Relays (p : Protocol) (id : RoomId) (r : Room σ) (sender : ConnId) (bytes : List UInt8)
    (l l' : Lobby σ) : Prop where
  same : ∃ ms, l' = { l with mailboxes := ms }
  heard : ∀ m ∈ r.members, Hears p sender bytes m.1 → l'.mailbox? m.2 = (l.mailbox? m.2).map
    fun q => if q.frames.length < q.bound then { q with frames := q.frames ++ [bytes] } else q
  unheard : ∀ m ∈ r.members, ¬ Hears p sender bytes m.1 → l'.mailbox? m.2 = l.mailbox? m.2
  elsewhere : ∀ x ∈ l.rooms, x.1 ≠ id → ∀ m ∈ x.2.members, l'.mailbox? m.2 = l.mailbox? m.2
  others : ∀ ticket, ticket ∉ r.members.map (·.2) → l'.mailbox? ticket = l.mailbox? ticket

theorem Ticketed.relays {l : Lobby Unit} (h : Ticketed l)
    (hbeats : ∀ tag m, p.ofTag? tag = some m → m.heartbeat = true → m.direction = .bidirectional)
    {r : Room Unit} (hr : l.rooms.lookup id = some r) (hmember : sender ∈ r.connections)
    (bytes : List UInt8) : Relays p id r sender bytes l
      (command ⟨p, Logic.relay⟩ id (.frame sender bytes) l) := by
  obtain ⟨heard, hsub, hheard, hstep⟩ := Room.step_relay hbeats r hmember bytes
  have hlive := mem_of_lookup hr
  have hcommand : command ⟨p, Logic.relay⟩ id (.frame sender bytes) l =
      l.applyEffects (heard.map fun m => .deliver m.2 bytes) := by
    unfold command
    rw [hr]
    simp only [hstep, setRoom, noteExit, set_of_lookup h.rooms hr]
  have hmailbox := mailbox?_deliver ((h.nodup hlive).sublist (hsub.map _)) bytes l
  have hothers : ∀ ticket, ticket ∉ r.members.map (·.2) →
      (l.applyEffects (heard.map fun m => .deliver m.2 bytes)).mailbox? ticket =
        l.mailbox? ticket := by
    intro ticket hticket
    rw [hmailbox, if_neg fun hmem => hticket ((hsub.map _).subset hmem)]
  rw [hcommand]
  refine ⟨applyEffects_eq l _, ?_, ?_, ?_, hothers⟩
  · intro m hm hhears
    rw [hmailbox, if_pos (List.mem_map_of_mem ((hheard m hm).mpr hhears))]
    rfl
  · intro m hm hnot
    -- no one else in the room has this ticket
    have hticket : m.2 ∉ heard.map (·.2) := by
      intro hmem
      obtain ⟨n, hn, heq⟩ := List.mem_map.mp hmem
      have hsame := List.inj_on_of_nodup_map (h.nodup hlive) (hsub.subset hn) hm heq
      exact hnot ((hheard m hm).mp (hsame ▸ hn))
    rw [hmailbox, if_neg hticket]
  · intro x hx hne m hm
    apply hothers
    intro hmem
    obtain ⟨n, hn, heq⟩ := List.mem_map.mp hmem
    exact hne (h.told x hx (id, r) hlive m hm n hn heq.symm).1

/-- Whatever happened before, and whatever bytes a member sends, a room that relays hands the very
bytes to those they are for. Nothing else comes of them, for that room or any other. -/
theorem run_relays {s : Schema} (hvalid : s.validate = .ok p) {l : Lobby Unit}
    (h : start limits = .ok l) (ops : List Operation) {r : Room Unit}
    (hr : (l.run ⟨p, Logic.relay⟩ ops).rooms.lookup id = some r) (hmember : sender ∈ r.connections)
    {a : Admission} (ha : a.room = id) (bytes : List UInt8) :
    ((l.run ⟨p, Logic.relay⟩ ops).send ⟨p, Logic.relay⟩ a sender bytes).1 = .ok () ∧
      Relays p id r sender bytes (l.run ⟨p, Logic.relay⟩ ops)
        ((l.run ⟨p, Logic.relay⟩ ops).send ⟨p, Logic.relay⟩ a sender bytes).2 := by
  subst ha
  have hticketed := run_ticketed h ⟨p, Logic.relay⟩ ops
  have hrelays := hticketed.relays (fun _ _ => Schema.bidirectional_of_heartbeat hvalid) hr
    hmember bytes
  unfold send
  rw [hr]
  exact ⟨rfl, hrelays⟩

/-! Two connections talk. -/

def chatSchema : Schema where
  messages := [
    { name := "ping", direction := .bidirectional, heartbeat := true },
    { name := "say", direction := .bidirectional, fields := [{ name := "word", typeName := "uint8" }] }]

def chatProtocol : Protocol where
  messages := [
    ⟨0, "ping", "Ping", .bidirectional, true, []⟩,
    ⟨1, "say", "Say", .bidirectional, false, [⟨"word", .scalar .uint8, false⟩]⟩]

theorem chatSchema_validate : chatSchema.validate = .ok chatProtocol := by cbv

def chatLimits : Limits := { maxRooms := 1, maxMembers := 2 }

def chatLobby : Lobby Unit :=
  (ofLimits chatLimits).run ⟨chatProtocol, Logic.relay⟩ [.join 7 none 1, .join 8 none 1]

theorem run_relays_chatLobby :
    chatSchema.validate = .ok chatProtocol ∧
      start chatLimits = .ok (ofLimits (σ := Unit) chatLimits) ∧
      (chatLobby.send ⟨chatProtocol, Logic.relay⟩ ⟨0, 1, 7⟩ 7 [1, 5]).2.mailbox? 1 =
        some { bound := 1, frames := [[1, 5]] } ∧
      (chatLobby.send ⟨chatProtocol, Logic.relay⟩ ⟨0, 1, 7⟩ 7 [1, 5]).2.mailbox? 0 =
        some { bound := 1 } := by
  have hstart : start chatLimits = .ok (ofLimits (σ := Unit) chatLimits) := rfl
  have hroom : chatLobby.rooms.lookup 1 = some ⟨1, (), [(7, 0), (8, 1)]⟩ := by cbv
  have hdecode : chatProtocol.decode [1, 5] = .ok ⟨1, [some (.int 5)]⟩ := by cbv
  have hqueues : chatLobby.mailbox? 0 = some { bound := 1 } ∧
      chatLobby.mailbox? 1 = some { bound := 1 } := by
    constructor <;> cbv
  have hrelays : Relays chatProtocol 1 ⟨1, (), [(7, 0), (8, 1)]⟩ 7 [1, 5] chatLobby
      (chatLobby.send ⟨chatProtocol, Logic.relay⟩ ⟨0, 1, 7⟩ 7 [1, 5]).2 :=
    (run_relays chatSchema_validate hstart _ hroom List.mem_cons_self rfl [1, 5]).2
  have hheard : (chatLobby.send ⟨chatProtocol, Logic.relay⟩ ⟨0, 1, 7⟩ 7 [1, 5]).2.mailbox? 1 =
      (chatLobby.mailbox? 1).map _ :=
    hrelays.heard (8, 1) (by simp) (.pass hdecode rfl rfl rfl (by decide))
  have hsilent : ¬ Hears chatProtocol 7 [1, 5] 7 := by
    rw [hears_iff hdecode rfl]
    simp
  refine ⟨chatSchema_validate, hstart, ?_, ?_⟩
  · rw [hheard, hqueues.2]
    rfl
  · rw [← hqueues.1]
    exact hrelays.unheard (7, 0) List.mem_cons_self hsilent

end Lobby

end Gamewire
