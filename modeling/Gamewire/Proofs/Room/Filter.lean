import Gamewire.Proofs.Room.Faults
import Gamewire.Proofs.Room.Frames
import Gamewire.Proofs.Room.Relay
import Gamewire.Proofs.Wire.Size

/-! A room as a filter, whatever its rules do. The rules for messages hear of nothing but messages that
members send and clients may send; what waits for a member is made of messages that the rules address to
it and servers may send. -/
namespace Gamewire
set_option autoImplicit false

/-! ## Frames of messages -/

/-- A frame of a message that servers may send. It fits into the memory it is meant for, and its tag is
that of no control frame. -/
structure Protocol.Carries (p : Protocol) (frame : List UInt8) (msg : Message) : Prop where
  fits : frame.length ≤ 128
  tag : ∃ tag rest, frame = tag :: rest ∧ tag < 0xf0
  reads : p.decode frame = .ok msg
  sends : ∃ m, p.ofTag? msg.tag = some m ∧ m.direction.serverSends = true

theorem Room.frameOf?_eq_some_iff {p : Protocol} {msg : Message} {frame : List UInt8} :
    Room.frameOf? p msg = some frame ↔ ∃ m, p.ofTag? msg.tag = some m ∧
      m.direction.serverSends = true ∧ m.encode msg = .ok frame := by
  unfold Room.frameOf?
  constructor
  · intro h
    split at h
    · cases h
    · rename_i m hm
      split at h
      · rename_i hsends
        split at h
        · rename_i bytes hencode
          cases h
          exact ⟨m, hm, hsends, hencode⟩
        · cases h
      · cases h
  · rintro ⟨m, hm, hsends, hencode⟩
    simp only [hm, hsends, hencode, if_true]

theorem Schema.carries_of_frameOf? {s : Schema} {p : Protocol} (h : s.validate = .ok p)
    {msg : Message} {frame : List UInt8} (hframe : Room.frameOf? p msg = some frame) :
    p.Carries frame msg := by
  obtain ⟨m, hm, hsends, hencode⟩ := Room.frameOf?_eq_some_iff.mp hframe
  have hreads := Protocol.decode_ok_iff.mpr (Protocol.encode_ok_iff.mpr ⟨m, hm, hencode⟩)
  have hlength := MessageSpec.encode_length_le hencode
  obtain ⟨htag, -, body, -, hbytes⟩ := MessageSpec.encode_ok_iff.mp hencode
  refine ⟨hlength.trans (maxFrameSize_le h hm), ⟨m.tag, body, hbytes, ?_⟩, hreads, m, hm, hsends⟩
  exact htag ▸ tag_lt h hm

/-! ## Frames in queues -/

theorem Mailbox.frames_after (t : Ticket) (es : List Effect) (q : Mailbox) :
    ∃ placed, (Mailbox.after t es q).frames = q.frames ++ placed ∧
      ∀ frame ∈ placed, .deliver t frame ∈ es := by
  induction es generalizing q with
  | nil => exact ⟨[], (List.append_nil _).symm, List.forall_mem_nil _⟩
  | cons e es ih =>
    obtain ⟨first, hfirst, hmem⟩ : ∃ first, (if e.ticket = t then e.act q else q).frames =
        q.frames ++ first ∧ ∀ frame ∈ first, e = .deliver t frame := by
      split
      · rename_i he
        cases e with
        | deliver t' frame =>
          cases he
          simp only [Effect.act, Mailbox.deliver]
          split
          · exact ⟨[frame], rfl, fun f hf => by rw [List.mem_singleton.mp hf]; rfl⟩
          · exact ⟨[], (List.append_nil _).symm, List.forall_mem_nil _⟩
        | close t' reason => exact ⟨[], (List.append_nil _).symm, List.forall_mem_nil _⟩
        | disconnect t' => exact ⟨[], (List.append_nil _).symm, List.forall_mem_nil _⟩
      · exact ⟨[], (List.append_nil _).symm, List.forall_mem_nil _⟩
    obtain ⟨rest, hrest, hmem'⟩ := ih (if e.ticket = t then e.act q else q)
    refine ⟨first ++ rest, ?_, fun frame hframe => ?_⟩
    · rw [Mailbox.after_cons, hrest, hfirst, List.append_assoc]
    · obtain h | h := List.mem_append.mp hframe
      · rw [hmem frame h]
        exact List.mem_cons_self
      · exact List.mem_cons_of_mem e (hmem' frame h)

/-! ## Rules for messages -/

variable {σ : Type}

/-- A game with other rules for messages. -/
def Game.hearing (g : Game σ) (onMessage : σ → RoomView → ConnId → Message → Verdict σ) : Game σ :=
  { g with logic := { g.logic with onMessage := onMessage } }

variable {g : Game σ} {rules : σ → RoomView → ConnId → Message → Verdict σ}

/-- All that becomes of a frame is up to what the rules say to the message in it. -/
theorem Room.step_hearing_frame {r : Room σ} {sender : ConnId} {bytes : List UInt8}
    (h : ∀ msg, sender ∈ r.connections → Room.clientMessage? g.protocol bytes = some msg →
      rules r.state (r.view g) sender msg = g.logic.onMessage r.state (r.view g) sender msg) :
    r.step (g.hearing rules) (.frame sender bytes) = r.step g (.frame sender bytes) := by
  by_cases hmember : sender ∈ r.connections
  · obtain ⟨ticket, hticket⟩ := Room.lookup_isSome_of_mem hmember
    have hprotocol : (g.hearing rules).protocol = g.protocol := rfl
    simp only [Room.step, hticket, Option.isNone_some, Bool.false_eq_true, if_false, hprotocol]
    cases hmsg : Room.clientMessage? g.protocol bytes with
    | none => rfl
    | some msg =>
      have hsame := h msg hmember hmsg
      simp only
      rw [← hsame]
      rfl
  · have hunasked : ∀ game : Game σ, r.verdict? game (.frame sender bytes) = none :=
      fun _ => if_neg hmember
    rw [Room.step_of_unasked (fun _ => Command.noConfusion) (hunasked _),
      Room.step_of_unasked (fun _ => Command.noConfusion) (hunasked _)]

namespace Lobby

variable {limits : Limits} {l l' : Lobby σ} {op : Operation} {id : RoomId} {r : Room σ}
  {c : Command}

theorem seat_hearing (conn : ConnId) (requested : Option RoomId) (ticket : Ticket) (l : Lobby σ) :
    l.seat (g.hearing rules) conn requested ticket = l.seat g conn requested ticket := by
  induction l using seatBy.induct g requested with
  | case1 l e hchoose => rw [seat_of_error hchoose, seat_of_error hchoose]
  | case2 l hchoose | case3 l hchoose =>
    rw [seat_of_new hchoose, seat_of_new hchoose]
    rfl
  | case4 l id hchoose r hr =>
    rw [seat_of_existing hchoose, seat_of_existing hchoose, hr]
    rfl
  | case5 l id hchoose hr ih =>
    rw [seat_of_existing hchoose, seat_of_existing hchoose, hr]
    exact ih

/-- An operation puts a message to the rules of a room: a member sends a frame that reads as the
message, and clients may send it. -/
inductive Puts (g : Game σ) (l : Lobby σ) : Operation → σ → RoomView → ConnId → Message → Prop
  | frame {a : Admission} {r : Room σ} {sender : ConnId} {bytes : List UInt8} {msg : Message}
      {m : MessageSpec} (hr : l.rooms.lookup a.room = some r) (hmember : sender ∈ r.connections)
      (hreads : g.protocol.decode bytes = .ok msg) (hm : g.protocol.ofTag? msg.tag = some m)
      (hsends : m.direction.clientSends = true) :
      Puts g l (.send a sender bytes) r.state (r.view g) sender msg

theorem clientMessage?_eq_some {p : Protocol} {bytes : List UInt8} {msg : Message}
    (h : Room.clientMessage? p bytes = some msg) : p.decode bytes = .ok msg ∧
      ∃ m, p.ofTag? msg.tag = some m ∧ m.direction.clientSends = true := by
  unfold Room.clientMessage? at h
  split at h
  · cases h
  · rename_i msg' hreads
    split at h
    · rename_i m hm
      split at h
      · rename_i hsends
        cases h
        exact ⟨hreads, m, hm, hsends⟩
      · cases h
    · cases h

theorem perform_hearing (h : ∀ state view sender msg, Puts g l op state view sender msg →
    rules state view sender msg = g.logic.onMessage state view sender msg) :
    l.perform (g.hearing rules) op = l.perform g op := by
  have hjoin : ∀ conn room buffer,
      l.join (g.hearing rules) conn room buffer = l.join g conn room buffer := by
    intro conn room buffer
    simp only [Lobby.join, place_eq, seat_hearing]
  cases op with
  | join conn room buffer => rw [Lobby.perform, Lobby.perform, hjoin]
  | joinInVain conn room buffer =>
    rw [Lobby.perform, Lobby.perform, joinInVain, joinInVain, hjoin]
    rfl
  | send a sender bytes =>
    rw [Lobby.perform, Lobby.perform, Lobby.send, Lobby.send]
    cases hr : l.rooms.lookup a.room with
    | none => rfl
    | some r =>
      have hstep : r.step (g.hearing rules) (.frame sender bytes) =
          r.step g (.frame sender bytes) := by
        refine Room.step_hearing_frame fun msg hmember hmsg => ?_
        obtain ⟨hreads, m, hm, hsends⟩ := clientMessage?_eq_some hmsg
        exact h _ _ _ _ (.frame hr hmember hreads hm hsends)
      simp only
      rw [command_eq _ _ hr, command_eq _ _ hr, hstep]
  | release ticket => rfl
  | receive ticket => rfl
  | dropMailbox ticket => rfl
  | shutdownRoom room reason => rfl
  | shutdown reason => rfl
  | advance ms => rfl
  | dismiss => rfl

/-- What is heard in a run decides about the run. -/
theorem run_hearing {ops : List Operation}
    (h : ∀ before op after, ops = before ++ op :: after → ∀ state view sender msg,
      Puts g (l.run g before) op state view sender msg →
        rules state view sender msg = g.logic.onMessage state view sender msg) :
    l.run (g.hearing rules) ops = l.run g ops := by
  induction ops generalizing l with
  | nil => rfl
  | cons op ops ih =>
    have hfirst : l.perform (g.hearing rules) op = l.perform g op := perform_hearing (h [] op ops rfl)
    have hrest := ih (l := l.perform g op) fun before op' after hops =>
      h (op :: before) op' after (congrArg (op :: ·) hops)
    rw [run, List.foldl_cons, hfirst]
    exact hrest

/-! ## Messages from the rules -/

/-- An operation makes the rules send a message to the member with a ticket: they are asked about a
command, and the member is among those that the message is for. -/
inductive Sends (g : Game σ) : Lobby σ → Operation → Ticket → Message → Prop
  | asked {l : Lobby σ} {op : Operation} {id : RoomId} {r : Room σ} {c : Command} {state : σ}
      {out : Outbound} {recipient : Recipient} {msg : Message} {m : ConnId × Ticket}
      (hask : Asks g l op id r c) (hv : r.verdict? g c = some (.proceed state out))
      (hout : (recipient, msg) ∈ out) (hm : m ∈ (r.gathered c).members)
      (hmember : recipient.includes m.1 = true) : Sends g l op m.2 msg
  /-- A request whose connection is gone is a request and a release. -/
  | request {l : Lobby σ} {conn : ConnId} {room : Option RoomId} {buffer : Nat} {t : Ticket}
      {msg : Message} (h : Sends g l (.join conn room buffer) t msg) :
      Sends g l (.joinInVain conn room buffer) t msg
  | giveUp {l : Lobby σ} {conn : ConnId} {room : Option RoomId} {buffer : Nat} {t : Ticket}
      {msg : Message} (h : Sends g (l.perform g (.join conn room buffer)) (.release l.nextTicket) t msg) :
      Sends g l (.joinInVain conn room buffer) t msg

/-- Frames come of what the rules say now. -/
theorem Asks.sends (hask : Asks g l op id r c) {t : Ticket} {frame : List UInt8}
    (h : .deliver t frame ∈ (r.step g c).2) :
    ∃ msg, Sends g l op t msg ∧ Room.frameOf? g.protocol msg = some frame := by
  cases hv : r.verdict? g c with
  | none =>
    cases c with
    | close reason => cases hask
    | join | leave | frame =>
      rw [Room.step_of_unasked (fun _ => Command.noConfusion) hv] at h
      cases h
  | some v =>
    rw [Room.step_of_verdict hv] at h
    obtain h | h := List.mem_append.mp h
    · obtain ⟨t', -, heq⟩ := List.mem_map.mp h
      cases heq
    · cases v with
      | proceed state out =>
        obtain ⟨m, hm, recipient, msg, _, hout, hmember, hframe, heq⟩ := Room.mem_dispatch h
        cases heq
        exact ⟨msg, .asked hask hv hout hm hmember, hframe⟩
      | fault text =>
        obtain ⟨m, -, heq⟩ := List.mem_map.mp h
        cases heq
      | crash =>
        obtain ⟨m, -, heq⟩ := List.mem_map.mp h
        cases heq

/-! ## Frames that wait -/

/-- The frames that wait for whoever has a ticket. -/
def waiting (t : Ticket) (l : Lobby σ) : List (List UInt8) :=
  match l.mailbox? t with
  | some q => q.frames
  | none => []

variable {t : Ticket}

theorem waiting_of_mailbox? {f : Mailbox → Mailbox} (h : l'.mailbox? t = (l.mailbox? t).map f)
    (hf : ∀ q, (f q).frames = q.frames) : l'.waiting t = l.waiting t := by
  unfold waiting
  rw [h]
  cases l.mailbox? t with
  | none => rfl
  | some q => exact hf q

theorem waiting_close (g : Game σ) (id : RoomId) (reason : String) (l : Lobby σ) (t : Ticket) :
    (command g id (.close reason) l).waiting t = l.waiting t := by
  cases hr : l.rooms.lookup id with
  | none => rw [command_of_lookup_none g _ hr]
  | some r =>
    refine waiting_of_mailbox? (mailbox?_command g (.close reason) hr t) fun q => ?_
    rw [Room.step, Room.closeAll, Mailbox.after_close]
    split <;> rfl

theorem waiting_expireDue (g : Game σ) (l : Lobby σ) (t : Ticket) :
    (expireDue g l).waiting t = l.waiting t := by
  have hexpire : ∀ (l : Lobby σ) (timer : Timer), (expire g l timer).waiting t = l.waiting t := by
    intro l timer
    unfold expire
    split
    · exact waiting_close g _ _ _ t
    · rfl
  unfold expireDue
  refine List.foldlRecOn _ _ (motive := fun l' : Lobby σ => l'.waiting t = l.waiting t) rfl fun l' h timer _ => ?_
  exact (hexpire l' timer).trans h

theorem waiting_closeAll (g : Game σ) (reason : String) (l : Lobby σ) (t : Ticket) :
    (closeAll g reason l).waiting t = l.waiting t := by
  unfold closeAll
  refine List.foldlRecOn _ _ (motive := fun l' : Lobby σ => l'.waiting t = l.waiting t) rfl fun l' h id _ => ?_
  exact (waiting_close g id reason l' t).trans h

theorem waiting_abandonRooms (l : Lobby σ) (t : Ticket) : l.abandonRooms.waiting t = l.waiting t := by
  refine waiting_of_mailbox? (mailbox?_abandonRooms l t) fun q => ?_
  split <;> rfl

theorem waiting_openMailbox (buffer : Nat) (l : Lobby σ) (t : Ticket) :
    (l.openMailbox buffer).2.waiting t = l.waiting t := by
  have hlookup : (l.openMailbox buffer).2.mailbox? t =
      (l.mailbox? t).or (List.lookup t [(l.nextTicket, Mailbox.ofBuffer buffer)]) := by
    rw [mailbox?, mailbox?, ← List.lookup_append]
    rfl
  unfold waiting
  rw [hlookup]
  cases l.mailbox? t with
  | some q => rfl
  | none =>
    rw [Option.none_or, List.lookup_cons]
    split <;> rename_i heq <;> split at heq <;> cases heq <;> rfl

theorem waiting_refuse (ticket : Ticket) (e : AdmissionFault) (l : Lobby σ) (t : Ticket) :
    (l.refuse ticket e).2.waiting t = l.waiting t := by
  have hchange : (l.refuse ticket e).2.mailbox? t =
      (l.mailbox? t).map fun q => if t = ticket then q.disconnect else q := by
    unfold Lobby.refuse
    rw [mailbox?_changeMailbox]
    split
    · rfl
    · exact Option.map_id'.symm
  refine waiting_of_mailbox? hchange fun q => ?_
  split <;> rfl

/-- An operation puts behind the frames that wait what the rules send. -/
def Fills (g : Game σ) (l : Lobby σ) (op : Operation) : Prop :=
  ∀ t, ∃ placed, (l.perform g op).waiting t = l.waiting t ++ placed ∧
    ∀ frame ∈ placed, ∃ msg, Sends g l op t msg ∧ Room.frameOf? g.protocol msg = some frame

theorem fills_of_eq (h : ∀ t, (l.perform g op).waiting t = l.waiting t) : Fills g l op :=
  fun t => ⟨[], by rw [h, List.append_nil], List.forall_mem_nil _⟩

theorem waiting_opened (l : Lobby σ) (op : Operation) (t : Ticket) :
    (l.opened op).waiting t = l.waiting t := by
  cases op with
  | join _ _ buffer => exact waiting_openMailbox buffer l t
  | joinInVain _ _ buffer => exact waiting_openMailbox buffer l t
  | _ => rfl

theorem Asks.fills {m : Lobby σ} (hask : Asks g l op id r c)
    (hhandles : Handles g limits l op id r c m) : Fills g l op := by
  intro t
  have hmailbox : (command g id c m).mailbox? t =
      ((l.opened op).mailbox? t).map (Mailbox.after t (r.step g c).2) := by
    rw [mailbox?_command g c hhandles.room, mailbox?, mailbox?, hhandles.mailboxes]
  have hdone : (l.perform g op).waiting t = (command g id c m).waiting t := by
    obtain hdone | ⟨timer, -, -, hdone⟩ := hhandles.done
    · rw [hdone]
    · rw [hdone, waiting_expireDue]
      rfl
  rw [hdone, ← waiting_opened l op t]
  unfold waiting
  rw [hmailbox]
  cases (l.opened op).mailbox? t with
  | none => exact ⟨[], rfl, List.forall_mem_nil _⟩
  | some q =>
    obtain ⟨placed, hframes, hmem⟩ := Mailbox.frames_after t (r.step g c).2 q
    exact ⟨placed, hframes, fun frame hframe => hask.sends (hmem frame hframe)⟩

theorem Bounded.fills_send (hb : Bounded limits l) (h : Wired l) (hw : Waits l) (g : Game σ)
    (a : Admission) (sender : ConnId) (bytes : List UInt8) : Fills g l (.send a sender bytes) := by
  cases hr : l.rooms.lookup a.room with
  | none =>
    refine fills_of_eq fun t => ?_
    simp only [Lobby.perform, Lobby.send, hr]
  | some r => exact (Asks.frame hr sender bytes).fills (Asks.handles_frame hb h hw hr sender bytes)

theorem Bounded.fills_release (hb : Bounded limits l) (h : Wired l) (hw : Waits l) (g : Game σ)
    (ticket : Ticket) : Fills g l (.release ticket) := by
  by_cases hask : ∃ id r c v, Asks g l (.release ticket) id r c ∧ r.verdict? g c = some v
  · obtain ⟨id, r, c, v, hask, hv⟩ := hask
    obtain ⟨m, hhandles⟩ := hask.handles hb h hw hv
    exact hask.fills hhandles
  · refine fills_of_eq fun t => ?_
    rw [Lobby.perform]
    obtain hr | hr := hb.release_of_unasked g ticket hask
    · rw [hr]
      rfl
    · rw [hr, waiting_abandonRooms]
      rfl

theorem Bounded.fills_join (hb : Bounded limits l) (h : Wired l) (hw : Waits l) (g : Game σ)
    (conn : ConnId) (room : Option RoomId) (buffer : Nat) : Fills g l (.join conn room buffer) := by
  obtain ⟨e, hj⟩ | ⟨id, l', hready, hl', hj⟩ | hj := hb.join_cases g conn room buffer
  · refine fills_of_eq fun t => ?_
    rw [Lobby.perform, hj, waiting_refuse, waiting_openMailbox]
  · have hgranted : (l.join g conn room buffer).2.1 = .ok id := by rw [hj]
    obtain ⟨r, hask⟩ := hready.asks_join hl' hgranted
    obtain ⟨m, hhandles⟩ := hask.handles hb h hw rfl
    exact hask.fills hhandles
  · refine fills_of_eq fun t => ?_
    rw [Lobby.perform, hj, waiting_refuse, crash, waiting_abandonRooms]
    exact waiting_openMailbox buffer l t

/-- Everything but a reader fills queues. -/
theorem Bounded.fills (hb : Bounded limits l) (h : Wired l) (hw : Waits l) (g : Game σ)
    (op : Operation) (hop : ∀ ticket, op ≠ .receive ticket ∧ op ≠ .dropMailbox ticket) :
    Fills g l op := by
  cases op with
  | join conn room buffer => exact hb.fills_join h hw g conn room buffer
  | joinInVain conn room buffer =>
    intro t
    obtain ⟨first, hfirst, hsent⟩ := hb.fills_join h hw g conn room buffer t
    have hwaits : Waits (l.join g conn room buffer).2.2 :=
      (hb.join_change g conn room buffer).1.waits hw
    obtain ⟨rest, hrest, hsent'⟩ := (Bounded.join hb g conn room buffer).fills_release
      (hb.join_wired h g conn room buffer) hwaits g l.nextTicket t
    refine ⟨first ++ rest, ?_, fun frame hframe => ?_⟩
    · rw [← List.append_assoc, ← hfirst]
      exact hrest
    · obtain hmem | hmem := List.mem_append.mp hframe
      · obtain ⟨msg, hsends, hmsg⟩ := hsent frame hmem
        exact ⟨msg, .request hsends, hmsg⟩
      · obtain ⟨msg, hsends, hmsg⟩ := hsent' frame hmem
        exact ⟨msg, .giveUp hsends, hmsg⟩
  | release ticket => exact hb.fills_release h hw g ticket
  | send a sender bytes => exact hb.fills_send h hw g a sender bytes
  | receive ticket => exact absurd rfl (hop ticket).1
  | dropMailbox ticket => exact absurd rfl (hop ticket).2
  | shutdownRoom room reason =>
    refine fills_of_eq fun t => ?_
    simp only [Lobby.perform, Lobby.shutdownRoom]
    split
    · rfl
    · split
      · exact waiting_close g room reason _ t
      · rfl
  | shutdown reason =>
    refine fills_of_eq fun t => ?_
    simp only [Lobby.perform, Lobby.shutdown]
    split
    · rfl
    · exact waiting_closeAll g reason _ t
  | advance ms => exact fills_of_eq fun t => waiting_expireDue g _ t
  | dismiss =>
    refine fills_of_eq fun t => ?_
    simp only [Lobby.perform, Lobby.dismiss]
    split
    · exact waiting_closeAll g "server stopped" l t
    · rfl

theorem waiting_eq {q : Mailbox} (h : l.mailbox? t = some q) : l.waiting t = q.frames := by
  rw [waiting, h]

theorem waiting_receive (ticket : Ticket) (l : Lobby σ) (t : Ticket) :
    (l.receive ticket).2.waiting t <:+ l.waiting t := by
  unfold Lobby.receive
  split
  · exact List.suffix_refl _
  · rename_i q hq
    have hchange := mailbox?_changeMailbox ticket t (fun _ => q.receive.2) l
    by_cases ht : t = ticket
    · subst ht
      rw [if_pos rfl, hq, Option.map_some] at hchange
      rw [waiting_eq hchange, waiting_eq hq, Mailbox.receive]
      split
      · exact List.suffix_refl _
      · split
        · rename_i heq
          rw [heq]
          exact List.suffix_cons _ _
        · exact List.suffix_refl _
    · rw [if_neg ht] at hchange
      rw [waiting, hchange]
      exact List.suffix_refl _

theorem waiting_dropMailbox (ticket : Ticket) (l : Lobby σ) (t : Ticket) :
    (l.dropMailbox ticket).waiting t <:+ l.waiting t := by
  have hdrop := mailbox?_dropMailbox ticket t l
  by_cases ht : t = ticket
  · rw [if_pos ht] at hdrop
    rw [waiting, hdrop]
    exact List.nil_suffix
  · rw [if_neg ht] at hdrop
    rw [waiting, hdrop]
    exact List.suffix_refl _

/-- In every run, whatever the rules are, the run would be the same with rules that say the same to the
messages that are put to them: those that current members send and clients may send. And what an
operation puts into the queue of a ticket are frames of messages that servers may send, which the rules
of that operation address to the member with the ticket. -/
theorem run_filters {s : Schema} (hs : s.validate = .ok g.protocol) (h : start limits = .ok l)
    (ops : List Operation) :
    (∀ rules, (∀ before op after, ops = before ++ op :: after → ∀ state view sender msg,
        Puts g (l.run g before) op state view sender msg →
          rules state view sender msg = g.logic.onMessage state view sender msg) →
      l.run (g.hearing rules) ops = l.run g ops) ∧
    ∀ op t, ∃ kept placed, kept <:+ (l.run g ops).waiting t ∧
      ((l.run g ops).perform g op).waiting t = kept ++ placed ∧
      ∀ frame ∈ placed, ∃ msg, Sends g (l.run g ops) op t msg ∧ g.protocol.Carries frame msg := by
  refine ⟨fun rules => run_hearing, fun op t => ?_⟩
  have hb := Bounded.run (.inl (sound_start h)) g ops
  have hwired := run_wired h g ops
  have hwaits := (run_paced h g ops).waits
  by_cases hop : ∀ ticket, op ≠ .receive ticket ∧ op ≠ .dropMailbox ticket
  · obtain ⟨placed, hplaced, hsent⟩ := hb.fills hwired hwaits g op hop t
    refine ⟨_, placed, List.suffix_refl _, hplaced, fun frame hframe => ?_⟩
    obtain ⟨msg, hsends, hmsg⟩ := hsent frame hframe
    exact ⟨msg, hsends, Schema.carries_of_frameOf? hs hmsg⟩
  · -- a reader only takes from the queue
    refine ⟨((l.run g ops).perform g op).waiting t, [], ?_, (List.append_nil _).symm,
      List.forall_mem_nil _⟩
    cases op with
    | receive ticket => exact waiting_receive ticket _ t
    | dropMailbox ticket => exact waiting_dropMailbox ticket _ t
    | _ => exact absurd (fun _ => ⟨Operation.noConfusion, Operation.noConfusion⟩) hop

/-! Rules that send to strangers, under tags that no message has, and what is no value of the field. -/

def unrulyGame : Game Unit where
  protocol := chatProtocol
  logic := { Logic.relay with
    onMessage := fun state _ _ msg => .proceed state
      [(.all, ⟨9, []⟩), (.only 99, msg), (.all, ⟨1, [some (.bool true)]⟩), (.only 8, msg)] }

def unrulyRun : List Operation := [.join 7 none 4, .join 8 none 4, .send ⟨0, 1, 7⟩ 7 [1, 5]]

theorem run_filters_unrulyGame :
    start chatLimits = .ok (ofLimits (σ := Unit) chatLimits) ∧
      chatSchema.validate = .ok unrulyGame.protocol ∧
      (ofLimits chatLimits).run (unrulyGame.hearing fun state view sender msg =>
          if msg.tag = 9 then .crash else unrulyGame.logic.onMessage state view sender msg) unrulyRun =
        (ofLimits chatLimits).run unrulyGame unrulyRun ∧
      ∃ msg, Sends unrulyGame ((ofLimits chatLimits).run unrulyGame unrulyRun)
        (.send ⟨0, 1, 7⟩ 7 [1, 6]) 1 msg ∧ chatProtocol.Carries [1, 6] msg := by
  have hstart : start chatLimits = .ok (ofLimits (σ := Unit) chatLimits) := rfl
  have hvalid : chatSchema.validate = .ok unrulyGame.protocol := chatSchema_validate
  obtain ⟨hsame, hfills⟩ := run_filters hvalid hstart unrulyRun
  refine ⟨hstart, hvalid, hsame _ ?_, ?_⟩
  · intro before op after _ state view sender msg hputs
    cases hputs with
    | frame _ _ _ hm _ =>
      refine if_neg fun htag => ?_
      rw [htag] at hm
      cases hm
  · obtain ⟨kept, placed, hkept, hplaced, hsent⟩ := hfills (.send ⟨0, 1, 7⟩ 7 [1, 6]) 1
    have hbefore : ((ofLimits chatLimits).run unrulyGame unrulyRun).waiting 1 = [[1, 5]] := by
      decide +kernel
    have hafter : (((ofLimits chatLimits).run unrulyGame unrulyRun).perform unrulyGame
        (.send ⟨0, 1, 7⟩ 7 [1, 6])).waiting 1 = [[1, 5], [1, 6]] := by decide +kernel
    have hmem : [1, 6] ∈ kept ++ placed := by
      rw [← hplaced, hafter]
      simp
    refine hsent [1, 6] ((List.mem_append.mp hmem).resolve_left fun hold => ?_)
    rw [hbefore] at hkept
    simpa using hkept.subset hold

end Lobby

end Gamewire
