import Gamewire.Proofs.Room.Streams

/-! What is no business of others. The queue of a member is of no account to anything but its own reader:
with the queue taken away, everything that can be done to a lobby does the same to the rest of it. So a
reader that is slow, or gone, changes nothing for anybody else. -/
namespace Gamewire
set_option autoImplicit false

/-- What the reader of a queue does. -/
def Operation.isReader (t : Ticket) (op : Operation) : Bool := op = .receive t ∨ op = .dropMailbox t

namespace Lobby

variable {σ : Type} {g : Game σ} {l l' : Lobby σ} {t u : Ticket}

/-! ## Without a queue -/

section Fields

variable (t : Ticket) (l : Lobby σ)

@[simp] theorem dropMailbox_registry : (l.dropMailbox t).registry = l.registry := rfl
@[simp] theorem dropMailbox_manager : (l.dropMailbox t).manager = l.manager := rfl
@[simp] theorem dropMailbox_shuttingDown : (l.dropMailbox t).shuttingDown = l.shuttingDown := rfl
@[simp] theorem dropMailbox_rooms : (l.dropMailbox t).rooms = l.rooms := rfl

end Fields

theorem changeMailbox_dropMailbox (ticket : Ticket) (f : Mailbox → Mailbox) (l : Lobby σ) (t : Ticket) :
    (l.dropMailbox t).changeMailbox ticket f = (l.changeMailbox ticket f).dropMailbox t := by
  have hkeys : ∀ ms : List (Ticket × Mailbox),
      (ms.filter (·.1 != t)).map (fun m => if m.1 = ticket then (m.1, f m.2) else m) =
        (ms.map fun m => if m.1 = ticket then (m.1, f m.2) else m).filter (·.1 != t) := by
    intro ms
    rw [List.filter_map]
    refine congrArg _ (List.filter_congr fun m _ => ?_)
    simp only [Function.comp_apply]
    split <;> rfl
  unfold changeMailbox dropMailbox
  rw [← hkeys]

theorem dropMailbox_changeMailbox (t : Ticket) (f : Mailbox → Mailbox) (l : Lobby σ) :
    (l.changeMailbox t f).dropMailbox t = l.dropMailbox t := by
  have hothers : (l.mailboxes.filter (·.1 != t)).map
      (fun m => if m.1 = t then (m.1, f m.2) else m) = l.mailboxes.filter (·.1 != t) := by
    refine (List.map_congr_left fun m hm => ?_).trans (List.map_id _)
    exact if_neg (bne_iff_ne.mp (List.mem_filter.mp hm).2)
  rw [← changeMailbox_dropMailbox]
  unfold changeMailbox dropMailbox
  rw [hothers]

theorem applyEffects_dropMailbox (es : List Effect) (l : Lobby σ) (t : Ticket) :
    (l.dropMailbox t).applyEffects es = (l.applyEffects es).dropMailbox t := by
  refine List.foldl_hom (f := dropMailbox t) fun l e => ?_
  cases e <;> exact changeMailbox_dropMailbox _ _ l t

theorem command_dropMailbox (g : Game σ) (id : RoomId) (c : Command) (l : Lobby σ) (t : Ticket) :
    command g id c (l.dropMailbox t) = (command g id c l).dropMailbox t := by
  unfold command
  rw [dropMailbox_rooms]
  cases l.rooms.lookup id with
  | none => rfl
  | some r =>
    simp only [← applyEffects_dropMailbox]
    cases (r.step g c).1 <;> rfl

theorem abandonRooms_dropMailbox (l : Lobby σ) (t : Ticket) :
    (l.dropMailbox t).abandonRooms = l.abandonRooms.dropMailbox t := by
  unfold abandonRooms
  rw [← applyEffects_dropMailbox]
  rfl

theorem expire_dropMailbox (g : Game σ) (l : Lobby σ) (timer : Timer) (t : Ticket) :
    expire g (l.dropMailbox t) timer = (expire g l timer).dropMailbox t := by
  unfold expire
  rw [dropMailbox_manager, dropMailbox_registry]
  split
  · rw [← command_dropMailbox]
    rfl
  · rfl

theorem expireDue_dropMailbox (g : Game σ) (l : Lobby σ) (t : Ticket) :
    expireDue g (l.dropMailbox t) = (expireDue g l).dropMailbox t := by
  have hfold : ∀ (timers : List Timer) (l : Lobby σ), timers.foldl (expire g) (l.dropMailbox t) =
      (timers.foldl (expire g) l).dropMailbox t :=
    fun timers l => List.foldl_hom (dropMailbox t) fun l timer => expire_dropMailbox g l timer t
  exact hfold _ { l with timers := l.timers.filter fun timer => ¬ timer.due ≤ l.now }

theorem closeAll_dropMailbox (g : Game σ) (reason : String) (l : Lobby σ) (t : Ticket) :
    closeAll g reason (l.dropMailbox t) = (closeAll g reason l).dropMailbox t := by
  have hfold : ∀ (ids : List RoomId) (l : Lobby σ),
      ids.foldl (fun l id => command g id (.close reason) l) (l.dropMailbox t) =
        (ids.foldl (fun l id => command g id (.close reason) l) l).dropMailbox t :=
    fun ids l => List.foldl_hom (dropMailbox t) fun l id => command_dropMailbox g id (.close reason) l t
  exact hfold _ { l with registry := { l.registry with rooms := [] } }

theorem enter_dropMailbox (g : Game σ) (id : RoomId) (conn : ConnId) (ticket : Ticket) (l : Lobby σ)
    (t : Ticket) : (l.dropMailbox t).enter g id conn ticket = (l.enter g id conn ticket).dropMailbox t := by
  unfold enter
  rw [← command_dropMailbox]
  rfl

theorem createRoom_dropMailbox (g : Game σ) (l : Lobby σ) (t : Ticket) : (l.dropMailbox t).createRoom g =
    (l.createRoom g).map fun x => (x.1, x.2.dropMailbox t) := by
  unfold createRoom
  rw [dropMailbox_registry]
  cases l.registry.create with
  | none => rfl
  | some x =>
    obtain ⟨id, registry⟩ := x
    simp only
    cases g.logic.init id <;> rfl

theorem refuse_dropMailbox (ticket : Ticket) (e : AdmissionFault) (l : Lobby σ) (t : Ticket) :
    ((l.dropMailbox t).refuse ticket e).2 = (l.refuse ticket e).2.dropMailbox t :=
  changeMailbox_dropMailbox ticket _ l t

theorem seat_dropMailbox (g : Game σ) (conn : ConnId) (requested : Option RoomId) (ticket : Ticket)
    (l : Lobby σ) (t : Ticket) : ((l.dropMailbox t).seat g conn requested ticket).2 =
      (l.seat g conn requested ticket).2.dropMailbox t := by
  induction l using seatBy.induct g requested with
  | case1 l e hchoose =>
    rw [seat_of_error hchoose, seat_of_error (l := l.dropMailbox t) hchoose]
    exact refuse_dropMailbox ticket e l t
  | case2 l hchoose id l' hcreate =>
    rw [seat_of_new hchoose, seat_of_new (l := l.dropMailbox t) hchoose, createRoom_dropMailbox, hcreate]
    exact enter_dropMailbox g id conn ticket l' t
  | case3 l hchoose hcreate =>
    have hcrash : (l.dropMailbox t).crash = l.crash.dropMailbox t := by
      unfold crash
      rw [← abandonRooms_dropMailbox]
      rfl
    rw [seat_of_new hchoose, seat_of_new (l := l.dropMailbox t) hchoose, createRoom_dropMailbox, hcreate]
    simp only [Option.map_none, hcrash]
    exact refuse_dropMailbox ticket _ _ t
  | case4 l id hchoose r hr =>
    rw [seat_of_existing hchoose, seat_of_existing (l := l.dropMailbox t) hchoose, dropMailbox_rooms, hr]
    exact enter_dropMailbox g id conn ticket l t
  | case5 l id hchoose hr ih =>
    rw [seat_of_existing hchoose, seat_of_existing (l := l.dropMailbox t) hchoose, dropMailbox_rooms, hr]
    exact ih

theorem place_dropMailbox (g : Game σ) (conn : ConnId) (requested : Option RoomId) (ticket : Ticket)
    (l : Lobby σ) (t : Ticket) : ((l.dropMailbox t).place g conn requested ticket).2 =
      (l.place g conn requested ticket).2.dropMailbox t := by
  rw [place_eq, place_eq]
  rw [dropMailbox_manager, dropMailbox_shuttingDown]
  split
  · exact refuse_dropMailbox ticket _ l t
  · split
    · exact refuse_dropMailbox ticket _ l t
    · exact seat_dropMailbox g conn requested ticket l t

theorem openMailbox_dropMailbox (buffer : Nat) (l : Lobby σ) (t : Ticket) :
    ((l.dropMailbox t).openMailbox buffer).2.dropMailbox t = (l.openMailbox buffer).2.dropMailbox t := by
  unfold openMailbox dropMailbox
  simp only [List.filter_append, List.filter_filter, Bool.and_self]

theorem join_dropMailbox (g : Game σ) (conn : ConnId) (requested : Option RoomId) (buffer : Nat)
    (l : Lobby σ) (t : Ticket) : ((l.dropMailbox t).join g conn requested buffer).2.2.dropMailbox t =
      (l.join g conn requested buffer).2.2.dropMailbox t := by
  rw [join_eq, join_eq, ← place_dropMailbox, ← place_dropMailbox, openMailbox_dropMailbox]
  rfl

theorem takeOut_dropMailbox (g : Game σ) (a : Admission) (l : Lobby σ) (t : Ticket) :
    (l.dropMailbox t).takeOut g a = (l.takeOut g a).dropMailbox t := by
  unfold takeOut
  rw [dropMailbox_registry]
  cases l.registry.removeMember a.room a.conn with
  | none => rfl
  | some x =>
    obtain ⟨entry, registry⟩ := x
    have hleft : command g a.room (.leave a.conn) { l.dropMailbox t with registry := registry } =
        (command g a.room (.leave a.conn) { l with registry := registry }).dropMailbox t :=
      command_dropMailbox g a.room _ { l with registry := registry } t
    simp only [hleft]
    split
    · rw [← expireDue_dropMailbox]
      rfl
    · rfl

theorem release_dropMailbox (g : Game σ) (ticket : Ticket) (l : Lobby σ) (t : Ticket) :
    (l.dropMailbox t).release g ticket = (l.release g ticket).dropMailbox t := by
  have hsame : (l.dropMailbox t).admission? ticket = l.admission? ticket := rfl
  cases ha : l.admission? ticket with
  | none =>
    unfold release
    rw [hsame, ha]
  | some a =>
    rw [release_of_some ha, release_of_some (hsame.trans ha), dropMailbox_manager]
    split
    · exact takeOut_dropMailbox g a (l.free ticket) t
    · exact abandonRooms_dropMailbox (l.free ticket) t

/-! ## Runs beside a reader -/

theorem dropMailbox_dropMailbox (t ticket : Ticket) (l : Lobby σ) :
    ((l.dropMailbox t).dropMailbox ticket).dropMailbox t = (l.dropMailbox ticket).dropMailbox t := by
  unfold dropMailbox
  simp only [List.filter_filter]
  refine congrArg (fun ms => { l with mailboxes := ms }) (List.filter_congr fun m _ => ?_)
  cases m.1 != t <;> cases m.1 != ticket <;> rfl

theorem dropMailbox_self (t : Ticket) (l : Lobby σ) : (l.dropMailbox t).dropMailbox t = l.dropMailbox t := by
  unfold dropMailbox
  simp only [List.filter_filter, Bool.and_self]

theorem dropMailbox_receive (t : Ticket) (l : Lobby σ) :
    (l.receive t).2.dropMailbox t = l.dropMailbox t := by
  unfold Lobby.receive
  split
  · rfl
  · exact dropMailbox_changeMailbox t _ l

theorem receive_dropMailbox {ticket : Ticket} (h : ticket ≠ t) (l : Lobby σ) :
    (l.dropMailbox t).receive ticket =
      ((l.receive ticket).1, (l.receive ticket).2.dropMailbox t) := by
  have hsame : (l.dropMailbox t).mailbox? ticket = l.mailbox? ticket := by
    rw [mailbox?_dropMailbox, if_neg h]
  unfold Lobby.receive
  rw [hsame]
  cases l.mailbox? ticket with
  | none => rfl
  | some q => exact congrArg _ (changeMailbox_dropMailbox ticket _ l t)

theorem perform_dropMailbox (g : Game σ) (op : Operation) (l : Lobby σ) (t : Ticket) :
    ((l.dropMailbox t).perform g op).dropMailbox t = (l.perform g op).dropMailbox t := by
  cases op with
  | join conn room buffer => exact join_dropMailbox g conn room buffer l t
  | joinInVain conn room buffer =>
    have hrelease : ∀ l : Lobby σ, l.perform g (.joinInVain conn room buffer) =
        (l.join g conn room buffer).2.2.release g l.nextTicket := fun _ => rfl
    rw [hrelease, hrelease, ← release_dropMailbox, ← release_dropMailbox, join_dropMailbox]
    rfl
  | release ticket => rw [perform, perform, release_dropMailbox, dropMailbox_self]
  | send a sender bytes =>
    rw [perform, perform, Lobby.send, Lobby.send, dropMailbox_rooms]
    cases l.rooms.lookup a.room with
    | none => exact dropMailbox_self t l
    | some r => simp only [command_dropMailbox, dropMailbox_self]
  | receive ticket =>
    rw [perform, perform]
    by_cases h : ticket = t
    · rw [h, dropMailbox_receive, dropMailbox_receive, dropMailbox_self]
    · rw [receive_dropMailbox h, dropMailbox_self]
  | dropMailbox ticket => exact dropMailbox_dropMailbox t ticket l
  | shutdownRoom room reason =>
    rw [perform, perform, Lobby.shutdownRoom, Lobby.shutdownRoom, dropMailbox_manager,
      dropMailbox_registry]
    split
    · exact dropMailbox_self t l
    · split
      · have hclosed := command_dropMailbox g room (.close reason)
          { l with registry := l.registry.remove room } t
        exact (congrArg (dropMailbox t) hclosed).trans (dropMailbox_self t _)
      · exact dropMailbox_self t l
  | shutdown reason =>
    rw [perform, perform, Lobby.shutdown, Lobby.shutdown, dropMailbox_manager]
    split
    · exact dropMailbox_self t l
    · have hclosed := closeAll_dropMailbox g reason { l with shuttingDown := true } t
      exact (congrArg (dropMailbox t) hclosed).trans (dropMailbox_self t _)
  | advance ms =>
    have hlater := expireDue_dropMailbox g { l with now := l.now + ms } t
    exact (congrArg (dropMailbox t) hlater).trans (dropMailbox_self t _)
  | dismiss =>
    rw [perform, perform, Lobby.dismiss, Lobby.dismiss, dropMailbox_manager]
    split
    · rw [closeAll_dropMailbox]
      exact dropMailbox_self t { closeAll g "server stopped" l with manager := .gone }
    · exact dropMailbox_self t l

/-- Two lobbies differ in the queue of a ticket at most. -/
def AgreeBut (t : Ticket) (l l' : Lobby σ) : Prop := l.dropMailbox t = l'.dropMailbox t

theorem AgreeBut.perform (h : AgreeBut t l l') (g : Game σ) (op : Operation) :
    AgreeBut t (l.perform g op) (l'.perform g op) := by
  unfold AgreeBut at h ⊢
  rw [← perform_dropMailbox, h, perform_dropMailbox]

theorem AgreeBut.mailbox? (h : AgreeBut t l l') (hu : u ≠ t) : l.mailbox? u = l'.mailbox? u := by
  have hl := mailbox?_dropMailbox t u l
  rw [if_neg hu] at hl
  have hl' := mailbox?_dropMailbox t u l'
  rw [if_neg hu] at hl'
  rw [← hl, ← hl', h]

/-- A reader changes nothing but its queue. -/
theorem AgreeBut.reader (h : AgreeBut t l l') {op : Operation} (hop : op.isReader t = true) :
    AgreeBut t (l.perform g op) l' := by
  refine Eq.trans ?_ h
  obtain rfl | rfl := of_decide_eq_true hop
  · exact dropMailbox_receive t l
  · exact dropMailbox_self t l

/-- What is done to two lobbies that differ in a queue, but for what the reader of that queue does. -/
theorem AgreeBut.run (h : AgreeBut t l l') (g : Game σ) (ops : List Operation) :
    AgreeBut t (l.run g ops) (l'.run g (ops.filter (!·.isReader t))) ∧ ∀ u, u ≠ t →
      l.readings g u ops = l'.readings g u (ops.filter (!·.isReader t)) := by
  induction ops generalizing l l' with
  | nil => exact ⟨h, fun _ _ => rfl⟩
  | cons op ops ih =>
    cases hop : op.isReader t with
    | true =>
      obtain ⟨hagree, hreadings⟩ := ih (h.reader (g := g) hop)
      rw [List.filter_cons_of_neg (by simp [hop])]
      refine ⟨hagree, fun u hu => ?_⟩
      have hother : op ≠ .receive u := by
        rintro rfl
        simp [Operation.isReader, hu] at hop
      rw [readings, if_neg hother, hreadings u hu]
      rfl
    | false =>
      obtain ⟨hagree, hreadings⟩ := ih (h.perform g op)
      rw [List.filter_cons_of_pos (by simp [hop])]
      refine ⟨hagree, fun u hu => ?_⟩
      rw [readings, readings, hreadings u hu, receive_congr (h.mailbox? hu)]

/-! ## Rooms and readers -/

theorem prefix_frames {r : Room σ} {cs : List Command} (hsep : r.Separate cs) {es : List Turn}
    (hes : es.filterMap Turn.effect? <+: (Room.run g (some r) cs).2) (t : Ticket) :
    es.filterMap (Turn.frameFor? t) <+:
      (Room.log g (some r) cs).filterMap (Dispatch.frameFor? t) := by
  have hframes := hes.filterMap (Effect.frameFor? t)
  rw [Room.run_frames hsep, List.filterMap_filterMap] at hframes
  exact hframes

/-- Whatever the rules of a room are, and however the effects of what it dispatches and the reads take
turns:

* A reader gets the dispatches for it that find a place in its queue, in order.
* Two readers get in the same order what both get.
* The next read after the notice that the room closes returns it. The frames that wait are read after it.
* What a reader gets depends on its own queue and what happens to that, not on how it reads.

A command in the lobby is one way for the effects of the room to happen. No queue makes a difference to
anything in the lobby but its own reader, and neither does what that reader does. -/
theorem run_streams {r : Room σ} {cs : List Command} (hsep : r.Separate cs) {es : List Turn}
    (hes : es.filterMap Turn.effect? <+: (Room.run g (some r) cs).2) (l : Lobby σ) :
    (∀ t buffer, l.mailbox? t = some (.ofBuffer buffer) →
      Streams t (max buffer 1) (Room.log g (some r) cs) l es) ∧
    (∀ t buffer u buffer', l.mailbox? t = some (.ofBuffer buffer) →
      l.mailbox? u = some (.ofBuffer buffer') →
      (l.stream t (max buffer 1) (Room.log g (some r) cs) es).filter
          (· ∈ l.stream u (max buffer' 1) (Room.log g (some r) cs) es) =
        (l.stream u (max buffer' 1) (Room.log g (some r) cs) es).filter
          (· ∈ l.stream t (max buffer 1) (Room.log g (some r) cs) es)) ∧
    (∀ t reason before after, es = before ++ .room (.close t reason) :: after →
      (l.mailbox? t).isSome → .drop t ∉ es →
      (l.plays (before ++ [.room (.close t reason)])).gets t after =
        (.closed reason :: ((l.plays before).waiting t).map .frame).take (after.count (.read t))) ∧
    (∀ (t : Ticket) (l' : Lobby σ) (es' : List Turn), l.mailbox? t = l'.mailbox? t →
      es.filter (·.ticket == t) = es'.filter (·.ticket == t) → l.gets t es = l'.gets t es') ∧
    (∀ places (reader : Receiver), reader.Reads places) ∧
    (∀ id c t, l.rooms.lookup id = some r → (command g id c l).mailbox? t =
      (l.plays ((r.step g c).2.map .room)).mailbox? t) ∧
    ∀ t l' (ops ops' : List Operation), AgreeBut t l l' →
      ops.filter (!·.isReader t) = ops'.filter (!·.isReader t) →
      AgreeBut t (l.run g ops) (l'.run g ops') ∧
        ∀ u, u ≠ t → l.readings g u ops = l'.readings g u ops' := by
  have hstreams : ∀ t buffer, l.mailbox? t = some (.ofBuffer buffer) →
      Streams t (max buffer 1) (Room.log g (some r) cs) l es :=
    fun t buffer hq => streams_of_prefix hq (prefix_frames hsep hes t)
  refine ⟨hstreams, fun t buffer u buffer' ht hu => ?_, ?_, fun t l' es' => gets_congr,
    Receiver.reads, fun id c t hr => command_plays g c hr t, fun t l' ops ops' h hops => ?_⟩
  · exact shared_order (hstreams t buffer ht).ascending (hstreams u buffer' hu).ascending
  · rintro t reason before after rfl hq hdrop
    exact gets_close (Room.run_continues hsep g) hes hq hdrop
  · obtain ⟨hagree, hreadings⟩ := h.run g ops
    obtain ⟨hagree', hreadings'⟩ := AgreeBut.run (l := l') (t := t) rfl g ops'
    refine ⟨?_, fun u hu => ?_⟩
    · rw [hops] at hagree
      exact hagree.trans hagree'.symm
    · rw [hreadings u hu, hreadings' u hu, hops]

/-! A room closes while the queue of one member is full. -/

def fullRun : List Command := [.join 7 0, .join 8 1, .frame 7 [1, 5], .frame 7 [1, 6], .close "bye"]

def fullTurns : List Turn :=
  [.room (.deliver 1 [1, 5]), .room (.deliver 1 [1, 6]), .room (.close 0 "bye")]

def lateReads : List Turn := [.read 1, .read 1, .read 1]

theorem run_streams_chatLobby :
    Room.Separate (σ := Unit) ⟨1, (), []⟩ fullRun ∧
      (fullTurns ++ .room (.close 1 "bye") :: lateReads).filterMap Turn.effect? <+:
        (Room.run ⟨chatProtocol, Logic.relay⟩ (some ⟨1, (), []⟩) fullRun).2 ∧
      (chatLobby.plays (fullTurns ++ [.room (.close 1 "bye")])).gets 1 lateReads =
        [.closed "bye", .frame [1, 5]] := by
  have hsep : Room.Separate (σ := Unit) ⟨1, (), []⟩ fullRun := Room.separate_new 1 () (by decide)
  have hes : (fullTurns ++ .room (.close 1 "bye") :: lateReads).filterMap Turn.effect? <+:
      (Room.run ⟨chatProtocol, Logic.relay⟩ (some ⟨1, (), []⟩) fullRun).2 := by decide +kernel
  obtain ⟨-, -, hclose, -⟩ := run_streams hsep hes chatLobby
  have hwaiting : (chatLobby.plays fullTurns).waiting 1 = [[1, 5]] := by decide +kernel
  refine ⟨hsep, hes, ?_⟩
  rw [hclose 1 "bye" fullTurns lateReads rfl (by decide +kernel) (by decide), hwaiting]
  rfl

end Lobby

end Gamewire
