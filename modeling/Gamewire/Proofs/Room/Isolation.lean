import Gamewire.Proofs.Room.Queues
import Gamewire.Proofs.Room.Relay

/-! Rooms do not meddle with each other. What is done to one room, and whatever its rules make of it,
leaves every other room alone with its members, their queues, and its timers. A room whose rules fail
is gone at once: its members are told, nothing else is sent, and its place is free again. -/
namespace Gamewire
set_option autoImplicit false

namespace Lobby

variable {σ : Type} {g : Game σ} {limits : Limits} {l l' l'' : Lobby σ} {id id' : RoomId}

/-! ## Rooms that nothing happens to -/

/-- A room is as it was: in the register, in itself, and with the queues and admissions of its members
and its timers. -/
structure Spared (id : RoomId) (l l' : Lobby σ) : Prop where
  entry : l'.registry.rooms.lookup id = l.registry.rooms.lookup id
  room : l'.rooms.lookup id = l.rooms.lookup id
  queues : ∀ r, l.rooms.lookup id = some r → ∀ m ∈ r.members, l'.mailbox? m.2 = l.mailbox? m.2
  timers : l'.timers.filter (·.room == id) = l.timers.filter (·.room == id)
  held : l'.held.filter (·.room == id) = l.held.filter (·.room == id)

theorem Spared.refl (id : RoomId) (l : Lobby σ) : Spared id l l :=
  ⟨rfl, rfl, fun _ _ _ _ => rfl, rfl, rfl⟩

theorem Spared.trans (h : Spared id l l') (h' : Spared id l' l'') : Spared id l l'' where
  entry := h'.entry.trans h.entry
  room := h'.room.trans h.room
  queues := fun r hr m hm => (h'.queues r (h.room.trans hr) m hm).trans (h.queues r hr m hm)
  timers := h'.timers.trans h.timers
  held := h'.held.trans h.held

theorem Elsewhere.spares (h : Elsewhere id' l l') (hne : id ≠ id')
    (hmailboxes : l'.mailboxes = l.mailboxes) (htimers : l'.timers = l.timers)
    (hheld : l'.held = l.held) : Spared id l l' where
  entry := h.registry id hne
  room := h.rooms id hne
  queues := fun _ _ m _ => congrArg (List.lookup m.2) hmailboxes
  timers := by rw [htimers]
  held := by rw [hheld]

theorem Wired.command_spares (h : Wired l) (g : Game σ) (hne : id ≠ id') {c : Command}
    (hc : l.Admissible c) : Spared id l (Lobby.command g id' c l) where
  entry := (command_elsewhere g id' c l).registry id hne
  room := (command_elsewhere g id' c l).rooms id hne
  queues := fun _ hr _ hm => h.mailbox?_command g hne hc (mem_of_lookup hr) hm
  timers := by rw [(command_still g id' c l).timers]
  held := by rw [(command_wanes g id' c l).held]

theorem Wired.closeRoom_spares (h : Wired l) (g : Game σ) (hne : id ≠ id') (reason : String) :
    Spared id l
      (Lobby.command g id' (.close reason) { l with registry := l.registry.remove id' }) := by
  have hstruck : Wired { l with registry := l.registry.remove id' } :=
    h.same rfl rfl rfl (.refl _)
  exact ((elsewhere_remove id' l).spares hne rfl rfl rfl).trans
    (hstruck.command_spares g hne (c := .close reason) trivial)

theorem spared_changeMailbox {ticket : Ticket} (f : Mailbox → Mailbox)
    (h : ∀ r, l.rooms.lookup id = some r → ∀ m ∈ r.members, m.2 ≠ ticket) :
    Spared id l (l.changeMailbox ticket f) := by
  refine ⟨rfl, rfl, fun r hr m hm => ?_, rfl, rfl⟩
  rw [mailbox?_changeMailbox, if_neg (h r hr m hm)]

theorem Wired.openMailbox_spares (h : Wired l) (buffer : Nat) (id : RoomId) :
    Spared id l (l.openMailbox buffer).2 := by
  refine ⟨rfl, rfl, fun r hr m hm => ?_, rfl, rfl⟩
  rw [h.mailbox?_openMailbox, if_neg]
  exact Nat.ne_of_lt (h.given (id, r) (mem_of_lookup hr) m hm)

/-! ## Timers and releases -/

theorem Wired.expire_spares (h : Wired l) (g : Game σ) {t : Timer} (hne : id ≠ t.room) :
    Spared id l (Lobby.expire g l t) := by
  unfold Lobby.expire
  split
  · exact h.closeRoom_spares g hne "room closed"
  · exact .refl id l

theorem Wired.foldl_expire_spares (h : Wired l) {ts : List Timer} (hts : ∀ t ∈ ts, id ≠ t.room)
    (g : Game σ) : Spared id l (ts.foldl (Lobby.expire g) l) := by
  induction ts generalizing l with
  | nil => exact .refl id l
  | cons t ts ih =>
    have hfirst := h.expire_spares g (hts t List.mem_cons_self)
    exact hfirst.trans (ih ((wired_upheld g).expire t h) fun t' ht' => hts t' (List.mem_cons_of_mem t ht'))

theorem Wired.expireDue_spares (h : Wired l) (g : Game σ)
    (hdue : ∀ t ∈ l.timers, t.due ≤ l.now → id ≠ t.room) : Spared id l (Lobby.expireDue g l) := by
  have htimers : Spared id l { l with timers := l.timers.filter fun t => ¬ t.due ≤ l.now } := by
    refine ⟨rfl, rfl, fun _ _ _ _ => rfl, ?_, rfl⟩
    rw [List.filter_filter]
    apply List.filter_congr
    intro t ht
    by_cases hroom : t.room = id
    · have hlater : ¬ t.due ≤ l.now := fun hle => hdue t ht hle hroom.symm
      simp [hlater]
    · simp [hroom]
  have hwired : Wired { l with timers := l.timers.filter fun t => ¬ t.due ≤ l.now } :=
    h.same rfl rfl rfl (.refl _)
  unfold Lobby.expireDue
  refine htimers.trans (hwired.foldl_expire_spares ?_ g)
  intro t ht
  obtain ⟨hset, hle⟩ := List.mem_filter.mp ht
  exact hdue t hset (of_decide_eq_true hle)

/-- Of the timers only one for the room that was left can go off. -/
theorem Wired.takeOut_spares (h : Wired l) (hw : Waits l) (g : Game σ) {a : Admission}
    (hne : id ≠ a.room) : Spared id l (l.takeOut g a) := by
  cases hremove : l.registry.removeMember a.room a.conn with
  | none =>
    rw [takeOut_eq_self g hremove]
    exact .refl id l
  | some p =>
    obtain ⟨e, registry⟩ := p
    obtain ⟨-, -, -, hregistry, -, -⟩ := Registry.removeMember_eq_some hremove
    have hstruck : Wired { l with registry := registry } := h.same rfl rfl rfl (.refl _)
    have hset : Spared id l { l with registry := registry } := by
      rw [hregistry]
      exact (elsewhere_setEntry a.room e l).spares hne rfl rfl rfl
    have hleft := hset.trans (hstruck.command_spares g hne (c := .leave a.conn) trivial)
    obtain ⟨-, ht⟩ | ⟨left, hl, -, ht⟩ := takeOut_cases g hremove
    · rw [ht]
      exact hleft
    · rw [← hl] at hleft
      have hstill := command_still g a.room (.leave a.conn) { l with registry := registry }
      rw [← hl] at hstill
      have hset : Wired { left with
          timers := left.timers ++ [⟨l.now + l.limits.grace, a.room, e.generation⟩] } := by
        rw [hl]
        exact (hstruck.command g a.room (c := .leave a.conn) trivial).same rfl rfl rfl (.refl _)
      have htimer : Spared id left { left with
          timers := left.timers ++ [⟨l.now + l.limits.grace, a.room, e.generation⟩] } := by
        refine ⟨rfl, rfl, fun _ _ _ _ => rfl, ?_, rfl⟩
        rw [List.filter_append, List.filter_cons_of_neg (by simpa using Ne.symm hne),
          List.filter_nil, List.append_nil]
      rw [ht]
      refine hleft.trans (htimer.trans (hset.expireDue_spares g fun t hmem hdue => ?_))
      obtain hold | hnew := List.mem_append.mp hmem
      · rw [hstill.timers] at hold
        rw [hstill.now] at hdue
        exact absurd (hw t hold) (Nat.not_lt.mpr hdue)
      · rw [List.mem_singleton.mp hnew]
        exact hne

theorem lookup_filter_of_pos {α : Type} {p : RoomId → Bool} {xs : List (RoomId × α)}
    (hn : (xs.map (·.1)).Nodup) (hp : (xs.lookup id).isSome → p id = true) :
    (xs.filter fun x => p x.1).lookup id = xs.lookup id := by
  cases ha : xs.lookup id with
  | none =>
    cases hb : (xs.filter fun x => p x.1).lookup id with
    | none => rfl
    | some b =>
      rw [lookup_filter_some hb] at ha
      cases ha
  | some a =>
    refine lookup_of_mem (hn.sublist (List.filter_sublist.map _)) ?_
    exact List.mem_filter.mpr ⟨mem_of_lookup ha, hp (by rw [ha]; rfl)⟩

theorem Wired.abandonRooms_spares (h : Wired l)
    (hheld : (l.rooms.lookup id).isSome → l.held.any (·.room == id) = true) :
    Spared id l l.abandonRooms := by
  have hw := abandonRooms_wanes l
  obtain ⟨ms, hms⟩ := abandonRooms_eq l
  refine ⟨by rw [hms], ?_, fun r hr m hm => ?_, by rw [hms], by rw [hw.held]⟩
  · rw [hms]
    exact lookup_filter_of_pos (p := fun id => l.held.any (·.room == id)) h.rooms hheld
  · rw [mailbox?_abandonRooms]
    cases l.mailbox? m.2 with
    | none => rfl
    | some q =>
      rw [Option.map_some, if_neg]
      rintro ⟨x, hx, hfree, hmem⟩
      obtain ⟨n, hn, heq⟩ := List.mem_map.mp hmem
      have hroom : x.1 = id := (h.told x hx (id, r) (mem_of_lookup hr) n hn m hm heq).1
      rw [hroom, hheld (by rw [hr]; rfl)] at hfree
      cases hfree

/-- Where there is no manager, every room that runs is one that somebody holds an admission to. -/
def Attended (l : Lobby σ) : Prop :=
  l.manager ≠ .running → ∀ x ∈ l.rooms, l.held.any (·.room == x.1) = true

theorem Wired.admission?_unique (h : Wired l) {ticket : Ticket} {a b : Admission}
    (ha : l.admission? ticket = some a) (hb : b ∈ l.held) (hticket : b.ticket = ticket) : b = a := by
  obtain ⟨hheld, hsame⟩ := admission?_some ha
  exact List.inj_on_of_nodup_map h.held_nodup hb hheld (hticket.trans hsame.symm)

theorem Wired.free_spares (h : Wired l) {ticket : Ticket} {a : Admission}
    (ha : l.admission? ticket = some a) (hne : id ≠ a.room) : Spared id l (l.free ticket) := by
  refine ⟨rfl, rfl, fun _ _ _ _ => rfl, rfl, ?_⟩
  rw [Lobby.free, List.filter_filter]
  apply List.filter_congr
  intro b hb
  by_cases hroom : b.room = id
  · have hticket : b.ticket ≠ ticket := by
      intro heq
      rw [h.admission?_unique ha hb heq] at hroom
      exact hne hroom.symm
    simp [hticket]
  · simp [hroom]

theorem Wired.release_spares (h : Wired l) (hw : Waits l) (hattended : Attended l) (g : Game σ)
    (ticket : Ticket) (hid : ∀ a, l.admission? ticket = some a → id ≠ a.room) :
    Spared id l (l.release g ticket) := by
  obtain ⟨-, hr⟩ | ⟨a, ha, ⟨-, hr⟩ | ⟨hidle, hr⟩⟩ := release_cases g ticket l
  · rw [hr]
    exact .refl id l
  · have hfree : Waits (l.free ticket) := hw
    rw [hr]
    exact (h.free_spares ha (hid a ha)).trans ((h.free ticket).takeOut_spares hfree g (hid a ha))
  · have hfree := h.free_spares ha (hid a ha)
    rw [hr]
    refine hfree.trans ((h.free ticket).abandonRooms_spares fun hroom => ?_)
    obtain ⟨r, hlookup⟩ := Option.isSome_iff_exists.mp hroom
    -- the room is held by somebody else than the one that goes
    obtain ⟨b, hb, hroom⟩ := List.any_eq_true.mp (hattended hidle (id, r) (mem_of_lookup hlookup))
    have hmem : b ∈ l.held.filter (·.room == id) := List.mem_filter.mpr ⟨hb, hroom⟩
    rw [← hfree.held] at hmem
    exact List.any_eq_true.mpr ⟨b, List.mem_of_mem_filter hmem, hroom⟩

/-! ## Requests -/

theorem join_of_idle (g : Game σ) (conn : ConnId) (requested : Option RoomId) (buffer : Nat)
    (hidle : l.manager ≠ .running) : (l.join g conn requested buffer).2 =
      (l.openMailbox buffer).2.refuse l.nextTicket .unavailable := by
  rw [join_eq, place_eq, if_pos]
  exact hidle

theorem Wired.refuse_spares (h : Wired l) (buffer : Nat) (id : RoomId) (e : AdmissionFault) :
    Spared id l ((l.openMailbox buffer).2.refuse l.nextTicket e).2 := by
  refine (h.openMailbox_spares buffer id).trans (spared_changeMailbox _ fun r hr m hm => ?_)
  exact Nat.ne_of_lt (h.given (id, r) (mem_of_lookup hr) m hm)

theorem Wired.entering_spares (h : Wired l) {buffer : Nat} (hready : Ready limits id' l')
    (hl' : l' = (l.openMailbox buffer).2 ∨ (l.openMailbox buffer).2.createRoom g = some (id', l'))
    (conn : ConnId) (hne : id ≠ id') : Spared id l (l'.entering id' conn l.nextTicket) := by
  obtain ⟨-, -, -, hmailboxes, hheld, htimers, hlookup, -⟩ := h.place hready hl'
  obtain ⟨e, he, -⟩ := hready.space
  obtain ⟨generation, hadd⟩ := Registry.addMember_of_lookup he conn
  have hopened := h.openMailbox_spares buffer id
  refine ⟨?_, (hlookup id hne).2, fun r hr m hm => ?_, ?_, ?_⟩
  · simp only [Lobby.entering, hadd, Registry.lookup_setEntry, if_neg hne]
    exact (hlookup id hne).1
  · exact (congrArg (List.lookup m.2) hmailboxes).trans (hopened.queues r hr m hm)
  · simp only [Lobby.entering, htimers]
  · simp only [Lobby.entering, hheld]
    rw [List.filter_cons_of_neg (by simpa using Ne.symm hne)]

theorem Bounded.join_spares (hb : Bounded limits l) (h : Wired l) (g : Game σ) (conn : ConnId)
    (requested : Option RoomId) (buffer : Nat)
    (hid : ∀ id', (l.join g conn requested buffer).2.1 = .ok id' → id ≠ id')
    (hdone : (l.join g conn requested buffer).2.2.manager = .crashed → l.manager = .crashed) :
    Spared id l (l.join g conn requested buffer).2.2 := by
  by_cases hrunning : l.manager = .running
  · obtain ⟨e, hj⟩ | ⟨id', l', hready, hl', hj⟩ | hj := hb.join_cases g conn requested buffer
    · rw [hj]
      exact h.refuse_spares buffer id e
    · have hne := hid id' (by rw [hj])
      obtain ⟨hentering, hadmissible⟩ := h.entering hready hl' conn
      rw [hj]
      exact (h.entering_spares hready hl' conn hne).trans
        (hentering.command_spares g hne hadmissible)
    · rw [hj, hrunning] at hdone
      cases hdone (crash_wanes _).manager
  · rw [join_of_idle g conn requested buffer hrunning]
    exact h.refuse_spares buffer id .unavailable

/-- A granted request holds the first of the admissions. -/
theorem Bounded.join_admission? (hb : Bounded limits l) (h : Wired l) (g : Game σ) (conn : ConnId)
    (requested : Option RoomId) (buffer : Nat) {a : Admission}
    (ha : (l.join g conn requested buffer).2.2.admission? l.nextTicket = some a) :
    (l.join g conn requested buffer).2.1 = .ok a.room := by
  have hnone : ∀ m : Lobby σ, m.held = l.held → m.admission? l.nextTicket ≠ some a := by
    intro m hheld hfound
    obtain ⟨hmem, hticket⟩ := admission?_some hfound
    rw [hheld] at hmem
    exact absurd hticket (Nat.ne_of_lt (h.held_lt a hmem))
  obtain ⟨e, hj⟩ | ⟨id', l', hready, hl', hj⟩ | hj := hb.join_cases g conn requested buffer
  · rw [hj] at ha
    exact absurd ha (hnone _ rfl)
  · obtain ⟨-, -, -, -, hheld, -⟩ := h.place hready hl'
    have hfirst : (l'.enter g id' conn l.nextTicket).held = ⟨l.nextTicket, id', conn⟩ :: l.held := by
      rw [enter_eq, (command_wanes g id' _ _).held, entering, hheld]
    rw [hj, admission?, hfirst, List.find?_cons_of_pos (by simp)] at ha
    cases ha
    rw [hj]
  · rw [hj] at ha
    exact absurd ha (hnone _ (crash_wanes _).held)

/-! ## Rooms without a manager -/

theorem Attended.narrow (h : Attended l) (hn : Narrows l l') (hmanager : l'.manager = l.manager)
    (hheld : l'.held = l.held) : Attended l' := by
  intro hidle y hy
  rw [hmanager] at hidle
  obtain ⟨x, hx, hkey, -⟩ := hn.members y hy
  rw [hheld, ← hkey]
  exact h hidle x hx

theorem attended_of_running (h : l.manager = .running) : Attended l := fun hidle => absurd h hidle

theorem abandonRooms_attended (l : Lobby σ) : Attended l.abandonRooms := by
  obtain ⟨ms, hms⟩ := abandonRooms_eq l
  rw [hms]
  exact fun _ x hx => (List.mem_filter.mp hx).2

theorem Bounded.join_attended (hb : Bounded limits l) (h : Attended l) (g : Game σ) (conn : ConnId)
    (requested : Option RoomId) (buffer : Nat) :
    Attended (l.join g conn requested buffer).2.2 := by
  obtain ⟨e, hj⟩ | ⟨id', l', hready, -, hj⟩ | hj := hb.join_cases g conn requested buffer
  · rw [hj]
    exact h
  · rw [hj]
    exact attended_of_running ((command_wanes g id' _ _).manager.trans hready.manager)
  · rw [hj]
    exact abandonRooms_attended _

theorem release_attended (h : Attended l) (g : Game σ) (ticket : Ticket) :
    Attended (l.release g ticket) := by
  obtain ⟨-, hr⟩ | ⟨a, -, ⟨hrunning, hr⟩ | ⟨-, hr⟩⟩ := release_cases g ticket l
  · rw [hr]
    exact h
  · rw [hr]
    apply attended_of_running
    cases hremove : (l.free ticket).registry.removeMember a.room a.conn with
    | none =>
      rw [takeOut_eq_self g hremove]
      exact hrunning
    | some p => exact (takeOut_wanes g hremove).manager.trans hrunning
  · rw [hr]
    exact abandonRooms_attended _

theorem Outcome.attended {op : Operation} (ho : Outcome g l op l') (hb : Bounded limits l)
    (h : Attended l) : Attended l' := by
  cases ho with
  | join conn room buffer => exact hb.join_attended h g conn room buffer
  | joinInVain conn room buffer =>
    exact release_attended (hb.join_attended h g conn room buffer) g l.nextTicket
  | release ticket => exact release_attended h g ticket
  | frame a sender bytes =>
    have hw := command_wanes g a.room (.frame sender bytes) l
    have hn := command_narrows g a.room (.frame sender bytes) (fun _ _ => Command.noConfusion) l
    exact h.narrow hn hw.manager hw.held
  | closeRoom room reason =>
    have hw := closeRoom_wanes g room reason l
    exact h.narrow (closeRoom_narrows g room reason _ l) hw.manager hw.held
  | shutdown reason hrunning =>
    exact attended_of_running ((closeAll_wanes g reason _).manager.trans hrunning)
  | advance ms =>
    have hw := expireDue_wanes g { l with now := l.now + ms }
    exact h.narrow ((expireDue_narrows g _).of_same rfl rfl) hw.manager hw.held
  | dismiss =>
    intro _ x hx
    obtain hsound | hcrashed := hb
    · have hrooms := closeAll_rooms hsound.agrees g "server stopped"
      simp only [hrooms] at hx
      cases hx
    · obtain ⟨y, hy, hkey, -⟩ := (closeAll_narrows g "server stopped" l).members x hx
      have hheld := (closeAll_wanes g "server stopped" l).held
      simp only [hheld, ← hkey]
      exact h (by simp [hcrashed.manager]) y hy
  | queues ms => exact h

theorem run_attended (h : start limits = .ok l) (g : Game σ) (ops : List Operation) :
    Attended (l.run g ops) := by
  induction ops using List.reverseRecOn with
  | nil =>
    obtain ⟨rfl, -⟩ := start_eq h
    exact attended_of_running rfl
  | append_singleton ops op ih =>
    rw [run_concat]
    exact (perform_outcome g _ op).attended (Bounded.run (.inl (sound_start h)) g ops) ih

/-! ## What an operation is about -/

/-- The rooms that an operation is about. -/
inductive Concerns (g : Game σ) (l : Lobby σ) : Operation → RoomId → Prop
  | join {conn : ConnId} {room : Option RoomId} {buffer : Nat} {id : RoomId}
      (hgranted : (l.join g conn room buffer).2.1 = .ok id) :
      Concerns g l (.join conn room buffer) id
  | joinInVain {conn : ConnId} {room : Option RoomId} {buffer : Nat} {id : RoomId}
      (hgranted : (l.join g conn room buffer).2.1 = .ok id) :
      Concerns g l (.joinInVain conn room buffer) id
  | release {ticket : Ticket} {a : Admission} (ha : l.admission? ticket = some a) :
      Concerns g l (.release ticket) a.room
  | send (a : Admission) (sender : ConnId) (bytes : List UInt8) :
      Concerns g l (.send a sender bytes) a.room
  | receive {id : RoomId} {r : Room σ} {m : ConnId × Ticket} (hr : l.rooms.lookup id = some r)
      (hm : m ∈ r.members) : Concerns g l (.receive m.2) id
  | dropMailbox {id : RoomId} {r : Room σ} {m : ConnId × Ticket} (hr : l.rooms.lookup id = some r)
      (hm : m ∈ r.members) : Concerns g l (.dropMailbox m.2) id
  | shutdownRoom (id : RoomId) (reason : String) : Concerns g l (.shutdownRoom id reason) id
  | advance {ms : Nat} {t : Timer} (ht : t ∈ l.timers) (hdue : t.due ≤ l.now + ms) :
      Concerns g l (.advance ms) t.room
  | shutdown (reason : String) (id : RoomId) : Concerns g l (.shutdown reason) id
  | dismiss (id : RoomId) : Concerns g l .dismiss id
  /-- The manager crashes over making a room. -/
  | crash {conn : ConnId} {room : Option RoomId} {buffer : Nat} (id : RoomId)
      (hbefore : l.manager ≠ .crashed)
      (hafter : (l.join g conn room buffer).2.2.manager = .crashed) :
      Concerns g l (.join conn room buffer) id
  | crashInVain {conn : ConnId} {room : Option RoomId} {buffer : Nat} (id : RoomId)
      (hbefore : l.manager ≠ .crashed)
      (hafter : (l.join g conn room buffer).2.2.manager = .crashed) :
      Concerns g l (.joinInVain conn room buffer) id

/-- What an operation does to one room stays there. -/
theorem Wired.perform_spares (h : Wired l) (hb : Bounded limits l) (hw : Waits l)
    (hattended : Attended l) (g : Game σ) {op : Operation} (hid : ¬ Concerns g l op id) :
    Spared id l (l.perform g op) := by
  cases op with
  | join conn room buffer =>
    refine hb.join_spares h g conn room buffer ?_ fun hafter => ?_
    · rintro id' hgranted rfl
      exact hid (.join hgranted)
    · by_contra hbefore
      exact hid (.crash id hbefore hafter)
  | joinInVain conn room buffer =>
    have hjoined := hb.join_wired h g conn room buffer
    have hwaits : Waits (l.join g conn room buffer).2.2 :=
      (hb.join_change g conn room buffer).1.waits hw
    refine (hb.join_spares h g conn room buffer ?_ fun hafter => ?_).trans
      (hjoined.release_spares hwaits (hb.join_attended hattended g conn room buffer) g
        l.nextTicket fun a ha => ?_)
    · rintro id' hgranted rfl
      exact hid (.joinInVain hgranted)
    · by_contra hbefore
      exact hid (.crashInVain id hbefore hafter)
    · rintro rfl
      exact hid (.joinInVain (hb.join_admission? h g conn room buffer ha))
  | release ticket =>
    refine h.release_spares hw hattended g ticket fun a ha => ?_
    rintro rfl
    exact hid (.release ha)
  | send a sender bytes =>
    have hne : id ≠ a.room := by
      rintro rfl
      exact hid (.send a sender bytes)
    simp only [Lobby.perform, Lobby.send]
    split
    · exact h.command_spares g hne (c := .frame sender bytes) trivial
    · exact .refl id l
  | receive ticket =>
    simp only [Lobby.perform, Lobby.receive]
    split
    · exact .refl id l
    · refine spared_changeMailbox (fun _ => _) fun r hr m hm => ?_
      rintro rfl
      exact hid (.receive hr hm)
  | dropMailbox ticket =>
    refine ⟨rfl, rfl, fun r hr m hm => ?_, rfl, rfl⟩
    rw [Lobby.perform, mailbox?_dropMailbox, if_neg]
    rintro rfl
    exact hid (.dropMailbox hr hm)
  | shutdownRoom room reason =>
    have hne : id ≠ room := by
      rintro rfl
      exact hid (.shutdownRoom id reason)
    simp only [Lobby.perform, Lobby.shutdownRoom]
    split
    · exact .refl id l
    · split
      · exact h.closeRoom_spares g hne reason
      · exact .refl id l
  | shutdown reason => exact absurd (.shutdown reason id) hid
  | advance ms =>
    have hlater : Wired { l with now := l.now + ms } := h.same rfl rfl rfl (.refl _)
    refine Spared.trans ?_ (hlater.expireDue_spares g fun t ht hdue => ?_)
    · exact ⟨rfl, rfl, fun _ _ _ _ => rfl, rfl, rfl⟩
    · rintro rfl
      exact hid (.advance ht hdue)
  | dismiss => exact absurd (.dismiss id) hid

end Lobby

end Gamewire
