import Gamewire.Proofs.Room.Isolation

/-! Rooms whose rules fail. An operation that puts a command to the rules of a room does nothing else
that other rooms would notice; when the rules fail over it, the members are told, the room is struck
off, and the next request can have its place. -/
namespace Gamewire
set_option autoImplicit false

namespace Lobby

variable {σ : Type} {g : Game σ} {limits : Limits} {l l' : Lobby σ} {id : RoomId} {r : Room σ}
  {c : Command} {op : Operation}

/-! ## Timers of empty rooms -/

theorem Sound.expire (h : Sound limits l) (g : Game σ) (t : Timer) :
    Sound limits (expire g l t) := by
  unfold Lobby.expire
  split
  · exact h.closeRoom g t.room "room closed"
  · exact h

/-- A grace period ends in a room where there is nobody to tell. -/
theorem Sound.mailbox?_expire (h : Sound limits l) (g : Game σ) (t : Timer) (ticket : Ticket) :
    (Lobby.expire g l t).mailbox? ticket = l.mailbox? ticket := by
  unfold Lobby.expire
  split
  · rename_i hexpired
    obtain ⟨-, hexpired⟩ := hexpired
    unfold Registry.isExpired at hexpired
    split at hexpired
    · rename_i e he
      have hclosing := (Bool.and_eq_true_iff.mp hexpired).1
      have hempty : e.members = [] := by
        have hstate := (h.registry.entry he).state_eq
        rw [beq_iff_eq.mp hclosing] at hstate
        exact List.length_eq_zero_iff.mp (RoomState.ofCount_eq_closing_iff.mp hstate.symm)
      obtain ⟨r, hr, hmembers⟩ := h.agrees.lookup_some he
      have hr' : ({ l with registry := l.registry.remove t.room } : Lobby σ).rooms.lookup t.room =
          some r := hr
      have hnobody : r.members = [] := List.map_eq_nil_iff.mp (hmembers.trans hempty)
      refine mailbox?_command_of_not_mem g hr' ?_ fun _ => Command.noConfusion
      rw [hnobody]
      exact List.not_mem_nil
    · cases hexpired
  · rfl

theorem Sound.mailbox?_expireDue (h : Sound limits l) (g : Game σ) (ticket : Ticket) :
    (Lobby.expireDue g l).mailbox? ticket = l.mailbox? ticket := by
  have hfold : ∀ (ts : List Timer) {l : Lobby σ}, Sound limits l →
      (ts.foldl (Lobby.expire g) l).mailbox? ticket = l.mailbox? ticket := by
    intro ts
    induction ts with
    | nil => exact fun _ => rfl
    | cons t ts ih => exact fun h => (ih (h.expire g t)).trans (h.mailbox?_expire g t ticket)
  have htimers : Sound limits { l with timers := l.timers.filter fun t => ¬ t.due ≤ l.now } :=
    h.alike ⟨rfl, rfl, rfl, rfl, rfl⟩
  exact hfold _ htimers

/-! ## Commands by way of operations -/

/-- A lobby in which the queue of a request is open. -/
def opened (l : Lobby σ) : Operation → Lobby σ
  | .join _ _ buffer | .joinInVain _ _ buffer => (l.openMailbox buffer).2
  | _ => l

/-- An operation makes a room handle a command: a frame, the release of a member, or a request that
is granted, which may have made the room. A request whose connection is gone is a request and a
release. -/
inductive Asks (g : Game σ) (l : Lobby σ) : Operation → RoomId → Room σ → Command → Prop
  | frame {a : Admission} {r : Room σ} (hr : l.rooms.lookup a.room = some r) (sender : ConnId)
      (bytes : List UInt8) : Asks g l (.send a sender bytes) a.room r (.frame sender bytes)
  | leave {ticket : Ticket} {a : Admission} {r : Room σ} (ha : l.admission? ticket = some a)
      (hrunning : l.manager = .running) (hr : l.rooms.lookup a.room = some r) :
      Asks g l (.release ticket) a.room r (.leave a.conn)
  | join {conn : ConnId} {room : Option RoomId} {buffer : Nat} {id : RoomId} {r : Room σ}
      (hgranted : (l.join g conn room buffer).2.1 = .ok id) (hr : l.rooms.lookup id = some r) :
      Asks g l (.join conn room buffer) id r (.join conn l.nextTicket)
  | first {conn : ConnId} {room : Option RoomId} {buffer : Nat} {id : RoomId} {state : σ}
      (hgranted : (l.join g conn room buffer).2.1 = .ok id) (hnew : l.rooms.lookup id = none)
      (hinit : g.logic.init id = some state) :
      Asks g l (.join conn room buffer) id { id := id, state := state } (.join conn l.nextTicket)

/-- The lobby `m` in which a room handles the command of an operation. -/
structure Handles (g : Game σ) (limits : Limits) (l : Lobby σ) (op : Operation) (id : RoomId)
    (r : Room σ) (c : Command) (m : Lobby σ) : Prop where
  wired : Wired m
  admissible : m.Admissible c
  room : m.rooms.lookup id = some r
  mailboxes : m.mailboxes = (l.opened op).mailboxes
  running : l.manager ≠ .crashed → m.manager = .running ∧ m.shuttingDown = false
  live : l.manager ≠ .crashed → ∃ e, m.registry.rooms.lookup id = some e
  space : l.manager ≠ .crashed → m.registry.rooms.length ≤ limits.maxRooms
  waits : Waits m
  /-- If nobody is left in the room its timer is set. -/
  done : l.perform g op = command g id c m ∨
    ∃ t : Timer, t.room = id ∧ Sound limits (command g id c m) ∧ l.perform g op =
      expireDue g { command g id c m with timers := (command g id c m).timers ++ [t] }

theorem Bounded.sound (hb : Bounded limits l) (hmanager : l.manager ≠ .crashed) : Sound limits l :=
  hb.resolve_right fun hcrashed => hmanager hcrashed.manager

/-- Where there is a room, somebody decides on admissions. -/
theorem Sound.running_of_lookup (h : Sound limits l) {e : Entry}
    (he : l.registry.rooms.lookup id = some e) : l.manager = .running ∧ l.shuttingDown = false := by
  have hopen : ¬ l.Stopped := by
    intro hstopped
    rw [h.closed hstopped] at he
    cases he
  obtain ⟨hshutting, hgone⟩ := not_or.mp hopen
  refine ⟨?_, Bool.eq_false_iff.mpr hshutting⟩
  cases hmanager : l.manager with
  | running => rfl
  | gone => exact absurd hmanager hgone
  | crashed => exact absurd hmanager h.manager

theorem Asks.handles_frame (hb : Bounded limits l) (h : Wired l) (hw : Waits l) {a : Admission}
    (hr : l.rooms.lookup a.room = some r) (sender : ConnId) (bytes : List UInt8) :
    Handles g limits l (.send a sender bytes) a.room r (.frame sender bytes) l := by
  refine ⟨h, trivial, hr, rfl, ?_, ?_, ?_, hw, .inl ?_⟩
  · intro hmanager
    obtain ⟨e, he, -⟩ := (hb.sound hmanager).agrees.lookup_live hr
    exact (hb.sound hmanager).running_of_lookup he
  · intro hmanager
    obtain ⟨e, he, -⟩ := (hb.sound hmanager).agrees.lookup_live hr
    exact ⟨e, he⟩
  · intro hmanager
    rw [← (hb.sound hmanager).maxRooms]
    exact (hb.sound hmanager).registry.length_le
  · simp only [Lobby.perform, Lobby.send, hr]

theorem Asks.handles_leave (hb : Bounded limits l) (h : Wired l) (hw : Waits l) {ticket : Ticket}
    {a : Admission} (ha : l.admission? ticket = some a) (hrunning : l.manager = .running)
    (hr : l.rooms.lookup a.room = some r) (hmember : a.conn ∈ r.connections) :
    ∃ m, Handles g limits l (.release ticket) a.room r (.leave a.conn) m := by
  have hsound := hb.sound (by simp [hrunning])
  have hfree : Sound limits (l.free ticket) := hsound.alike ⟨rfl, rfl, rfl, rfl, rfl⟩
  cases hremove : (l.free ticket).registry.removeMember a.room a.conn with
  | none =>
    -- the register knows the members of the room
    obtain ⟨e, he, hmembers⟩ := hsound.agrees.lookup_live hr
    exact absurd (hmembers ▸ hmember) (Registry.removeMember_eq_none.mp hremove e he)
  | some p =>
    obtain ⟨e, registry⟩ := p
    obtain ⟨e₀, he₀, -, hregistry, -, -⟩ := Registry.removeMember_eq_some hremove
    have hrelease : l.perform g (.release ticket) = (l.free ticket).takeOut g a := by
      obtain ⟨hnone, -⟩ | ⟨a', ha', ⟨-, hr⟩ | ⟨hidle, -⟩⟩ := release_cases g ticket l
      · rw [ha] at hnone
        cases hnone
      · rw [ha] at ha'
        cases ha'
        exact hr
      · exact absurd hrunning hidle
    have hstruck : Kept limits { l.free ticket with registry := registry } := by
      refine ⟨⟨hsound.limits_eq, ?_, ?_, hsound.positive⟩,
        Registry.sound_removeMember hsound.registry hremove, hsound.manager, fun hclosed => ?_⟩
      · rw [hregistry]
        exact hsound.maxRooms
      · rw [hregistry]
        exact hsound.capacity
      · have hnil : (l.free ticket).registry.rooms = [] := hsound.closed hclosed
        rw [hnil] at he₀
        cases he₀
    refine ⟨{ l.free ticket with registry := registry }, ?_, trivial, hr, rfl, ?_, ?_, ?_, hw, ?_⟩
    · exact (h.free ticket).same rfl rfl rfl (.refl _)
    · exact fun _ => hfree.running_of_lookup he₀
    · intro _
      exact ⟨e, Registry.lookup_removeMember hremove⟩
    · intro _
      rw [← hstruck.maxRooms]
      exact hstruck.registry.length_le
    · rw [hrelease]
      obtain ⟨-, ht⟩ | ⟨left, rfl, -, ht⟩ := takeOut_cases g hremove
      · exact .inl ht
      · refine .inr ⟨_, rfl, ?_, ht⟩
        exact ⟨hstruck.wane (command_wanes g a.room _ _), agrees_leave hfree.agrees hremove g⟩

theorem Asks.handles_join (hb : Bounded limits l) (h : Wired l) (hw : Waits l) {conn : ConnId}
    {room : Option RoomId} {buffer : Nat} (hgranted : (l.join g conn room buffer).2.1 = .ok id)
    (hr : l.rooms.lookup id = some r ∨ (l.rooms.lookup id = none ∧
      ∃ state, g.logic.init id = some state ∧ r = { id := id, state := state })) :
    ∃ m, Handles g limits l (.join conn room buffer) id r (.join conn l.nextTicket) m := by
  obtain ⟨e, hj⟩ | ⟨id', l', hready, hl', hj⟩ | hj := hb.join_cases g conn room buffer
  · rw [hj] at hgranted
    cases hgranted
  · have hsame : id' = id := by
      rw [hj] at hgranted
      cases hgranted
      rfl
    subst hsame
    obtain ⟨hentering, hadmissible⟩ := h.entering hready hl' conn
    obtain ⟨-, -, -, hmailboxes, -, htimers, -⟩ := h.place hready hl'
    obtain ⟨e, he, -⟩ := hready.space
    obtain ⟨generation, hadd⟩ := Registry.addMember_of_lookup he conn
    have hlive : l'.rooms.lookup id' = some r := by
      obtain ⟨r', hr', -⟩ := hready.agrees.lookup_some he
      obtain rfl | hcreate := hl'
      · obtain hr | ⟨hnew, -⟩ := hr
        · exact hr
        · have hnone : (l.openMailbox buffer).2.rooms.lookup id' = none := hnew
          rw [hnone] at hr'
          cases hr'
      · have hnodup := hready.rooms_nodup
        obtain ⟨registry, state, -, hinit, rfl⟩ := createRoom_eq_some hcreate
        have hmade : (id', { id := id', state := state }) ∈
            l.rooms ++ [(id', ({ id := id', state := state } : Room σ))] :=
          List.mem_append_right _ List.mem_cons_self
        obtain hr | ⟨-, state', hinit', rfl⟩ := hr
        · exact lookup_of_mem hnodup (List.mem_append_left _ (mem_of_lookup hr))
        · rw [hinit] at hinit'
          cases hinit'
          exact lookup_of_mem hnodup hmade
    have hnow : l'.now = l.now := by
      obtain rfl | hcreate := hl'
      · rfl
      · obtain ⟨registry, state, -, -, rfl⟩ := createRoom_eq_some hcreate
        rfl
    refine ⟨l'.entering id' conn l.nextTicket, hentering, hadmissible, hlive, hmailboxes,
      fun _ => ⟨hready.manager, hready.shuttingDown⟩, ?_, ?_, ?_, .inl ?_⟩
    · intro _
      simp only [Lobby.entering, hadd, Registry.lookup_setEntry, if_true, he]
      exact ⟨_, rfl⟩
    · intro _
      simp only [Lobby.entering, hadd, Registry.setEntry, List.length_map]
      rw [← hready.maxRooms]
      exact hready.ordered.length_le
    · intro t ht
      have hset : t ∈ l'.timers := ht
      rw [htimers] at hset
      exact Nat.lt_of_le_of_lt (Nat.le_of_eq hnow) (hw t hset)
    · rw [Lobby.perform, hj, enter_eq]
  · rw [hj] at hgranted
    cases hgranted

/-- A request that is granted asks the room into which it is let. -/
theorem Ready.asks_join (h : Ready limits id l') {conn : ConnId} {room : Option RoomId} {buffer : Nat}
    (hl' : l' = (l.openMailbox buffer).2 ∨ (l.openMailbox buffer).2.createRoom g = some (id, l'))
    (hgranted : (l.join g conn room buffer).2.1 = .ok id) :
    ∃ r, Asks g l (.join conn room buffer) id r (.join conn l.nextTicket) := by
  cases hr : l.rooms.lookup id with
  | some r => exact ⟨r, .join hgranted hr⟩
  | none =>
    obtain ⟨r', hr'⟩ := h.lookup_room
    obtain rfl | hcreate := hl'
    · cases hr.symm.trans hr'
    · obtain ⟨registry, state, -, hinit, -⟩ := createRoom_eq_some hcreate
      exact ⟨_, .first hgranted hr hinit⟩

/-- A release that asks no room frees an admission, and at most lets go of all rooms. -/
theorem Bounded.release_of_unasked (hb : Bounded limits l) (g : Game σ) (ticket : Ticket)
    (hunasked : ¬ ∃ id r c v, Asks g l (.release ticket) id r c ∧ r.verdict? g c = some v) :
    l.release g ticket = l.free ticket ∨ l.release g ticket = (l.free ticket).abandonRooms := by
  obtain ⟨hnone, hr⟩ | ⟨a, ha, ⟨hrunning, hr⟩ | ⟨-, hr⟩⟩ := release_cases g ticket l
  · exact .inl (hr.trans (free_of_admission?_none hnone).symm)
  · -- whoever is not in the room is not in the register either
    have hremove : (l.free ticket).registry.removeMember a.room a.conn = none := by
      refine Registry.removeMember_eq_none.mpr fun e he hmember => hunasked ?_
      obtain ⟨r, hlookup, hmembers⟩ := (hb.sound (by simp [hrunning])).agrees.lookup_some he
      rw [← hmembers] at hmember
      exact ⟨a.room, r, .leave a.conn, _, .leave ha hrunning hlookup, if_pos hmember⟩
    exact .inl (hr.trans (takeOut_eq_self g hremove))
  · exact .inr hr

/-- Rules that are asked are asked in a lobby that is in order. -/
theorem Asks.handles (hask : Asks g l op id r c) (hb : Bounded limits l) (h : Wired l)
    (hw : Waits l) {v : Verdict σ} (hv : r.verdict? g c = some v) :
    ∃ m, Handles g limits l op id r c m := by
  cases hask with
  | frame hr sender bytes => exact ⟨l, Asks.handles_frame hb h hw hr sender bytes⟩
  | leave ha hrunning hr =>
    refine Asks.handles_leave hb h hw ha hrunning hr ?_
    by_contra hmember
    rw [Room.verdict?, if_neg hmember] at hv
    cases hv
  | join hgranted hr => exact Asks.handles_join hb h hw hgranted (.inl hr)
  | first hgranted hnew hinit =>
    exact Asks.handles_join hb h hw hgranted (.inr ⟨hnew, _, hinit, rfl⟩)

/-! ## Rooms that end over a command -/

/-- The timer of a room that is gone does nothing. -/
theorem Waits.expireDue_gone (h : Waits l) (g : Game σ) {t : Timer}
    (hgone : l.registry.rooms.lookup t.room = none) :
    (expireDue g { l with timers := l.timers ++ [t] }).registry = l.registry ∧
      (expireDue g { l with timers := l.timers ++ [t] }).rooms = l.rooms ∧
      (expireDue g { l with timers := l.timers ++ [t] }).mailboxes = l.mailboxes := by
  unfold expireDue
  simp only
  rw [h.due_eq]
  split
  · rw [List.foldl_cons, List.foldl_nil]
    unfold expire
    rw [if_neg]
    · exact ⟨rfl, rfl, rfl⟩
    · rintro ⟨-, hexpired⟩
      unfold Registry.isExpired at hexpired
      simp only [hgone] at hexpired
      cases hexpired
  · exact ⟨rfl, rfl, rfl⟩

theorem Handles.steady {m : Lobby σ} (h : Handles g limits l op id r c m) :
    (l.perform g op).manager = m.manager ∧ (l.perform g op).shuttingDown = m.shuttingDown := by
  have hw := command_wanes g id c m
  obtain hdone | ⟨t, -, -, hdone⟩ := h.done
  · rw [hdone]
    exact ⟨hw.manager, hw.shuttingDown⟩
  · have hlater := expireDue_wanes g
      { command g id c m with timers := (command g id c m).timers ++ [t] }
    rw [hdone]
    exact ⟨hlater.manager.trans hw.manager, hlater.shuttingDown.trans hw.shuttingDown⟩

/-- What an operation leaves of a room that ends over its command. -/
theorem Handles.over {m : Lobby σ} (h : Handles g limits l op id r c m)
    (hover : (r.step g c).1 = none) :
    (l.perform g op).registry = m.registry.remove id ∧
      (l.perform g op).rooms = m.rooms.filter (·.1 != id) ∧
      (∀ t, (l.perform g op).mailbox? t =
        ((l.opened op).mailbox? t).map (Mailbox.after t (r.step g c).2)) := by
  have hcommand : (command g id c m).registry = m.registry.remove id ∧
      (command g id c m).rooms = m.rooms.filter (·.1 != id) := by
    obtain ⟨hnone, -⟩ | ⟨r₀, r', ms, hr, hstep, -⟩ | ⟨r₀, ms, -, -, hc⟩ := command_cases g id c m
    · rw [h.room] at hnone
      cases hnone
    · rw [h.room] at hr
      cases hr
      rw [hover] at hstep
      cases hstep
    · rw [hc]
      exact ⟨rfl, rfl⟩
  have hqueues : ∀ t, (command g id c m).mailbox? t =
      ((l.opened op).mailbox? t).map (Mailbox.after t (r.step g c).2) := by
    intro t
    rw [mailbox?_command g c h.room]
    unfold mailbox?
    rw [h.mailboxes]
  obtain hdone | ⟨t, rfl, -, hdone⟩ := h.done
  · rw [hdone]
    exact ⟨hcommand.1, hcommand.2, hqueues⟩
  · have hgone : (command g t.room c m).registry.rooms.lookup t.room = none := by
      rw [hcommand.1, Registry.remove, lookup_drop, if_pos rfl]
    have hwaits : Waits (command g t.room c m) := (command_still g t.room c m).waits h.waits
    obtain ⟨hregistry, hrooms, hmailboxes⟩ := hwaits.expireDue_gone g hgone
    rw [hdone]
    refine ⟨hregistry.trans hcommand.1, hrooms.trans hcommand.2, fun ticket => ?_⟩
    rw [← hqueues ticket]
    exact congrArg (List.lookup ticket) hmailboxes

/-- There is a place for another room. Nobody hears that the server is full, and whoever does not ask
for a live room is let in, as long as a room can be made at all. -/
structure Vacant (g : Game σ) (limits : Limits) (l : Lobby σ) : Prop where
  space : l.registry.rooms.length < limits.maxRooms
  notFull : ∀ conn requested buffer, (l.join g conn requested buffer).2.1 ≠ .error .serverFull
  served : ∀ conn requested buffer, l.registry.nextId < UInt32.size →
    g.logic.init (UInt32.ofNat l.registry.nextId) ≠ none →
    (∀ id ∈ requested, l.registry.rooms.lookup id = none) →
    ∃ id, (l.join g conn requested buffer).2.1 = .ok id

theorem choose_ne_serverFull {reg : Registry} (hlt : reg.rooms.length < reg.maxRooms)
    (requested : Option RoomId) : reg.choose requested ≠ .error .serverFull := by
  unfold Registry.choose
  split
  · split
    · simp
    · simp
  · split
    · simp
    · rw [if_pos hlt]
      simp

theorem Sound.vacant (h : Sound limits l) (hrunning : l.manager = .running)
    (hopen : l.shuttingDown = false) (hlt : l.registry.rooms.length < limits.maxRooms) (g : Game σ) :
    Vacant g limits l := by
  refine ⟨hlt, fun conn requested buffer hfull => ?_, fun conn requested buffer hnumber hinit hnone => ?_⟩
  · have hopened : Sound limits (l.openMailbox buffer).2 := h.alike (openMailbox_alike buffer l)
    have hrunning' : (l.openMailbox buffer).2.manager = .running := hrunning
    have hopen' : (l.openMailbox buffer).2.shuttingDown = false := hopen
    rw [join_eq, place_eq, hrunning', hopen', if_neg (by simp), if_neg (by simp)] at hfull
    cases hchoose : (l.openMailbox buffer).2.registry.choose requested with
    | error e =>
      rw [seat_of_error hchoose] at hfull
      cases hfull
      refine choose_ne_serverFull ?_ requested hchoose
      rw [hopened.maxRooms]
      exact hlt
    | ok slot =>
      cases slot with
      | new =>
        rw [seat_of_new hchoose] at hfull
        cases hcreate : (l.openMailbox buffer).2.createRoom g <;> simp [hcreate, refuse] at hfull
      | existing id =>
        obtain ⟨e, he, -⟩ := (hopened.ready hrunning' hopen' hchoose).space
        obtain ⟨r, hr, -⟩ := hopened.agrees.lookup_some he
        rw [seat_of_existing hchoose, hr] at hfull
        cases hfull
  · have hmade : l.registry.nextId = (l.registry.nextId - 1) + 1 :=
      (Nat.sub_add_cancel h.registry.nextId_pos).symm
    have hserved := h.join_served hrunning hopen hmade hnumber conn requested buffer
      fun hbroken => absurd hbroken hinit
    have hdecided := (hserved.decided _).mp rfl
    cases hanswer : (l.join g conn requested buffer).2.1 with
    | ok id => exact ⟨id, rfl⟩
    | error e =>
      rw [hanswer] at hdecided
      cases hdecided with
      | namedFull hlive =>
        obtain ⟨e, he, -⟩ := Registry.mem_counts hlive
        have hlookup := lookup_of_mem h.registry.toOrdered.nodup he
        rw [hnone _ rfl] at hlookup
        cases hlookup
      | serverFull _ _ hrooms =>
        rw [Registry.length_counts] at hrooms
        exact absurd hrooms (Nat.ne_of_lt hlt)

/-- What becomes of a room whose rules fail over a command: it is gone, its members have a notice, and
nothing else comes of it. Before that they had none. -/
structure Collapses (g : Game σ) (limits : Limits) (id : RoomId) (r : Room σ) (c : Command)
    (l l' : Lobby σ) : Prop where
  struck : l'.registry.rooms.lookup id = none
  gone : l'.rooms.lookup id = none
  told : ∀ m ∈ (r.gathered c).members, ∀ q, l.mailbox? m.2 = some q → q.notice = none ∧
    l'.mailbox? m.2 = some { q with notice := some faultReason, connected := false }
  /-- Who is taken out of the room in the same step is not told. -/
  parted : ∀ t ∈ r.parting c, l'.mailbox? t = (l.mailbox? t).map Mailbox.disconnect
  others : ∀ t, t ∉ (r.gathered c).members.map (·.2) → t ∉ r.parting c →
    l'.mailbox? t = l.mailbox? t
  vacant : l.manager ≠ .crashed → Vacant g limits l'

theorem Handles.collapses {m : Lobby σ} (h : Handles g limits l op id r c m)
    (hb : Bounded limits l) {text : String} (hv : r.verdict? g c = some (.fault text)) :
    Collapses g limits id r c (l.opened op) (l.perform g op) := by
  have hstep := Room.step_of_verdict hv
  have hover : (r.step g c).1 = none := by
    rw [hstep]
    rfl
  have heffects : (r.step g c).2 = (r.parting c).map Effect.disconnect ++
      (r.gathered c).members.map fun m => .close m.2 faultReason := by
    rw [hstep]
    rfl
  obtain ⟨hregistry, hrooms, hqueues⟩ := h.over hover
  have hlive := mem_of_lookup h.room
  have hafter : ∀ t q, Mailbox.after t (r.step g c).2 q =
      if t ∈ (r.gathered c).members.map (·.2) then q.close faultReason
      else if t ∈ r.parting c then q.disconnect else q := by
    intro t q
    rw [heffects, Mailbox.after_append, Mailbox.after_close, Mailbox.after_disconnect]
    split
    · rename_i hmem
      have hnot : t ∉ r.parting c := fun hparted =>
        h.wired.parting_disjoint hlive h.admissible hparted hmem
      rw [if_neg hnot]
    · rfl
  have hsame : ∀ t, m.mailbox? t = (l.opened op).mailbox? t :=
    fun t => congrArg (List.lookup t) h.mailboxes
  refine ⟨?_, ?_, ?_, ?_, ?_, ?_⟩
  · rw [hregistry, Registry.remove, lookup_drop, if_pos rfl]
  · rw [hrooms, lookup_drop, if_pos rfl]
  · intro n hn q hq
    refine ⟨?_, ?_⟩
    · rw [← hsame] at hq
      obtain hmember | hjoin := Room.mem_gathered hn
      · exact (h.wired.linked (id, r) hlive n hmember q hq).1
      · have hadmissible := h.admissible
        rw [hjoin] at hadmissible
        exact (hadmissible.2.2 q hq).1
    · rw [hqueues, hq, Option.map_some, hafter, if_pos (List.mem_map_of_mem hn)]
      rfl
  · intro t ht
    have hnot := h.wired.parting_disjoint hlive h.admissible ht
    rw [hqueues]
    refine congrArg (fun f => ((l.opened op).mailbox? t).map f) (funext fun q => ?_)
    rw [hafter, if_neg hnot, if_pos ht]
  · intro t hmember hparted
    rw [hqueues]
    cases (l.opened op).mailbox? t with
    | none => rfl
    | some q => rw [Option.map_some, hafter, if_neg hmember, if_neg hparted]
  · intro hmanager
    have hmanager : l.manager ≠ .crashed := by
      cases op <;> exact hmanager
    obtain ⟨hrunning, hopen⟩ := h.running hmanager
    obtain ⟨hmanager', hshutting'⟩ := h.steady
    have hsound : Sound limits (l.perform g op) :=
      (hb.perform g op).sound (by simp [hmanager', hrunning])
    obtain ⟨e, he⟩ := h.live hmanager
    refine hsound.vacant (hmanager'.trans hrunning) (hshutting'.trans hopen) ?_ g
    rw [hregistry]
    exact Nat.lt_of_lt_of_le (Registry.length_remove_lt (mem_of_lookup he)) (h.space hmanager)

/-- In every lobby that can come about an operation leaves all rooms alone that it is not about: a
frame, a release, the end of a grace period or the closing of a room is about one room, whatever its
rules do. When the rules of a room fail over an operation, it is that room that collapses. -/
theorem run_isolation (h : start limits = .ok l) (g : Game σ) (ops : List Operation)
    (op : Operation) :
    (∀ id, ¬ Concerns g (l.run g ops) op id →
      Spared id (l.run g ops) ((l.run g ops).perform g op)) ∧
    ∀ id r c text, Asks g (l.run g ops) op id r c → r.verdict? g c = some (.fault text) →
      Collapses g limits id r c ((l.run g ops).opened op) ((l.run g ops).perform g op) := by
  have hb := Bounded.run (.inl (sound_start h)) g ops
  have hwired := run_wired h g ops
  have hwaits := (run_paced h g ops).waits
  constructor
  · exact fun id hid => hwired.perform_spares hb hwaits (run_attended h g ops) g hid
  · intro id r c text hask hv
    obtain ⟨m, hhandles⟩ := hask.handles hb hwired hwaits hv
    exact hhandles.collapses hb hv

/-! Two rooms, whose rules fail over every message. -/

def brittleGame : Game Unit :=
  ⟨chatProtocol, { Logic.relay with onMessage := fun _ _ _ _ => .fault "no such move" }⟩

def twinLimits : Limits := { maxRooms := 2, maxMembers := 1 }

def twinLobby : Lobby Unit :=
  (ofLimits twinLimits).run brittleGame [.join 7 none 1, .join 8 none 1]

theorem run_isolation_twinLobby :
    start twinLimits = .ok (ofLimits (σ := Unit) twinLimits) ∧
      twinLobby.rooms.lookup 1 = some ⟨1, (), [(7, 0)]⟩ ∧
      Spared 2 twinLobby (twinLobby.perform brittleGame (.send ⟨0, 1, 7⟩ 7 [1, 5])) ∧
      Collapses brittleGame twinLimits 1 ⟨1, (), [(7, 0)]⟩ (.frame 7 [1, 5]) twinLobby
        (twinLobby.perform brittleGame (.send ⟨0, 1, 7⟩ 7 [1, 5])) := by
  have hstart : start twinLimits = .ok (ofLimits (σ := Unit) twinLimits) := rfl
  have hroom : twinLobby.rooms.lookup 1 = some ⟨1, (), [(7, 0)]⟩ := by cbv
  obtain ⟨hspared, hcollapses⟩ := run_isolation hstart brittleGame
    [.join 7 none 1, .join 8 none 1] (.send ⟨0, 1, 7⟩ 7 [1, 5])
  refine ⟨hstart, hroom, hspared 2 ?_, ?_⟩
  · generalize hid : (2 : RoomId) = id
    intro hconcerns
    cases hconcerns with
    | send => exact absurd hid (by decide)
  · have hmember : (7 : ConnId) ∈ Room.connections ⟨1, (), [(7, 0)]⟩ := List.mem_cons_self
    have hdecode : Room.clientMessage? chatProtocol [1, 5] = some ⟨1, [some (.int 5)]⟩ := by cbv
    refine hcollapses 1 _ _ "no such move" (.frame (a := ⟨0, 1, 7⟩) hroom 7 [1, 5]) ?_
    simp only [Room.verdict?, if_pos hmember, brittleGame, hdecode, Option.map_some]

end Lobby

end Gamewire
