import Gamewire.Proofs.Room.Sound
import Gamewire.Room.Backlog

/-! How a connection gets its place. There are three ends: the request is refused, the connection is
let into a room with space that was there or was just made, or the manager crashes over making one. -/
namespace Gamewire
set_option autoImplicit false

namespace Lobby

variable {σ : Type} {g : Game σ} {limits : Limits} {l l' : Lobby σ} {id : RoomId}

/-! ## Admissions -/

/-- A lobby that is about to let a connection into a room with space. The entry of a room that was
just made is not in order before its first member is there. -/
structure Ready (limits : Limits) (id : RoomId) (l : Lobby σ) : Prop extends Sized limits l where
  ordered : l.registry.Ordered
  others : ∀ x ∈ l.registry.rooms, x.1 ≠ id → x.2.Sound l.registry.capacity
  space : ∃ e, l.registry.rooms.lookup id = some e ∧ e.members.Pairwise (· < ·) ∧
    e.members.length < l.registry.capacity
  agrees : l.Agrees
  manager : l.manager = .running
  shuttingDown : l.shuttingDown = false

theorem Ready.enter (h : Ready limits id l) (g : Game σ) (conn : ConnId) (ticket : Ticket) :
    Sound limits (l.enter g id conn ticket) := by
  obtain ⟨e, he, hsorted, hspace⟩ := h.space
  have hsound := Registry.sound_addMember h.ordered h.others he hsorted hspace conn
  have hagrees := agrees_enter h.agrees he g conn ticket
  obtain ⟨generation, hadd⟩ := Registry.addMember_of_lookup he conn
  have hkept : Kept limits { l with
      registry := l.registry.addMember id conn
      held := ⟨ticket, id, conn⟩ :: l.held } := by
    refine ⟨⟨h.limits_eq, ?_, ?_, h.positive⟩, hsound, by simp [h.manager], ?_⟩
    · rw [hadd]
      exact h.maxRooms
    · rw [hadd]
      exact h.capacity
    · simp [Stopped, h.manager, h.shuttingDown]
  exact ⟨hkept.wane (command_wanes g id (.join conn ticket) _), hagrees⟩

theorem Sound.ready (h : Sound limits l) (hrunning : l.manager = .running)
    (hopen : l.shuttingDown = false) {requested : Option RoomId}
    (hchoose : l.registry.choose requested = .ok (.existing id)) : Ready limits id l := by
  obtain ⟨e, he, hspace⟩ := Registry.lookup_of_choose h.registry.toOrdered hchoose
  have hothers := fun x hx (_ : x.1 ≠ id) => h.registry.entries x hx
  exact ⟨h.toSized, h.registry.toOrdered, hothers, ⟨e, he, (h.registry.entry he).ascending, hspace⟩,
    h.agrees, hrunning, hopen⟩

/-- The room into which a connection is let runs. -/
theorem Ready.lookup_room (h : Ready limits id l) : ∃ r, l.rooms.lookup id = some r := by
  obtain ⟨e, he, -⟩ := h.space
  obtain ⟨r, hr, -⟩ := h.agrees.lookup_some he
  exact ⟨r, hr⟩

theorem createRoom_eq_some (h : l.createRoom g = some (id, l')) :
    ∃ registry state, l.registry.create = some (id, registry) ∧ g.logic.init id = some state ∧
      l' = { l with registry := registry, rooms := l.rooms ++ [(id, { id := id, state := state })] } := by
  unfold createRoom at h
  split at h
  · cases h
  · rename_i id' registry hcreate
    split at h
    · rename_i state hinit
      cases h
      exact ⟨registry, state, hcreate, hinit, rfl⟩
    · cases h

theorem createRoom_eq_none (h : l.createRoom g = none) :
    UInt32.size ≤ l.registry.nextId ∨ ∃ id, g.logic.init id = none := by
  unfold createRoom at h
  split at h
  · rename_i hcreate
    unfold Registry.create at hcreate
    split at hcreate
    · cases hcreate
    · exact .inl (by omega)
  · rename_i id' registry hcreate
    split at h
    · cases h
    · rename_i hinit
      exact .inr ⟨id', hinit⟩

theorem Sound.ready_new (h : Sound limits l) (hrunning : l.manager = .running)
    (hopen : l.shuttingDown = false) {requested : Option RoomId}
    (hchoose : l.registry.choose requested = .ok .new)
    (hcreate : l.createRoom g = some (id, l')) : Ready limits id l' := by
  obtain ⟨registry, state, hreg, -, rfl⟩ := createRoom_eq_some hcreate
  have hspace := Registry.lt_of_choose_new hchoose
  have hordered := Registry.ordered_create h.registry.toOrdered hspace hreg
  have hnew := Registry.lookup_create h.registry.toOrdered hreg
  obtain ⟨-, rfl⟩ := Registry.create_eq_some hreg
  refine ⟨⟨h.limits_eq, h.maxRooms, h.capacity, h.positive⟩, hordered, ?_, ?_, ?_, hrunning, hopen⟩
  · intro x hx hne
    obtain hx | hx := List.mem_append.mp hx
    · exact h.registry.entries x hx
    · rw [List.mem_singleton.mp hx] at hne
      exact absurd rfl hne
  · refine ⟨_, hnew, List.Pairwise.nil, ?_⟩
    simp only [h.capacity]
    exact h.positive
  · rw [Agrees, Registry.roster, roster, List.map_append, List.map_append]
    exact congrArg (· ++ [(id, [])]) h.agrees

section

variable {conn : ConnId} {requested : Option RoomId} {ticket : Ticket}

theorem seatBy_of_error {e : AdmissionFault} (h : l.registry.choose requested = .error e) (g : Game σ)
    (letIn : RoomId → Lobby σ → Lobby σ) : l.seatBy g letIn requested ticket = l.refuse ticket e := by
  rw [seatBy]
  split <;> rename_i h' <;> cases h.symm.trans h'
  rfl

theorem seatBy_of_new (h : l.registry.choose requested = .ok .new) (g : Game σ)
    (letIn : RoomId → Lobby σ → Lobby σ) : l.seatBy g letIn requested ticket =
      match l.createRoom g with
      | some (id, l) => (.ok id, letIn id l)
      | none => l.crash.refuse ticket .unavailable := by
  rw [seatBy]
  split <;> rename_i h' <;> cases h.symm.trans h'
  rfl

theorem seatBy_of_existing (h : l.registry.choose requested = .ok (.existing id)) (g : Game σ)
    (letIn : RoomId → Lobby σ → Lobby σ) : l.seatBy g letIn requested ticket =
      match l.rooms.lookup id with
      | some _ => (.ok id, letIn id l)
      | none => seatBy g letIn requested ticket { l with registry := l.registry.remove id } := by
  rw [seatBy]
  split <;> rename_i h' <;> cases h.symm.trans h'
  rfl

theorem seat_of_error {e : AdmissionFault} (h : l.registry.choose requested = .error e) (g : Game σ) :
    l.seat g conn requested ticket = l.refuse ticket e := seatBy_of_error h g _

theorem seat_of_new (h : l.registry.choose requested = .ok .new) (g : Game σ) :
    l.seat g conn requested ticket =
      match l.createRoom g with
      | some (id, l) => (.ok id, l.enter g id conn ticket)
      | none => l.crash.refuse ticket .unavailable := seatBy_of_new h g _

theorem seat_of_existing (h : l.registry.choose requested = .ok (.existing id)) (g : Game σ) :
    l.seat g conn requested ticket =
      match l.rooms.lookup id with
      | some _ => (.ok id, l.enter g id conn ticket)
      | none => seat g conn requested ticket { l with registry := l.registry.remove id } :=
  seatBy_of_existing h g _

theorem place_eq (g : Game σ) (conn : ConnId) (requested : Option RoomId) (ticket : Ticket)
    (l : Lobby σ) : l.place g conn requested ticket =
      if l.manager ≠ .running then l.refuse ticket .unavailable
      else if l.shuttingDown then l.refuse ticket .shuttingDown
      else l.seat g conn requested ticket := rfl

end

/-- Where a connection ends up that may have a place. A chosen room runs, so the search for one
never starts again. -/
theorem seat_cases (h : Sound limits l) (hrunning : l.manager = .running)
    (hopen : l.shuttingDown = false) (g : Game σ) (conn : ConnId) (requested : Option RoomId)
    (ticket : Ticket) :
    (∃ e, l.seat g conn requested ticket = l.refuse ticket e) ∨
      (∃ id l', Ready limits id l' ∧ (l' = l ∨ l.createRoom g = some (id, l')) ∧
        l.seat g conn requested ticket = (.ok id, l'.enter g id conn ticket)) ∨
      (l.createRoom g = none ∧
        l.seat g conn requested ticket = l.crash.refuse ticket .unavailable) := by
  cases hchoose : l.registry.choose requested with
  | error e => exact .inl ⟨e, seat_of_error hchoose g⟩
  | ok slot =>
    cases slot with
    | new =>
      rw [seat_of_new hchoose]
      cases hcreate : l.createRoom g with
      | none => exact .inr (.inr ⟨rfl, rfl⟩)
      | some made =>
        have hready := h.ready_new hrunning hopen hchoose hcreate
        exact .inr (.inl ⟨made.1, made.2, hready, .inr rfl, rfl⟩)
    | existing id =>
      have hready := h.ready hrunning hopen hchoose
      obtain ⟨r, hr⟩ := hready.lookup_room
      rw [seat_of_existing hchoose, hr]
      exact .inr (.inl ⟨id, l, hready, .inl rfl, rfl⟩)

theorem place_cases (h : Sound limits l) (g : Game σ) (conn : ConnId) (requested : Option RoomId)
    (ticket : Ticket) :
    (∃ e, l.place g conn requested ticket = l.refuse ticket e) ∨
      (∃ id l', Ready limits id l' ∧ (l' = l ∨ l.createRoom g = some (id, l')) ∧
        l.place g conn requested ticket = (.ok id, l'.enter g id conn ticket)) ∨
      (l.manager = .running ∧ l.shuttingDown = false ∧ l.createRoom g = none ∧
        l.place g conn requested ticket = l.crash.refuse ticket .unavailable) := by
  rw [place_eq]
  by_cases hrunning : l.manager = .running
  · by_cases hshut : l.shuttingDown = true
    · rw [if_neg (not_not_intro hrunning), if_pos hshut]
      exact .inl ⟨.shuttingDown, rfl⟩
    · have hopen : l.shuttingDown = false := Bool.eq_false_iff.mpr hshut
      rw [if_neg (not_not_intro hrunning), if_neg hshut]
      obtain hs | hs | ⟨hcreate, hs⟩ := seat_cases h hrunning hopen g conn requested ticket
      · exact .inl hs
      · exact .inr (.inl hs)
      · exact .inr (.inr ⟨hrunning, hopen, hcreate, hs⟩)
  · rw [if_pos hrunning]
    exact .inl ⟨.unavailable, rfl⟩

theorem join_eq (g : Game σ) (conn : ConnId) (requested : Option RoomId) (buffer : Nat)
    (l : Lobby σ) : l.join g conn requested buffer =
      (l.nextTicket, (l.openMailbox buffer).2.place g conn requested l.nextTicket) := rfl

theorem Bounded.join (h : Bounded limits l) (g : Game σ) (conn : ConnId)
    (requested : Option RoomId) (buffer : Nat) :
    Bounded limits (l.join g conn requested buffer).2.2 := by
  rw [join_eq]
  obtain h | h := h
  · have hsound := h.alike (openMailbox_alike buffer l)
    obtain ⟨e, hp⟩ | ⟨id, l', hready, -, hp⟩ | ⟨-, -, -, hp⟩ :=
      place_cases hsound g conn requested l.nextTicket
    · rw [hp]
      exact .inl (hsound.alike (refuse_alike _ _ _))
    · rw [hp]
      exact .inl (hready.enter g conn l.nextTicket)
    · rw [hp]
      exact .inr (hsound.crash.alike (refuse_alike _ _ _))
  · have hcrashed := h.alike (openMailbox_alike buffer l)
    rw [place_eq, if_pos (by simp [hcrashed.manager])]
    exact .inr (hcrashed.alike (refuse_alike _ _ _))

/-- The three ends of a request. -/
theorem Bounded.join_cases (h : Bounded limits l) (g : Game σ) (conn : ConnId)
    (requested : Option RoomId) (buffer : Nat) :
    (∃ e, (l.join g conn requested buffer).2 =
        (l.openMailbox buffer).2.refuse l.nextTicket e) ∨
      (∃ id l', Ready limits id l' ∧
        (l' = (l.openMailbox buffer).2 ∨ (l.openMailbox buffer).2.createRoom g = some (id, l')) ∧
        (l.join g conn requested buffer).2 = (.ok id, l'.enter g id conn l.nextTicket)) ∨
      (l.join g conn requested buffer).2 =
        (l.openMailbox buffer).2.crash.refuse l.nextTicket .unavailable := by
  rw [join_eq]
  obtain h | h := h
  · obtain hrefused | hgranted | ⟨-, -, -, hcrashed⟩ :=
      place_cases (h.alike (openMailbox_alike buffer l)) g conn requested l.nextTicket
    · exact .inl hrefused
    · exact .inr (.inl hgranted)
    · exact .inr (.inr hcrashed)
  · have hcrashed := h.alike (openMailbox_alike buffer l)
    rw [place_eq, if_pos (by simp [hcrashed.manager])]
    exact .inl ⟨.unavailable, rfl⟩

/-! ## Requests that come at once -/

theorem lookup_of_createRoom (h : l.createRoom g = some (id, l')) : ∃ r, l'.rooms.lookup id = some r := by
  obtain ⟨registry, state, -, -, rfl⟩ := createRoom_eq_some h
  rw [List.lookup_append]
  cases l.rooms.lookup id with
  | some r => exact ⟨r, rfl⟩
  | none => exact ⟨⟨id, state, []⟩, by simp⟩

/-- A request is refused, or a room is found for it that runs, however it lets its members in. -/
theorem seatBy_cases (g : Game σ) (requested : Option RoomId) (ticket : Ticket) (l : Lobby σ) :
    (∃ e l', ∀ letIn, l.seatBy g letIn requested ticket = (.error e, l')) ∨
      ∃ id l' r, l'.rooms.lookup id = some r ∧
        ∀ letIn, l.seatBy g letIn requested ticket = (.ok id, letIn id l') := by
  induction l using seatBy.induct g requested with
  | case1 l e hchoose => exact .inl ⟨e, _, seatBy_of_error hchoose g⟩
  | case2 l hchoose id l' hcreate =>
    obtain ⟨r, hr⟩ := lookup_of_createRoom hcreate
    refine .inr ⟨id, l', r, hr, fun letIn => ?_⟩
    rw [seatBy_of_new hchoose, hcreate]
  | case3 l hchoose hcreate =>
    refine .inl ⟨.unavailable, (l.crash.refuse ticket .unavailable).2, fun letIn => ?_⟩
    rw [seatBy_of_new hchoose, hcreate]
    rfl
  | case4 l id hchoose r hr =>
    refine .inr ⟨id, l, r, hr, fun letIn => ?_⟩
    rw [seatBy_of_existing hchoose, hr]
  | case5 l id hchoose hr ih =>
    have hagain : ∀ letIn, l.seatBy g letIn requested ticket =
        seatBy g letIn requested ticket { l with registry := l.registry.remove id } := by
      intro letIn
      rw [seatBy_of_existing hchoose, hr]
    simp only [hagain]
    exact ih

theorem placeBy_cases (g : Game σ) (requested : Option RoomId) (ticket : Ticket) (l : Lobby σ) :
    (∃ e l', ∀ letIn, l.placeBy g letIn requested ticket = (.error e, l')) ∨
      ∃ id l' r, l'.rooms.lookup id = some r ∧
        ∀ letIn, l.placeBy g letIn requested ticket = (.ok id, letIn id l') := by
  unfold placeBy
  by_cases hrunning : l.manager = .running
  · by_cases hshut : l.shuttingDown = true
    · simp only [if_neg (not_not_intro hrunning), if_pos hshut]
      exact .inl ⟨.shuttingDown, _, fun _ => rfl⟩
    · simp only [if_neg (not_not_intro hrunning), if_neg hshut]
      exact seatBy_cases g requested ticket l
  · simp only [if_pos hrunning]
    exact .inl ⟨.unavailable, _, fun _ => rfl⟩

/-- A request that comes alone is a join. -/
theorem joinAll_singleton (g : Game σ) (q : JoinRequest) (l : Lobby σ) :
    l.joinAll g [q] =
      ([((l.join g q.conn q.requested q.buffer).1, (l.join g q.conn q.requested q.buffer).2.1)],
        (l.join g q.conn q.requested q.buffer).2.2) := by
  have halone : l.joinAll g [q] =
      ([(Backlog.answer g q ⟨l, []⟩).1], ((Backlog.answer g q ⟨l, []⟩).2.catchUp g).lobby) := by
    unfold joinAll
    cases l.limits.commandBuffer <;> rfl
  rw [halone, join_eq, place, Backlog.answer]
  obtain ⟨e, l', h⟩ | ⟨id, l', r, hr, h⟩ :=
    placeBy_cases g q.requested l.nextTicket (l.openMailbox q.buffer).2
  · simp only [openMailbox] at h ⊢
    rw [h, h]
    rfl
  · have hruns : (Backlog.enroll q.conn l.nextTicket id l').rooms.lookup id = some r := hr
    simp only [openMailbox] at h ⊢
    rw [h, h]
    -- the room that was found hears of its member at once
    simp only [Except.toOption, Option.toList_some, List.map_cons, List.map_nil, List.nil_append,
      Backlog.catchUp, List.foldl_cons, List.foldl_nil, Backlog.handle, hruns]
    rfl

end Lobby

end Gamewire
