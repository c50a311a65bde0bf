import Gamewire.Proofs.Room.Capacity

/-! Who gets a place. The answer to a request follows from the numbers of members alone: states,
generations and everything that happened before make no difference to it. A request that is refused
leaves no trace but the queue that it came with. -/
namespace Gamewire
set_option autoImplicit false

/-! ## The policy -/

/-- The live rooms in order, each with its number of members. -/
def Registry.counts (r : Registry) : List (RoomId × Nat) :=
  r.rooms.map fun x => (x.1, x.2.members.length)

/-- The answer that a request gets, by the numbers of members of the live rooms and by how many rooms
were ever made. -/
inductive Decided (limits : Limits) (counts : List (RoomId × Nat)) (made : Nat) :
    Option RoomId → Except AdmissionFault RoomId → Prop where
  | named {id : RoomId} {n : Nat} (hlive : (id, n) ∈ counts) (hspace : n < limits.maxMembers) :
      Decided limits counts made (some id) (.ok id)
  | namedFull {id : RoomId} (hlive : (id, limits.maxMembers) ∈ counts) :
      Decided limits counts made (some id) (.error (.roomFull id))
  | lowest {requested : Option RoomId} {id : RoomId} {n : Nat}
      (hnone : ∀ x ∈ counts, requested ≠ some x.1) (hlive : (id, n) ∈ counts)
      (hspace : n < limits.maxMembers)
      (hbelow : ∀ x ∈ counts, x.1 < id → x.2 = limits.maxMembers) :
      Decided limits counts made requested (.ok id)
  | new {requested : Option RoomId} {id : RoomId}
      (hnone : ∀ x ∈ counts, requested ≠ some x.1) (hfull : ∀ x ∈ counts, x.2 = limits.maxMembers)
      (hroom : counts.length < limits.maxRooms) (hid : id.toNat = made + 1) :
      Decided limits counts made requested (.ok id)
  | serverFull {requested : Option RoomId}
      (hnone : ∀ x ∈ counts, requested ≠ some x.1) (hfull : ∀ x ∈ counts, x.2 = limits.maxMembers)
      (hrooms : counts.length = limits.maxRooms) :
      Decided limits counts made requested (.error .serverFull)

theorem Decided.unique {limits : Limits} {counts : List (RoomId × Nat)} {made : Nat}
    {requested : Option RoomId} {answer answer' : Except AdmissionFault RoomId}
    (hn : (counts.map (·.1)).Nodup) (h : Decided limits counts made requested answer)
    (h' : Decided limits counts made requested answer') : answer = answer' := by
  have hsame : ∀ {id n n'}, (id, n) ∈ counts → (id, n') ∈ counts → n = n' := by
    intro id n n' hm hm'
    exact congrArg Prod.snd (List.inj_on_of_nodup_map hn hm hm' rfl)
  cases h with
  | named hlive hspace =>
    cases h' with
    | named => rfl
    | namedFull hlive' => exact absurd (hsame hlive hlive') (Nat.ne_of_lt hspace)
    | lowest hnone => exact absurd rfl (hnone _ hlive)
    | new hnone => exact absurd rfl (hnone _ hlive)
    | serverFull hnone => exact absurd rfl (hnone _ hlive)
  | namedFull hlive =>
    cases h' with
    | named hlive' hspace => exact absurd (hsame hlive' hlive) (Nat.ne_of_lt hspace)
    | namedFull => rfl
    | lowest hnone => exact absurd rfl (hnone _ hlive)
    | new hnone => exact absurd rfl (hnone _ hlive)
    | serverFull hnone => exact absurd rfl (hnone _ hlive)
  | lowest hnone hlive hspace hbelow =>
    cases h' with
    | named hlive' => exact absurd rfl (hnone _ hlive')
    | namedFull hlive' => exact absurd rfl (hnone _ hlive')
    | lowest _ hlive' hspace' hbelow' =>
      -- neither of the two rooms is below the other, for it would be full then
      have hle := UInt32.not_lt.mp fun hlt => Nat.ne_of_lt hspace' (hbelow _ hlive' hlt)
      have hle' := UInt32.not_lt.mp fun hlt => Nat.ne_of_lt hspace (hbelow' _ hlive hlt)
      rw [UInt32.le_antisymm hle hle']
    | new _ hfull => exact absurd (hfull _ hlive) (Nat.ne_of_lt hspace)
    | serverFull _ hfull => exact absurd (hfull _ hlive) (Nat.ne_of_lt hspace)
  | new hnone hfull hroom hid =>
    cases h' with
    | named hlive => exact absurd rfl (hnone _ hlive)
    | namedFull hlive => exact absurd rfl (hnone _ hlive)
    | lowest _ hlive hspace => exact absurd (hfull _ hlive) (Nat.ne_of_lt hspace)
    | new _ _ _ hid' => rw [UInt32.toNat_inj.mp (hid.trans hid'.symm)]
    | serverFull _ _ hrooms => exact absurd hrooms (Nat.ne_of_lt hroom)
  | serverFull hnone hfull hrooms =>
    cases h' with
    | named hlive => exact absurd rfl (hnone _ hlive)
    | namedFull hlive => exact absurd rfl (hnone _ hlive)
    | lowest _ hlive hspace => exact absurd (hfull _ hlive) (Nat.ne_of_lt hspace)
    | new _ _ hroom => exact absurd hrooms (Nat.ne_of_lt hroom)
    | serverFull => rfl

namespace Registry

theorem mem_counts {r : Registry} {x : RoomId × Nat} (h : x ∈ r.counts) :
    ∃ e, (x.1, e) ∈ r.rooms ∧ x.2 = e.members.length := by
  obtain ⟨y, hy, rfl⟩ := List.mem_map.mp h
  exact ⟨y.2, hy, rfl⟩

theorem counts_of_mem {r : Registry} {id : RoomId} {e : Entry} (h : (id, e) ∈ r.rooms) :
    (id, e.members.length) ∈ r.counts :=
  List.mem_map_of_mem (f := fun x : RoomId × Entry => (x.1, x.2.members.length)) h

theorem keys_counts (r : Registry) : r.counts.map (·.1) = r.rooms.map (·.1) := by
  rw [counts, List.map_map]
  rfl

theorem length_counts (r : Registry) : r.counts.length = r.rooms.length := List.length_map _

theorem hasSpace_iff {r : Registry} {e : Entry} (h : e.Sound r.capacity) :
    r.hasSpace e = true ↔ e.members.length < r.capacity := by
  rw [hasSpace, Bool.and_eq_true, decide_eq_true_iff]
  refine and_iff_right_of_imp fun hlt => ?_
  rw [h.state_eq, RoomState.ofCount]
  split
  · rfl
  · rw [if_neg (Nat.not_le.mpr hlt)]
    rfl

theorem length_eq_of_not_hasSpace {r : Registry} {e : Entry} (h : e.Sound r.capacity)
    (hspace : r.hasSpace e ≠ true) : e.members.length = r.capacity := by
  rw [ne_eq, hasSpace_iff h] at hspace
  have hle := h.length_le
  omega

theorem find?_hasSpace_eq_none {r : Registry} (h : r.Sound)
    (hfind : (r.rooms.find? fun room => r.hasSpace room.2) = none) :
    ∀ x ∈ r.counts, x.2 = r.capacity := by
  intro x hx
  obtain ⟨e, he, hcount⟩ := mem_counts hx
  rw [hcount]
  exact length_eq_of_not_hasSpace (h.entries _ he) (List.find?_eq_none.mp hfind _ he)

theorem find?_hasSpace_eq_some {r : Registry} (h : r.Sound) {id : RoomId} {e : Entry}
    (hfind : (r.rooms.find? fun room => r.hasSpace room.2) = some (id, e)) :
    (id, e) ∈ r.rooms ∧ e.members.length < r.capacity ∧
      ∀ x ∈ r.counts, x.1 < id → x.2 = r.capacity := by
  -- the rooms stand in order, so those below it come before it in the list
  obtain ⟨hspace, before, after, hrooms, hbefore⟩ := List.find?_eq_some_iff_append.mp hfind
  have hmem : (id, e) ∈ r.rooms := List.mem_of_find?_eq_some hfind
  refine ⟨hmem, (hasSpace_iff (h.entries _ hmem)).mp hspace, ?_⟩
  intro x hx hlt
  obtain ⟨f, hf, hcount⟩ := mem_counts hx
  have hsplit := hf
  rw [hrooms, List.mem_append] at hsplit
  obtain hf' | hf' := hsplit
  · rw [hcount]
    exact length_eq_of_not_hasSpace (h.entries _ hf) (by simpa using hbefore _ hf')
  · -- from the room on, the numbers are not below its own
    have hascending := h.ascending
    rw [hrooms, List.map_append, List.pairwise_append, List.map_cons, List.pairwise_cons]
      at hascending
    obtain heq | hafter := List.mem_cons.mp hf'
    · rw [congrArg Prod.fst heq] at hlt
      exact absurd hlt (UInt32.lt_irrefl _)
    · have hgt := hascending.2.1.1 x.1 (List.mem_map_of_mem (f := (·.1)) hafter)
      exact absurd (UInt32.lt_trans hlt hgt) (UInt32.lt_irrefl _)

theorem asked_eq_none {r : Registry} {requested : Option RoomId}
    (h : (requested.bind fun id => (r.rooms.lookup id).map (id, ·)) = none) :
    ∀ x ∈ r.counts, requested ≠ some x.1 := by
  rintro x hx rfl
  obtain ⟨e, he, -⟩ := mem_counts hx
  have hnone : r.rooms.lookup x.1 = none := by simpa using h
  exact absurd rfl (bne_iff_ne.mp (List.lookup_eq_none_iff.mp hnone _ he))

/-- What the choice is, in terms of the policy; `made + 1` is the number that a new room gets. -/
def Chosen (limits : Limits) (r : Registry) (made : Nat) (requested : Option RoomId) :
    Except AdmissionFault Slot → Prop
  | .ok (.existing id) => Decided limits r.counts made requested (.ok id)
  | .ok .new => ∀ id : RoomId, id.toNat = made + 1 → Decided limits r.counts made requested (.ok id)
  | .error e => Decided limits r.counts made requested (.error e)

theorem chosen_choose {limits : Limits} {r : Registry} (h : r.Sound)
    (hmax : r.maxRooms = limits.maxRooms) (hcapacity : r.capacity = limits.maxMembers) (made : Nat)
    (requested : Option RoomId) : Chosen limits r made requested (r.choose requested) := by
  unfold choose
  split
  · rename_i id e hasked
    obtain ⟨id', rfl, hlookup⟩ := Option.bind_eq_some_iff.mp hasked
    obtain ⟨e', he, hpair⟩ := Option.map_eq_some_iff.mp hlookup
    cases hpair
    have hmem := mem_of_lookup he
    split
    · rename_i hspace
      refine .named (counts_of_mem hmem) ?_
      rw [← hcapacity]
      exact (hasSpace_iff (h.entries _ hmem)).mp hspace
    · rename_i hspace
      have hfull := counts_of_mem hmem
      rw [length_eq_of_not_hasSpace (h.entries _ hmem) hspace, hcapacity] at hfull
      exact .namedFull hfull
  · rename_i hasked
    have hnone := asked_eq_none hasked
    split
    · rename_i id e hfind
      obtain ⟨hmem, hspace, hbelow⟩ := find?_hasSpace_eq_some h hfind
      rw [hcapacity] at hspace hbelow
      exact .lowest hnone (counts_of_mem hmem) hspace hbelow
    · rename_i hfind
      have hfull := find?_hasSpace_eq_none h hfind
      rw [hcapacity] at hfull
      rw [hmax]
      split
      · rename_i hroom
        intro id hid
        rw [← length_counts] at hroom
        exact .new hnone hfull hroom hid
      · rename_i hroom
        have hle := h.length_le
        rw [hmax] at hle
        refine .serverFull hnone hfull ?_
        rw [length_counts]
        omega

end Registry

namespace Lobby

variable {σ : Type} {g : Game σ} {limits : Limits} {l l' : Lobby σ} {id : RoomId}

/-! ## Requests -/

theorem createRoom_of_init (hlt : l.registry.nextId < UInt32.size)
    (hinit : g.logic.init (UInt32.ofNat l.registry.nextId) ≠ none) :
    ∃ id l', l.createRoom g = some (id, l') ∧ id.toNat = l.registry.nextId := by
  obtain ⟨state, hstate⟩ := Option.ne_none_iff_exists'.mp hinit
  unfold Lobby.createRoom Registry.create
  rw [if_pos hlt]
  simp only [hstate]
  exact ⟨_, _, rfl, UInt32.toNat_ofNat_of_lt' (by simpa using hlt)⟩

theorem createRoom_of_init_none
    (hinit : g.logic.init (UInt32.ofNat l.registry.nextId) = none) : l.createRoom g = none := by
  unfold Lobby.createRoom Registry.create
  split
  · rfl
  · rename_i id registry hcreate
    split at hcreate
    · cases hcreate
      simp only [hinit]
    · cases hcreate

theorem seat_of_createRoom_none {requested : Option RoomId}
    (hchoose : l.registry.choose requested = .ok .new) (hcreate : l.createRoom g = none)
    (conn : ConnId) (ticket : Ticket) :
    l.seat g conn requested ticket = l.crash.refuse ticket .unavailable := by
  rw [seat_of_new hchoose, hcreate]

/-- The admission is held, and if the rules let the room go on, the connection is in it. -/
structure Granted (conn : ConnId) (ticket : Ticket) (id : RoomId) (l l' : Lobby σ) : Prop where
  held : l'.held = ⟨ticket, id, conn⟩ :: l.held
  member : ∀ e, l'.registry.rooms.lookup id = some e → conn ∈ e.members

theorem Ready.granted (h : Ready limits id l) (g : Game σ) (conn : ConnId) (ticket : Ticket) :
    Granted conn ticket id l (l.enter g id conn ticket) := by
  obtain ⟨e, he, hsorted, hspace⟩ := h.space
  have hsound := Registry.sound_addMember h.ordered h.others he hsorted hspace conn
  have hw := command_wanes g id (.join conn ticket) { l with
    registry := l.registry.addMember id conn
    held := ⟨ticket, id, conn⟩ :: l.held }
  refine ⟨hw.held, ?_⟩
  intro e' he'
  have hbefore := hw.registry.lookup hsound.toOrdered he'
  obtain ⟨generation, hadd⟩ := Registry.addMember_of_lookup he conn
  simp only [hadd, Registry.lookup_setEntry, if_true, he] at hbefore
  cases hbefore
  exact mem_insertConn.mpr (.inl rfl)

/-- A request that may have a place is answered by the policy. When it is refused, only its queue is
let go of. -/
theorem Sound.seat_decided (h : Sound limits l) (hrunning : l.manager = .running)
    (hopen : l.shuttingDown = false) {made : Nat} (hmade : l.registry.nextId = made + 1)
    (hlt : l.registry.nextId < UInt32.size) (conn : ConnId) (requested : Option RoomId)
    (ticket : Ticket) (hdone : g.logic.init (UInt32.ofNat l.registry.nextId) = none →
      (l.seat g conn requested ticket).2.manager ≠ .crashed) :
    Decided limits l.registry.counts made requested (l.seat g conn requested ticket).1 ∧
      (∀ e, (l.seat g conn requested ticket).1 = .error e →
        (l.seat g conn requested ticket).2 = l.changeMailbox ticket Mailbox.disconnect) ∧
      ∀ id, (l.seat g conn requested ticket).1 = .ok id →
        Granted conn ticket id l (l.seat g conn requested ticket).2 := by
  have hchosen := Registry.chosen_choose h.registry h.maxRooms h.capacity made requested
  -- rules that cannot make a room are not asked to
  have hinit : l.registry.choose requested = .ok .new →
      g.logic.init (UInt32.ofNat l.registry.nextId) ≠ none := by
    intro hchoose hnone
    refine hdone hnone ?_
    rw [seat_of_createRoom_none hchoose (createRoom_of_init_none hnone) conn ticket]
    exact (crash_wanes l).manager
  clear hdone
  cases hchoose : l.registry.choose requested with
  | error e =>
    rw [hchoose] at hchosen
    rw [seat_of_error hchoose]
    refine ⟨hchosen, fun _ _ => rfl, ?_⟩
    intro id hok
    cases hok
  | ok slot =>
    rw [hchoose] at hchosen
    cases slot with
    | new =>
      obtain ⟨id, l', hcreate, hid⟩ := createRoom_of_init hlt (hinit hchoose)
      have hready := h.ready_new hrunning hopen hchoose hcreate
      have hheld : l'.held = l.held := by
        obtain ⟨-, -, -, -, rfl⟩ := createRoom_eq_some hcreate
        rfl
      rw [seat_of_new hchoose, hcreate]
      refine ⟨hchosen id (hid.trans hmade), by simp, ?_⟩
      intro id' hok
      cases hok
      have hgranted := hready.granted g conn ticket
      exact ⟨hgranted.held.trans (by rw [hheld]), hgranted.member⟩
    | existing id =>
      have hready := h.ready hrunning hopen hchoose
      obtain ⟨r, hr⟩ := hready.lookup_room
      rw [seat_of_existing hchoose, hr]
      refine ⟨hchosen, by simp, ?_⟩
      intro id' hok
      cases hok
      exact hready.granted g conn ticket

/-! ## Rooms that were made -/

/-- The room that an operation makes: a request that is let into a room that was not live before
made that room. -/
def newRoom? (g : Game σ) (l : Lobby σ) : Operation → Option RoomId
  | .join conn room buffer | .joinInVain conn room buffer =>
    match (l.join g conn room buffer).2.1 with
    | .ok id => if (l.registry.rooms.lookup id).isNone then some id else none
    | .error _ => none
  | _ => none

theorem newRoom?_of_plain {op : Operation} (h : op.Plain) : l.newRoom? g op = none := by
  cases op with
  | join | joinInVain | release | advance => exact h.elim
  | send | receive | dropMailbox | shutdownRoom | shutdown | dismiss => rfl

/-- All rooms that a run makes, live or not. -/
def made (g : Game σ) : Lobby σ → List Operation → List RoomId
  | _, [] => []
  | l, op :: ops => (l.newRoom? g op).toList ++ made g (l.perform g op) ops

/-- Neither was a room made nor the end announced. -/
structure Steady (l l' : Lobby σ) : Prop where
  nextId : l'.registry.nextId = l.registry.nextId
  shuttingDown : l'.shuttingDown = l.shuttingDown

theorem Steady.refl (l : Lobby σ) : Steady l l := ⟨rfl, rfl⟩

theorem Steady.trans {l'' : Lobby σ} (h : Steady l l') (h' : Steady l' l'') : Steady l l'' :=
  ⟨h'.nextId.trans h.nextId, h'.shuttingDown.trans h.shuttingDown⟩

theorem Wanes.steady (h : Wanes l l') : Steady l l' := ⟨h.registry.nextId, h.shuttingDown⟩

theorem takeOut_steady (g : Game σ) (a : Admission) (l : Lobby σ) : Steady l (l.takeOut g a) := by
  cases hremove : l.registry.removeMember a.room a.conn with
  | none =>
    rw [takeOut_eq_self g hremove]
    exact .refl l
  | some p =>
    obtain ⟨e, registry⟩ := p
    have hw := (takeOut_wanes g hremove).steady
    obtain ⟨-, -, -, rfl, -, -⟩ := Registry.removeMember_eq_some hremove
    exact ⟨hw.nextId, hw.shuttingDown⟩

theorem release_steady (g : Game σ) (ticket : Ticket) (l : Lobby σ) :
    Steady l (l.release g ticket) := by
  have hfree : Steady l (l.free ticket) := ⟨rfl, rfl⟩
  obtain ⟨-, hr⟩ | ⟨a, -, ⟨-, hr⟩ | ⟨-, hr⟩⟩ := release_cases g ticket l
  · rw [hr]
    exact .refl l
  · rw [hr]
    exact hfree.trans (takeOut_steady g a _)
  · rw [hr]
    exact hfree.trans (abandonRooms_wanes _).steady

theorem closeAll_steady (g : Game σ) (reason : String) (l : Lobby σ) :
    Steady l (closeAll g reason l) := by
  have hw := (closeAll_wanes g reason l).steady
  exact ⟨hw.nextId, hw.shuttingDown⟩

theorem enter_steady (g : Game σ) (id : RoomId) (conn : ConnId) (ticket : Ticket) (l : Lobby σ) :
    Steady l (l.enter g id conn ticket) := by
  have hw := (command_wanes g id (.join conn ticket) { l with
    registry := l.registry.addMember id conn
    held := ⟨ticket, id, conn⟩ :: l.held }).steady
  exact ⟨hw.nextId.trans (Registry.addMember_nextId _ _ _), hw.shuttingDown⟩

theorem Bounded.join_nextId (h : Bounded limits l) (g : Game σ) (conn : ConnId)
    (requested : Option RoomId) (buffer : Nat) :
    (l.join g conn requested buffer).2.2.registry.nextId =
        l.registry.nextId + (l.newRoom? g (.join conn requested buffer)).toList.length ∧
      (l.join g conn requested buffer).2.2.shuttingDown = l.shuttingDown := by
  unfold newRoom?
  simp only
  obtain ⟨e, hj⟩ | ⟨id, l', hready, hl', hj⟩ | hj := h.join_cases g conn requested buffer
  · rw [hj]
    exact ⟨rfl, rfl⟩
  · rw [hj]
    have hentered := enter_steady g id conn l.nextTicket l'
    obtain rfl | hcreate := hl'
    · obtain ⟨e, he, -⟩ := hready.space
      have hlive : l.registry.rooms.lookup id = some e := he
      simp only [hlive]
      exact ⟨hentered.nextId, hentered.shuttingDown⟩
    · -- a number that was not given out yet is that of no live room
      obtain ⟨registry, state, hreg, -, rfl⟩ := createRoom_eq_some hcreate
      obtain ⟨hid, rfl⟩ := Registry.create_eq_some hreg
      have hnodup := hready.ordered.nodup
      rw [List.map_append, List.nodup_append] at hnodup
      have hnone : l.registry.rooms.lookup id = none := by
        apply List.lookup_eq_none_iff.mpr
        intro x hx
        have hne := hnodup.2.2 x.1 (List.mem_map_of_mem hx) id (List.mem_singleton_self id)
        exact bne_iff_ne.mpr (Ne.symm hne)
      simp only [hnone]
      exact ⟨hentered.nextId, hentered.shuttingDown⟩
  · rw [hj]
    have hw := crash_wanes (l.openMailbox buffer).2
    exact ⟨hw.registry.nextId, hw.shuttingDown⟩

/-- The end is announced by a shutdown that the manager hears of, and a number is taken for every room
that is made. -/
theorem Outcome.nextId {op : Operation} (ho : Outcome g l op l') (h : Bounded limits l) :
    l'.registry.nextId = l.registry.nextId + (l.newRoom? g op).toList.length ∧
      (l.manager = .running → (l'.shuttingDown = true ↔
        l.shuttingDown = true ∨ ∃ reason, op = .shutdown reason)) := by
  have hannounced : l'.shuttingDown = l.shuttingDown → (∀ reason, op ≠ .shutdown reason) →
      (l'.shuttingDown = true ↔ l.shuttingDown = true ∨ ∃ reason, op = .shutdown reason) := by
    intro hs hop
    rw [hs, or_iff_left]
    rintro ⟨reason, hreason⟩
    exact hop reason hreason
  cases ho with
  | join conn room buffer =>
    obtain ⟨hnext, hshut⟩ := h.join_nextId g conn room buffer
    exact ⟨hnext, fun _ => hannounced hshut fun _ => Operation.noConfusion⟩
  | joinInVain conn room buffer =>
    obtain ⟨hnext, hshut⟩ := h.join_nextId g conn room buffer
    have hs := release_steady g l.nextTicket (l.join g conn room buffer).2.2
    have hshut := hs.shuttingDown.trans hshut
    exact ⟨hs.nextId.trans hnext, fun _ => hannounced hshut fun _ => Operation.noConfusion⟩
  | release ticket =>
    have hs := release_steady g ticket l
    exact ⟨hs.nextId, fun _ => hannounced hs.shuttingDown fun _ => Operation.noConfusion⟩
  | frame a sender bytes =>
    have hs := (command_wanes g a.room (.frame sender bytes) l).steady
    exact ⟨hs.nextId, fun _ => hannounced hs.shuttingDown fun _ => Operation.noConfusion⟩
  | closeRoom room reason =>
    have hs := (closeRoom_wanes g room reason l).steady
    exact ⟨hs.nextId, fun _ => hannounced hs.shuttingDown fun _ => Operation.noConfusion⟩
  | shutdown reason =>
    have hs := closeAll_steady g reason { l with shuttingDown := true }
    exact ⟨hs.nextId, fun _ => iff_of_true hs.shuttingDown (.inr ⟨reason, rfl⟩)⟩
  | advance ms =>
    have hs := (expireDue_wanes g { l with now := l.now + ms }).steady
    exact ⟨hs.nextId, fun _ => hannounced hs.shuttingDown fun _ => Operation.noConfusion⟩
  | dismiss =>
    have hs := closeAll_steady g "server stopped" l
    exact ⟨hs.nextId, fun _ => hannounced hs.shuttingDown fun _ => Operation.noConfusion⟩
  | queues ms hplain hop =>
    rw [newRoom?_of_plain hplain]
    exact ⟨rfl, fun hrunning => hannounced rfl (hop hrunning)⟩

/-! ## Runs -/

theorem Bounded.run_nextId (h : Bounded limits l) (g : Game σ) (ops : List Operation) :
    (l.run g ops).registry.nextId = l.registry.nextId + (l.made g ops).length := by
  induction ops generalizing l with
  | nil => rfl
  | cons op ops ih =>
    have hstep := ((perform_outcome g l op).nextId h).1
    have hrest := ih (h.perform g op)
    have hrun : l.run g (op :: ops) = (l.perform g op).run g ops := rfl
    rw [hrun, hrest, hstep, made, List.length_append, Nat.add_assoc]

theorem Bounded.perform_running (h : Bounded limits l) (g : Game σ) (op : Operation)
    (hrunning : (l.perform g op).manager = .running) : l.manager = .running := by
  by_cases hop : op = .dismiss
  · subst hop
    obtain hgone | hsame := dismiss_cases g l
    · rw [Lobby.perform, hgone] at hrunning
      cases hrunning
    · rwa [Lobby.perform, hsame] at hrunning
  · obtain hsame | ⟨hcrashed, -⟩ := (h.fares g op hop).manager
    · exact hsame.symm.trans hrunning
    · rw [hcrashed] at hrunning
      cases hrunning

theorem Bounded.run_running (h : Bounded limits l) (g : Game σ) (ops : List Operation)
    (hrunning : (l.run g ops).manager = .running) : l.manager = .running := by
  induction ops generalizing l with
  | nil => exact hrunning
  | cons op ops ih => exact h.perform_running g op (ih (h.perform g op) hrunning)

/-- A manager that is still there has heard every shutdown. -/
theorem Bounded.run_shuttingDown (h : Bounded limits l) (g : Game σ) (ops : List Operation)
    (hrunning : (l.run g ops).manager = .running) :
    (l.run g ops).shuttingDown = true ↔
      l.shuttingDown = true ∨ ∃ reason, .shutdown reason ∈ ops := by
  induction ops generalizing l with
  | nil =>
    rw [or_iff_left]
    · rfl
    · rintro ⟨reason, hmem⟩
      cases hmem
  | cons op ops ih =>
    have hstep := ((perform_outcome g l op).nextId h).2 (h.run_running g (op :: ops) hrunning)
    have hrun : l.run g (op :: ops) = (l.perform g op).run g ops := rfl
    rw [hrun] at hrunning ⊢
    rw [ih (h.perform g op) hrunning, hstep, or_assoc]
    refine or_congr_right ⟨?_, ?_⟩
    · rintro (⟨reason, rfl⟩ | ⟨reason, hmem⟩)
      · exact ⟨reason, List.mem_cons_self⟩
      · exact ⟨reason, List.mem_cons_of_mem op hmem⟩
    · rintro ⟨reason, hmem⟩
      obtain heq | hmem := List.mem_cons.mp hmem
      · exact .inl ⟨reason, heq.symm⟩
      · exact .inr ⟨reason, hmem⟩

/-- Only the queue that came with a request is new. -/
def Untouched (l l' : Lobby σ) : Prop :=
  ∃ ms, l' = { l with mailboxes := ms, nextTicket := l.nextTicket + 1 }

/-- How a request fares with the policy: it gets the answer that the policy gives, and what the answer
says is so. -/
structure Served (limits : Limits) (made : Nat) (conn : ConnId) (requested : Option RoomId)
    (answer : Except AdmissionFault RoomId) (l l' : Lobby σ) : Prop where
  decided : ∀ a, answer = a ↔ Decided limits l.registry.counts made requested a
  granted : ∀ id, answer = .ok id → Granted conn l.nextTicket id l l'
  refused : ∀ e, answer = .error e → Untouched l l'
  /-- A server is full only when all rooms that may be are there, with all members that may be. -/
  serverFull : answer = .error .serverFull → l.registry.counts.length = limits.maxRooms ∧
    ∀ x ∈ l.registry.counts, x.2 = limits.maxMembers

theorem Sound.join_served (h : Sound limits l) (hrunning : l.manager = .running)
    (hopen : l.shuttingDown = false) {made : Nat} (hmade : l.registry.nextId = made + 1)
    (hlt : l.registry.nextId < UInt32.size) (conn : ConnId) (requested : Option RoomId)
    (buffer : Nat) (hdone : g.logic.init (UInt32.ofNat l.registry.nextId) = none →
      (l.join g conn requested buffer).2.2.manager ≠ .crashed) :
    Served limits made conn requested (l.join g conn requested buffer).2.1 l
      (l.join g conn requested buffer).2.2 := by
  have hopened : Sound limits (l.openMailbox buffer).2 := h.alike (openMailbox_alike buffer l)
  have hseat : (l.join g conn requested buffer).2 =
      (l.openMailbox buffer).2.seat g conn requested l.nextTicket := by
    have hrunning' : (l.openMailbox buffer).2.manager = .running := hrunning
    have hopen' : (l.openMailbox buffer).2.shuttingDown = false := hopen
    rw [join_eq, place_eq, hrunning', hopen', if_neg (by simp), if_neg (by simp)]
  have hnodup : (l.registry.counts.map (·.1)).Nodup := by
    rw [Registry.keys_counts]
    exact h.registry.toOrdered.nodup
  obtain ⟨hdecided, hrefused, hgranted⟩ := hopened.seat_decided (g := g) hrunning hopen hmade
    hlt conn requested l.nextTicket (hseat ▸ hdone)
  rw [hseat]
  have hiff : ∀ a, ((l.openMailbox buffer).2.seat g conn requested l.nextTicket).1 = a ↔
      Decided limits l.registry.counts made requested a := by
    intro a
    constructor
    · rintro rfl
      exact hdecided
    · exact fun ha => Decided.unique hnodup hdecided ha
  refine ⟨hiff, ?_, ?_, ?_⟩
  · intro id hok
    exact ⟨(hgranted id hok).held, (hgranted id hok).member⟩
  · intro e herror
    rw [hrefused e herror]
    exact ⟨_, rfl⟩
  · intro hfull
    cases (hiff _).mp hfull with
    | serverFull _ hmembers hrooms => exact ⟨hrooms, hmembers⟩

/-- In every lobby that can come about, as long as there is a number for the next room, the numbers of
members alone decide on a request. Only rules that cannot make the room that is asked for keep it
from its end. After a shutdown every request is refused. -/
theorem run_admission (h : start limits = .ok l) (g : Game σ) (ops : List Operation)
    (hrunning : (l.run g ops).manager = .running) (conn : ConnId) (requested : Option RoomId)
    (buffer : Nat) :
    ((∀ reason, .shutdown reason ∉ ops) → (l.made g ops).length < UInt32.size - 1 →
      (g.logic.init (UInt32.ofNat ((l.made g ops).length + 1)) = none →
        ((l.run g ops).join g conn requested buffer).2.2.manager ≠ .crashed) →
      Served limits (l.made g ops).length conn requested
        ((l.run g ops).join g conn requested buffer).2.1 (l.run g ops)
        ((l.run g ops).join g conn requested buffer).2.2) ∧
    ((∃ reason, .shutdown reason ∈ ops) →
      ((l.run g ops).join g conn requested buffer).2.1 = .error .shuttingDown ∧
      Untouched (l.run g ops) ((l.run g ops).join g conn requested buffer).2.2) := by
  have hstart : Bounded limits l := .inl (sound_start h)
  obtain ⟨hl, -⟩ := start_eq h
  have hnext : (l.run g ops).registry.nextId = (l.made g ops).length + 1 := by
    rw [hstart.run_nextId g ops, hl, Nat.add_comm]
    rfl
  have hsound : Sound limits (l.run g ops) := by
    obtain hsound | hcrashed := hstart.run g ops
    · exact hsound
    · rw [hcrashed.manager] at hrunning
      cases hrunning
  have hshut := hstart.run_shuttingDown g ops hrunning
  have hopen : l.shuttingDown = false := by rw [hl, ofLimits]
  rw [hopen, or_iff_right Bool.false_ne_true] at hshut
  constructor
  · intro hnone hnumbers hdone
    refine hsound.join_served hrunning ?_ hnext (by omega) conn requested buffer ?_
    · rw [← Bool.not_eq_true, hshut]
      rintro ⟨reason, hmem⟩
      exact hnone reason hmem
    · rw [hnext]
      exact hdone
  · intro hmem
    have hrunning' : ((l.run g ops).openMailbox buffer).2.manager = .running := hrunning
    have hshutting : ((l.run g ops).openMailbox buffer).2.shuttingDown = true := hshut.mpr hmem
    rw [join_eq, place_eq, hrunning', hshutting, if_neg (by simp), if_pos rfl]
    exact ⟨rfl, _, rfl⟩

/-! The only room of a server is gone, and the next request gets a room with the next number. -/

theorem run_admission_second :
    start soloLimits = .ok (ofLimits (σ := Unit) soloLimits) ∧
      ((ofLimits soloLimits).run quietGame (soloRun.take 3)).manager = .running ∧
      (ofLimits soloLimits).made quietGame (soloRun.take 3) = [1] ∧
      (((ofLimits soloLimits).run quietGame (soloRun.take 3)).join quietGame 8 (some 1) 4).2.1 =
        .ok 2 := by
  have hstart : start soloLimits = .ok (ofLimits (σ := Unit) soloLimits) := rfl
  have hrunning : ((ofLimits soloLimits).run quietGame (soloRun.take 3)).manager = .running := by
    cbv
  have hmade : (ofLimits soloLimits).made quietGame (soloRun.take 3) = [1] := by cbv
  have hcounts : ((ofLimits soloLimits).run quietGame (soloRun.take 3)).registry.counts = [] := by
    cbv
  have hserved := (run_admission hstart quietGame (soloRun.take 3) hrunning 8 (some 1) 4).1
    (by intro reason hmem; simp [soloRun] at hmem) (by rw [hmade]; decide)
    (by simp [quietGame, Logic.relay])
  refine ⟨hstart, hrunning, hmade, (hserved.decided _).mpr ?_⟩
  rw [hcounts, hmade]
  exact .new (by simp) (by simp) (by decide) rfl

end Lobby

end Gamewire
