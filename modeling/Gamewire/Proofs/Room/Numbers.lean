import Gamewire.Proofs.Room.Shutdown

/-! Numbers of rooms. Messages to the manager about a room carry its number and nothing else: a member
that is released, a timer that went off, a room that is over. They come in any order and as late as
may be, when the room may be long gone. They do no harm because a number means one room for good. -/
namespace Gamewire
set_option autoImplicit false

/-! ## Registers -/

namespace Registry

variable {r r' r'' : Registry} {id : RoomId} {conn : ConnId} {made made' : List RoomId}

/-- Rooms were made, each under the next number. Otherwise rooms were struck off and members changed. -/
structure Makes (r : Registry) (made : List RoomId) (r' : Registry) : Prop where
  numbers : made.map (·.toNat) = List.range' r.nextId made.length
  nextId : r'.nextId = r.nextId + made.length
  rooms : ∀ id ∈ r'.rooms.map (·.1), id ∈ r.rooms.map (·.1) ∨ id ∈ made

theorem makes_nil (hnext : r'.nextId = r.nextId)
    (hrooms : ∀ id ∈ r'.rooms.map (·.1), id ∈ r.rooms.map (·.1)) : Makes r [] r' :=
  ⟨rfl, hnext, fun id hid => .inl (hrooms id hid)⟩

theorem Makes.refl (r : Registry) : Makes r [] r := makes_nil rfl fun _ hid => hid

theorem Makes.trans (h : Makes r made r') (h' : Makes r' made' r'') :
    Makes r (made ++ made') r'' where
  numbers := by
    rw [List.map_append, h.numbers, h'.numbers, h.nextId, List.length_append, ← List.range'_append_1]
  nextId := by rw [h'.nextId, h.nextId, List.length_append, Nat.add_assoc]
  rooms := by
    intro id hid
    obtain hid | hnew := h'.rooms id hid
    · exact (h.rooms id hid).imp_right (List.mem_append_left made')
    · exact .inr (List.mem_append_right made hnew)

theorem Shrinks.makes (h : Shrinks r r') : Makes r [] r' :=
  makes_nil h.nextId fun _ hid => (h.rooms.map _).subset hid

theorem addMember_makes (r : Registry) (id : RoomId) (conn : ConnId) :
    Makes r [] (r.addMember id conn) := by
  refine makes_nil (addMember_nextId r id conn) fun _ hid => ?_
  rwa [addMember_keys] at hid

theorem removeMember_makes {e : Entry} (h : r.removeMember id conn = some (e, r')) :
    Makes r [] r' := by
  obtain ⟨-, -, -, rfl, -, -⟩ := removeMember_eq_some h
  refine makes_nil rfl fun _ hid => ?_
  rwa [setEntry, map_fst_set] at hid

theorem create_makes (h : r.create = some (id, r')) : Makes r [id] r' := by
  obtain ⟨hid, rfl⟩ := create_eq_some h
  refine ⟨by rw [List.map_singleton, hid]; rfl, rfl, fun id' hid' => ?_⟩
  rwa [List.map_append, List.mem_append] at hid'

theorem Makes.mem_made (h : Makes r made r') : id ∈ made ↔
    r.nextId ≤ id.toNat ∧ id.toNat < r'.nextId := by
  have hmem : id ∈ made ↔ id.toNat ∈ made.map (·.toNat) :=
    (List.mem_map_of_injective fun _ _ => UInt32.toNat_inj.mp).symm
  rw [hmem, h.numbers, List.mem_range'_1, h.nextId]

/-- Every live room goes by a number that was given out. -/
structure Numbered (r : Registry) : Prop where
  nextId_pos : 1 ≤ r.nextId
  rooms : ∀ id ∈ r.rooms.map (·.1), 1 ≤ id.toNat ∧ id.toNat < r.nextId

theorem Numbered.makes (h : Numbered r) (hm : Makes r made r') : Numbered r' where
  nextId_pos := by
    rw [hm.nextId]
    exact Nat.le_add_right_of_le h.nextId_pos
  rooms := by
    intro id hid
    have hpos := h.nextId_pos
    have hnext := hm.nextId
    obtain hold | hnew := hm.rooms id hid
    · have hgiven := h.rooms id hold
      omega
    · have hgiven := hm.mem_made.mp hnew
      omega

theorem lookup_eq_none_iff : r.rooms.lookup id = none ↔ id ∉ r.rooms.map (·.1) := by
  rw [List.lookup_eq_none_iff, List.mem_map]
  constructor
  · rintro h ⟨x, hx, rfl⟩
    simpa using h x hx
  · intro h x hx
    exact bne_iff_ne.mpr fun hid => h ⟨x, hx, hid.symm⟩

/-- A room that is over does not come back. -/
theorem Makes.lookup_eq_none (hm : Makes r made r') (hlt : id.toNat < r.nextId)
    (hgone : r.rooms.lookup id = none) : r'.rooms.lookup id = none := by
  rw [Registry.lookup_eq_none_iff] at hgone ⊢
  intro hid
  obtain hold | hnew := hm.rooms id hid
  · exact hgone hold
  · have hgiven := hm.mem_made.mp hnew
    omega

end Registry

namespace Lobby

variable {σ : Type} {g : Game σ} {limits : Limits} {l l' : Lobby σ} {id : RoomId}
  {requested : Option RoomId}

/-! ## Operations, whatever became of the rooms -/

theorem enter_makes (g : Game σ) (id : RoomId) (conn : ConnId) (ticket : Ticket) (l : Lobby σ) :
    l.registry.Makes [] (l.enter g id conn ticket).registry := by
  have hw := command_wanes g id (.join conn ticket) { l with
    registry := l.registry.addMember id conn
    held := ⟨ticket, id, conn⟩ :: l.held }
  exact (Registry.addMember_makes l.registry id conn).trans hw.registry.makes

theorem takeOut_makes (g : Game σ) (a : Admission) (l : Lobby σ) :
    l.registry.Makes [] (l.takeOut g a).registry := by
  cases hremove : l.registry.removeMember a.room a.conn with
  | none =>
    rw [takeOut_eq_self g hremove]
    exact .refl _
  | some x =>
    obtain ⟨e, registry⟩ := x
    exact (Registry.removeMember_makes hremove).trans (takeOut_wanes g hremove).registry.makes

theorem release_makes (g : Game σ) (ticket : Ticket) (l : Lobby σ) :
    l.registry.Makes [] (l.release g ticket).registry := by
  obtain ⟨-, hr⟩ | ⟨a, -, ⟨-, hr⟩ | ⟨-, hr⟩⟩ := release_cases g ticket l
  · rw [hr]
    exact .refl _
  · rw [hr]
    exact takeOut_makes g a (l.free ticket)
  · rw [hr]
    exact (abandonRooms_wanes (l.free ticket)).registry.makes

theorem closeAll_makes (g : Game σ) (reason : String) (l : Lobby σ) :
    l.registry.Makes [] (closeAll g reason l).registry :=
  (Registry.shrinks_clear l.registry).makes.trans (closeAll_wanes g reason l).registry.makes

section

variable {letIn : RoomId → Lobby σ → Lobby σ}

/-- The search for a place strikes rooms off until one takes the connection; at most one room is
made, and then the connection is in it. -/
theorem seatBy_makes (hletIn : ∀ id (l : Lobby σ), l.registry.Makes [] (letIn id l).registry)
    (g : Game σ) (requested : Option RoomId) (ticket : Ticket) (l : Lobby σ) :
    ∃ made, l.registry.Makes made (l.seatBy g letIn requested ticket).2.registry ∧
      ((made = [] ∧ ∀ id, (l.seatBy g letIn requested ticket).1 = .ok id →
          id ∈ l.registry.rooms.map (·.1)) ∨
        ∃ id, made = [id] ∧ (l.seatBy g letIn requested ticket).1 = .ok id) := by
  induction l using seatBy.induct g requested with
  | case1 l e hchoose =>
    rw [seatBy_of_error hchoose]
    refine ⟨[], .refl _, .inl ⟨rfl, ?_⟩⟩
    rintro _ ⟨⟩
  | case2 l hchoose id l' hcreate =>
    have hmade : l.registry.Makes [id] l'.registry := by
      obtain ⟨registry, state, hreg, -, rfl⟩ := createRoom_eq_some hcreate
      exact Registry.create_makes hreg
    rw [seatBy_of_new hchoose, hcreate]
    exact ⟨[id], hmade.trans (hletIn id l'), .inr ⟨id, rfl, rfl⟩⟩
  | case3 l hchoose hcreate =>
    have hcrashed := (Registry.shrinks_clear l.registry).makes.trans (crash_wanes l).registry.makes
    rw [seatBy_of_new hchoose, hcreate]
    refine ⟨[], hcrashed, .inl ⟨rfl, ?_⟩⟩
    rintro _ ⟨⟩
  | case4 l id hchoose r hr =>
    obtain ⟨e, he, -⟩ := Registry.mem_of_choose hchoose
    rw [seatBy_of_existing hchoose, hr]
    refine ⟨[], hletIn id l, .inl ⟨rfl, ?_⟩⟩
    rintro _ ⟨⟩
    exact List.mem_map_of_mem he
  | case5 l id hchoose hr ih =>
    have hremove := Registry.shrinks_remove l.registry id
    obtain ⟨made, hmakes, hplace⟩ := ih
    rw [seatBy_of_existing hchoose, hr]
    refine ⟨made, hremove.makes.trans hmakes, hplace.imp_left ?_⟩
    rintro ⟨rfl, hold⟩
    exact ⟨rfl, fun id' hid' => (hremove.rooms.map _).subset (hold id' hid')⟩

/-- The room of an answer, if it was made for it. -/
def madeFor? (l : Lobby σ) : Except AdmissionFault RoomId → Option RoomId
  | .ok id => if (l.registry.rooms.lookup id).isNone then some id else none
  | .error _ => none

theorem placeBy_makes (hletIn : ∀ id (l : Lobby σ), l.registry.Makes [] (letIn id l).registry)
    (h : l.registry.Numbered) (g : Game σ) (requested : Option RoomId) (ticket : Ticket) :
    l.registry.Makes (l.madeFor? (l.placeBy g letIn requested ticket).1).toList
      (l.placeBy g letIn requested ticket).2.registry := by
  unfold placeBy
  split
  · exact .refl _
  split
  · exact .refl _
  obtain ⟨made, hmakes, ⟨rfl, hold⟩ | ⟨id, rfl, hid⟩⟩ := seatBy_makes hletIn g requested ticket l
  · suffices hnone : l.madeFor? (l.seatBy g letIn requested ticket).1 = none by
      rw [hnone]
      exact hmakes
    cases hanswer : (l.seatBy g letIn requested ticket).1 with
    | error e => rfl
    | ok id =>
      have hlive : (l.registry.rooms.lookup id).isNone = false := by
        rw [Option.isNone_eq_false_iff, Option.isSome_iff_ne_none, ne_eq,
          Registry.lookup_eq_none_iff, not_not]
        exact hold id hanswer
      rw [madeFor?, hlive]
      rfl
  · -- a number that was not given out yet is that of no live room
    have hnew : l.registry.rooms.lookup id = none := by
      rw [Registry.lookup_eq_none_iff]
      intro hlive
      have hlt := (h.rooms id hlive).2
      have hle := (hmakes.mem_made.mp (List.mem_singleton_self id)).1
      exact absurd hlt (Nat.not_lt.mpr hle)
    rw [hid, madeFor?, hnew]
    exact hmakes

end

theorem join_makes (h : l.registry.Numbered) (g : Game σ) (conn : ConnId)
    (requested : Option RoomId) (buffer : Nat) :
    l.registry.Makes (l.newRoom? g (.join conn requested buffer)).toList
      (l.join g conn requested buffer).2.2.registry := by
  have hnew : l.newRoom? g (.join conn requested buffer) =
      l.madeFor? (l.join g conn requested buffer).2.1 := by
    cases hanswer : (l.join g conn requested buffer).2.1 with
    | error e => simp only [newRoom?, hanswer, madeFor?]
    | ok id => simp only [newRoom?, hanswer, madeFor?]
  rw [hnew]
  exact placeBy_makes (l := (l.openMailbox buffer).2)
    (fun id l' => enter_makes g id conn l.nextTicket l') h g requested l.nextTicket

theorem enroll_makes (conn : ConnId) (ticket : Ticket) (id : RoomId) (l : Lobby σ) :
    l.registry.Makes [] (Backlog.enroll conn ticket id l).registry :=
  Registry.addMember_makes l.registry id conn

theorem answer_makes (h : l.registry.Numbered) (g : Game σ) (q : JoinRequest) :
    l.registry.Makes (l.madeFor? (Backlog.answer g q ⟨l, []⟩).1.2).toList
      (Backlog.answer g q ⟨l, []⟩).2.lobby.registry :=
  placeBy_makes (l := (l.openMailbox q.buffer).2) (enroll_makes q.conn l.nextTicket) h g q.requested
    l.nextTicket

theorem Outcome.makes {op : Operation} (ho : Outcome g l op l') (h : l.registry.Numbered) :
    l.registry.Makes (l.newRoom? g op).toList l'.registry := by
  cases ho with
  | join conn room buffer => exact join_makes h g conn room buffer
  | joinInVain conn room buffer =>
    have hmakes := (join_makes h g conn room buffer).trans (release_makes g l.nextTicket _)
    rwa [List.append_nil] at hmakes
  | release ticket => exact release_makes g ticket l
  | frame a sender bytes => exact (command_wanes g a.room (.frame sender bytes) l).registry.makes
  | closeRoom room reason => exact (closeRoom_wanes g room reason l).registry.makes
  | shutdown reason => exact closeAll_makes g reason { l with shuttingDown := true }
  | advance ms => exact (expireDue_wanes g { l with now := l.now + ms }).registry.makes
  | dismiss => exact closeAll_makes g "server stopped" l
  | queues ms hplain hop =>
    rw [newRoom?_of_plain hplain]
    exact .refl _

/-! ## Everything in any order -/

/-- What can happen around a manager. Operations run to completion; what they leave behind may come
once more, or late, or for the first time, and beside the manager everything may change. -/
inductive Occurrence (σ : Type) where
  | operation (op : Operation)
  /-- Rooms go on or end unnoticed, queues fill, admissions are let go of and timers run. -/
  | beside (other : Lobby σ)
  /-- The manager answers a request, and the room is yet to hear of its member. -/
  | answered (q : JoinRequest)
  /-- The manager hears that a member is released. -/
  | released (a : Admission)
  /-- It hears that a timer went off. -/
  | elapsed (t : Timer)
  /-- It hears that a room is over. -/
  | exited (id : RoomId)

def undergo (g : Game σ) (l : Lobby σ) : Occurrence σ → Lobby σ
  | .operation op => l.perform g op
  | .beside other => { other with
      limits := l.limits
      registry := l.registry
      manager := l.manager
      shuttingDown := l.shuttingDown }
  | .answered q => (Backlog.answer g q ⟨l, []⟩).2.lobby
  | .released a => if l.manager = .running then l.takeOut g a else l
  | .elapsed t => expire g l t
  | .exited id => l.noteExit id none

/-- The room that is made. -/
def roomMade? (g : Game σ) (l : Lobby σ) : Occurrence σ → Option RoomId
  | .operation op => l.newRoom? g op
  | .answered q => l.madeFor? (Backlog.answer g q ⟨l, []⟩).1.2
  | .beside _ | .released _ | .elapsed _ | .exited _ => none

def undergoAll (g : Game σ) (l : Lobby σ) (os : List (Occurrence σ)) : Lobby σ :=
  os.foldl (undergo g) l

/-- The rooms that are made, in their order. -/
def roomsMade (g : Game σ) : Lobby σ → List (Occurrence σ) → List RoomId
  | _, [] => []
  | l, o :: os => (l.roomMade? g o).toList ++ roomsMade g (l.undergo g o) os

/-- The runs of operations are among these. -/
theorem undergoAll_operations (g : Game σ) (l : Lobby σ) (ops : List Operation) :
    l.undergoAll g (ops.map .operation) = l.run g ops ∧
      l.roomsMade g (ops.map .operation) = l.made g ops := by
  induction ops generalizing l with
  | nil => exact ⟨rfl, rfl⟩
  | cons op ops ih =>
    obtain ⟨hrun, hmade⟩ := ih (l.perform g op)
    exact ⟨hrun, congrArg ((l.newRoom? g op).toList ++ ·) hmade⟩

theorem undergo_makes (h : l.registry.Numbered) (g : Game σ) (o : Occurrence σ) :
    l.registry.Makes (l.roomMade? g o).toList (l.undergo g o).registry := by
  cases o with
  | operation op => exact (perform_outcome g l op).makes h
  | beside other => exact .refl _
  | answered q => exact answer_makes h g q
  | released a =>
    simp only [undergo]
    split
    · exact takeOut_makes g a l
    · exact .refl _
  | elapsed t => exact (expire_wanes g l t).registry.makes
  | exited id => exact (Registry.shrinks_remove l.registry id).makes

theorem undergoAll_makes (h : l.registry.Numbered) (g : Game σ) (os : List (Occurrence σ)) :
    l.registry.Makes (l.roomsMade g os) (l.undergoAll g os).registry := by
  induction os generalizing l with
  | nil => exact .refl _
  | cons o os ih =>
    have hstep := undergo_makes h g o
    exact hstep.trans (ih (h.makes hstep))

/-! ## Rooms that are over -/

/-- Whatever the manager still hears of a room, nothing comes of it. -/
structure Settled (g : Game σ) (id : RoomId) (l : Lobby σ) : Prop where
  gone : l.registry.rooms.lookup id = none
  released : ∀ a : Admission, a.room = id → l.undergo g (.released a) = l
  elapsed : ∀ t : Timer, t.room = id → l.undergo g (.elapsed t) = l
  exited : l.undergo g (.exited id) = l
  /-- Giving an admission back changes nothing but who holds one. -/
  release : l.manager = .running → ∀ ticket a, l.admission? ticket = some a → a.room = id →
    l.release g ticket = l.free ticket

theorem takeOut_of_gone {a : Admission} (hgone : l.registry.rooms.lookup a.room = none)
    (g : Game σ) : l.takeOut g a = l := by
  refine takeOut_eq_self g (Registry.removeMember_eq_none.mpr fun e he => ?_)
  rw [hgone] at he
  cases he

theorem settled_of_gone (hgone : l.registry.rooms.lookup id = none) (g : Game σ) :
    Settled g id l where
  gone := hgone
  released := by
    rintro a rfl
    simp only [undergo, takeOut_of_gone hgone, ite_self]
  elapsed := by
    rintro t rfl
    have hexpired : l.registry.isExpired t.room t.generation = false := by
      rw [Registry.isExpired, hgone]
    simp [undergo, expire, hexpired]
  exited := by
    have hsame : l.registry.remove id = l.registry := by
      rw [Registry.remove, drop_of_lookup hgone]
    simp only [undergo, noteExit, hsame]
  release := by
    rintro hrunning ticket a ha rfl
    rw [release_of_some ha, if_pos hrunning]
    exact takeOut_of_gone (l := l.free ticket) hgone g

/-! ## The whole -/

/-- What a number means in a run in which these rooms were made. -/
structure Numbering (g : Game σ) (made : List RoomId) (l : Lobby σ) : Prop where
  nth : ∀ k id, made[k]? = some id → id.toNat = k + 1
  nodup : made.Nodup
  zero : 0 ∉ made
  live : ∀ id e, l.registry.rooms.lookup id = some e → id ∈ made
  /-- A room that is over stays so in all that follows. -/
  past : ∀ id ∈ made, l.registry.rooms.lookup id = none → ∀ later : List (Occurrence σ),
    Settled g id (l.undergoAll g later)
  shutdownRoom : l.manager = .running → ∀ id reason, (l.shutdownRoom g id reason).1 =
    if id ∈ made then .ok () else .error (.notFound id)

theorem numbered_start (h : start limits = .ok l) : l.registry.Numbered ∧ l.registry.nextId = 1 := by
  obtain ⟨rfl, -⟩ := start_eq h
  exact ⟨⟨Nat.le_refl 1, fun _ hid => absurd hid List.not_mem_nil⟩, rfl⟩

theorem shutdownRoom_answer (hrunning : l.manager = .running) (g : Game σ) (id : RoomId)
    (reason : String) : (l.shutdownRoom g id reason).1 =
      if (l.registry.rooms.lookup id).isSome ∨ l.registry.everExisted id = true then .ok ()
      else .error (.notFound id) := by
  unfold Lobby.shutdownRoom
  rw [if_neg (not_not_intro hrunning)]
  cases l.registry.rooms.lookup id with
  | some e => simp
  | none => simp

/-- In a run from the start, with messages in any order. No bound on the rooms is needed: once the
numbers are used up nobody makes a room any more. -/
theorem run_numbers (h : start limits = .ok l) (g : Game σ) (os : List (Occurrence σ)) :
    Numbering g (l.roomsMade g os) (l.undergoAll g os) := by
  obtain ⟨hstart, hnext⟩ := numbered_start h
  have hmakes := undergoAll_makes hstart g os
  have hnumbered := hstart.makes hmakes
  have hlist := hmakes.numbers
  rw [hnext] at hlist
  have hmem : ∀ id, id ∈ l.roomsMade g os ↔
      1 ≤ id.toNat ∧ id.toNat < (l.undergoAll g os).registry.nextId := fun id => by
    rw [hmakes.mem_made, hnext]
  have hlive : ∀ id e, (l.undergoAll g os).registry.rooms.lookup id = some e →
      id ∈ l.roomsMade g os := fun id e he =>
    (hmem id).mpr (hnumbered.rooms id (List.mem_map_of_mem (mem_of_lookup he)))
  refine ⟨fun k id hk => ?_, ?_, fun hzero => ?_, hlive, fun id hid hgone later => ?_,
    fun hrunning id reason => ?_⟩
  · have hget := congrArg (·[k]?) hlist
    have hlt := (List.getElem?_eq_some_iff.mp hk).1
    simp only [List.getElem?_map, hk, Option.map_some, List.getElem?_range' hlt,
      Option.some.injEq] at hget
    omega
  · refine List.Nodup.of_map (·.toNat) ?_
    rw [hlist]
    exact List.nodup_range'
  · exact absurd ((hmem 0).mp hzero).1 (by decide)
  · have hlater := undergoAll_makes hnumbered g later
    exact settled_of_gone (hlater.lookup_eq_none ((hmem id).mp hid).2 hgone) g
  · rw [shutdownRoom_answer hrunning]
    refine if_congr ?_ rfl rfl
    rw [hmem, Registry.everExisted, Bool.and_eq_true, decide_eq_true_eq, decide_eq_true_eq,
      or_iff_right_of_imp]
    intro hsome
    obtain ⟨e, he⟩ := Option.isSome_iff_exists.mp hsome
    exact (hmem id).mp (hlive id e he)

/-! The first room is over before the second is made, and then the manager hears of it again. -/

def lateRun : List (Occurrence Unit) :=
  [.operation (.join 7 none 4), .operation (.release 0), .answered ⟨8, none, 4⟩,
    .released ⟨0, 1, 8⟩, .elapsed ⟨0, 1, 1⟩, .exited 1]

theorem run_numbers_lateRun :
    start soloLimits = .ok (ofLimits (σ := Unit) soloLimits) ∧
      (ofLimits soloLimits).roomsMade quietGame lateRun = [1, 2] ∧
      ((ofLimits soloLimits).undergoAll quietGame lateRun).list = .ok [⟨2, 1, 1, .full⟩] ∧
      Settled quietGame 1 ((ofLimits soloLimits).undergoAll quietGame lateRun) ∧
      (((ofLimits soloLimits).undergoAll quietGame lateRun).shutdownRoom quietGame 3 "over").1 =
        .error (.notFound 3) := by
  have hstart : start soloLimits = .ok (ofLimits (σ := Unit) soloLimits) := rfl
  have h := run_numbers hstart quietGame lateRun
  have hmade : (ofLimits soloLimits).roomsMade quietGame lateRun = [1, 2] := by cbv
  refine ⟨hstart, hmade, by cbv, h.past 1 ?_ (by cbv) [], ?_⟩
  · rw [hmade]
    exact List.mem_cons_self
  · rw [h.shutdownRoom (by cbv), hmade]
    rfl

end Lobby

end Gamewire
