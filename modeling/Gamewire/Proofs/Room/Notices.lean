import Gamewire.Proofs.Room.Faults

/-! Notices that rooms close. Whoever is in a room when it is closed, or when its rules fail, gets one
notice, which is read before the frames that wait; nobody else gets one, and nobody gets another. After
a shutdown there is no room any more, so it is the last notice of all. -/
namespace Gamewire
set_option autoImplicit false

namespace Room

variable {σ : Type}

/-- Those whom a room tells that it ends over a command. -/
def told (g : Game σ) (r : Room σ) (c : Command) : List Ticket :=
  match r.verdict? g c with
  | some (.fault _) => (r.gathered c).members.map (·.2)
  | _ => []

end Room

namespace Lobby

variable {σ : Type} {g : Game σ} {limits : Limits} {l l' l'' : Lobby σ} {id : RoomId} {r : Room σ}
  {c : Command} {op : Operation} {t : Ticket} {reason : String}

/-! ## Closing rooms -/

theorem mailbox?_close (g : Game σ) (reason : String) (hr : l.rooms.lookup id = some r)
    (t : Ticket) : (command g id (.close reason) l).mailbox? t =
      (l.mailbox? t).map fun q => if t ∈ r.members.map (·.2) then q.close reason else q := by
  rw [mailbox?_command g (.close reason) hr]
  exact congrArg (fun f => (l.mailbox? t).map f)
    (funext fun q => Mailbox.after_close t reason r.members q)

/-- The tickets of everybody who is in one of the rooms with the given numbers. -/
def seatedIn (ids : List RoomId) (l : Lobby σ) : List Ticket :=
  (l.rooms.filter fun x => decide (x.1 ∈ ids)).flatMap fun x => x.2.members.map (·.2)

/-- The tickets of everybody who is in a room. -/
def seated (l : Lobby σ) : List Ticket := l.rooms.flatMap fun x => x.2.members.map (·.2)

theorem mem_seatedIn {ids : List RoomId} :
    t ∈ l.seatedIn ids ↔ ∃ x ∈ l.rooms, x.1 ∈ ids ∧ t ∈ x.2.members.map (·.2) := by
  rw [seatedIn, List.mem_flatMap]
  simp only [List.mem_filter, decide_eq_true_eq, and_assoc]

theorem mem_seated : t ∈ l.seated ↔ ∃ x ∈ l.rooms, t ∈ x.2.members.map (·.2) := List.mem_flatMap

theorem mem_seated_of_lookup {m : ConnId × Ticket} (hr : l.rooms.lookup id = some r)
    (hm : m ∈ r.members) : m.2 ∈ l.seated :=
  mem_seated.mpr ⟨(id, r), mem_of_lookup hr, List.mem_map_of_mem hm⟩

theorem Wired.lookup_of_seated (h : Wired l) (ht : t ∈ l.seated) :
    ∃ id r m, l.rooms.lookup id = some r ∧ m ∈ r.members ∧ m.2 = t := by
  obtain ⟨x, hx, hmem⟩ := mem_seated.mp ht
  obtain ⟨m, hm, heq⟩ := List.mem_map.mp hmem
  exact ⟨x.1, x.2, m, lookup_of_mem h.rooms hx, hm, heq⟩

theorem mem_seatedIn_cons (hn : (l.rooms.map (·.1)).Nodup) (g : Game σ) (id : RoomId)
    (ids : List RoomId) (reason : String) :
    t ∈ l.seatedIn (id :: ids) ↔
      (∃ r, l.rooms.lookup id = some r ∧ t ∈ r.members.map (·.2)) ∨
        t ∈ (command g id (.close reason) l).seatedIn ids := by
  simp only [mem_seatedIn, command_close_rooms]
  constructor
  · rintro ⟨x, hx, hid, ht⟩
    by_cases hsame : x.1 = id
    · exact .inl ⟨x.2, lookup_of_mem hn (hsame ▸ hx), ht⟩
    · exact .inr ⟨x, List.mem_filter.mpr ⟨hx, bne_iff_ne.mpr hsame⟩,
        (List.mem_cons.mp hid).resolve_left hsame, ht⟩
  · rintro (⟨r, hr, ht⟩ | ⟨x, hx, hid, ht⟩)
    · exact ⟨(id, r), mem_of_lookup hr, List.mem_cons_self, ht⟩
    · exact ⟨x, List.mem_of_mem_filter hx, List.mem_cons_of_mem id hid, ht⟩

theorem mailbox?_foldl_close (g : Game σ) (reason : String) (ids : List RoomId)
    (hn : (l.rooms.map (·.1)).Nodup) (t : Ticket) :
    (ids.foldl (fun l id => command g id (.close reason) l) l).mailbox? t =
      (l.mailbox? t).map fun q => if t ∈ l.seatedIn ids then q.close reason else q := by
  induction ids generalizing l with
  | nil =>
    have hnobody : t ∉ l.seatedIn [] := by simp [mem_seatedIn]
    simp only [hnobody, if_false, List.foldl_nil, Option.map_id']
  | cons id ids ih =>
    have hseated := mem_seatedIn_cons (t := t) hn g id ids reason
    have hn' : ((command g id (.close reason) l).rooms.map (·.1)).Nodup := by
      rw [command_close_rooms]
      exact hn.sublist (List.filter_sublist.map _)
    rw [List.foldl_cons, ih hn']
    cases hr : l.rooms.lookup id with
    | none =>
      rw [command_of_lookup_none g (.close reason) hr] at hseated ⊢
      simp only [hr, reduceCtorEq, false_and, exists_false, false_or] at hseated
      simp only [hseated]
    | some r =>
      rw [mailbox?_close g reason hr, Option.map_map]
      refine congrArg (fun f => (l.mailbox? t).map f) (funext fun q => ?_)
      simp only [hr, Option.some.injEq, exists_eq_left'] at hseated
      simp only [Function.comp_apply, hseated]
      by_cases hmember : t ∈ r.members.map (·.2)
      · simp only [hmember, true_or, if_true]
        split <;> rfl
      · simp only [hmember, false_or, if_false]

theorem Agrees.mailbox?_closeAll (h : l.Agrees) (hw : Wired l) (g : Game σ) (reason : String)
    (t : Ticket) : (Lobby.closeAll g reason l).mailbox? t =
      (l.mailbox? t).map fun q => if t ∈ l.seated then q.close reason else q := by
  have hseated : t ∈ ({ l with registry := { l.registry with rooms := [] } } : Lobby σ).seatedIn
      (l.registry.rooms.map (·.1)) ↔ t ∈ l.seated := by
    rw [mem_seatedIn, mem_seated]
    constructor
    · rintro ⟨x, hx, -, ht⟩
      exact ⟨x, hx, ht⟩
    · rintro ⟨x, hx, ht⟩
      have hr : l.rooms.lookup x.1 = some x.2 := lookup_of_mem hw.rooms hx
      obtain ⟨e, he, -⟩ := h.lookup_live hr
      exact ⟨x, hx, List.mem_map_of_mem (mem_of_lookup he), ht⟩
  unfold Lobby.closeAll
  rw [mailbox?_foldl_close]
  · simp only [hseated]
    rfl
  · exact hw.rooms

/-! ## Notices in queues -/

/-- Some queues get a notice; the notices in all others are as they were. -/
def Tells (reason : String) (tickets : List Ticket) (l l' : Lobby σ) : Prop :=
  ∀ t, (l'.mailbox? t).map (·.notice) =
    if t ∈ tickets then (l.mailbox? t).map fun _ => some reason else (l.mailbox? t).map (·.notice)

theorem tells_nil (h : ∀ t, (l'.mailbox? t).map (·.notice) = (l.mailbox? t).map (·.notice)) :
    Tells reason [] l l' := by
  intro t
  rw [if_neg List.not_mem_nil]
  exact h t

theorem tells_of_map {tickets : List Ticket} {f : Ticket → Mailbox → Mailbox}
    (h : ∀ t, l'.mailbox? t = (l.mailbox? t).map (f t))
    (hf : ∀ t q, (f t q).notice = if t ∈ tickets then some reason else q.notice) :
    Tells reason tickets l l' := by
  intro t
  rw [h]
  cases l.mailbox? t with
  | none => simp
  | some q =>
    simp only [Option.map_some, hf]
    split <;> rfl

theorem Tells.trans {tickets tickets' : List Ticket} (h : Tells reason tickets l l')
    (h' : Tells reason tickets' l' l'') : Tells reason (tickets ++ tickets') l l'' := by
  intro t
  have hsome : (l'.mailbox? t).isSome = (l.mailbox? t).isSome := by
    have hisSome := congrArg Option.isSome (h t)
    rw [Option.isSome_map] at hisSome
    rw [hisSome]
    split
    · exact Option.isSome_map
    · exact Option.isSome_map
  have hconst : ((l'.mailbox? t).map fun _ => some reason) =
      (l.mailbox? t).map fun _ => some reason := by
    cases hl : l.mailbox? t with
    | none =>
      rw [hl, Option.isSome_none, Option.isSome_eq_false_iff, Option.isNone_iff_eq_none] at hsome
      rw [hsome]
    | some q =>
      rw [hl, Option.isSome_some] at hsome
      obtain ⟨q', hq'⟩ := Option.isSome_iff_exists.mp hsome
      rw [hq']
      rfl
  rw [h' t, h t, hconst]
  by_cases ht : t ∈ tickets
  · simp [ht]
  · simp [ht]

theorem Tells.of_eq {tickets : List Ticket} {l₁ l₁' : Lobby σ} (h : Tells reason tickets l l')
    (hbefore : ∀ t, l₁.mailbox? t = l.mailbox? t) (hafter : ∀ t, l₁'.mailbox? t = l'.mailbox? t) :
    Tells reason tickets l₁ l₁' := by
  intro t
  rw [hbefore, hafter]
  exact h t

/-- A command makes a room tell its members that it ends, if the rules fail over it, and no more. -/
theorem command_tells (g : Game σ) (hr : l.rooms.lookup id = some r)
    (hc : ∀ reason, c ≠ .close reason) :
    Tells faultReason (r.told g c) l (command g id c l) := by
  refine tells_of_map (mailbox?_command g c hr) fun t q => ?_
  have hquiet : (∀ text, r.verdict? g c ≠ some (.fault text)) →
      (Mailbox.after t (r.step g c).2 q).notice = q.notice := by
    intro hv
    refine Mailbox.notice_after fun reason he => ?_
    obtain ⟨_, -, he⟩ | ⟨m, -, ⟨_, _, -, he⟩ | ⟨text, hfault, -⟩ | ⟨reason', hclose, -⟩ | ⟨-, he⟩⟩ :=
      Room.mem_step he
    · cases he
    · cases he
    · exact hv text hfault
    · exact hc reason' hclose
    · cases he
  unfold Room.told
  split
  · rename_i text hv
    have heffects : (r.step g c).2 = (r.parting c).map Effect.disconnect ++
        (r.gathered c).members.map fun m => .close m.2 faultReason := by
      rw [Room.step_of_verdict hv]
      rfl
    rw [heffects, Mailbox.after_append, Mailbox.after_close, Mailbox.after_disconnect]
    split
    · rfl
    · split <;> rfl
  · rename_i hv
    rw [hquiet hv, if_neg List.not_mem_nil]

theorem Handles.tells {m : Lobby σ} (h : Handles g limits l op id r c m)
    (hc : ∀ reason, c ≠ .close reason) :
    Tells faultReason (r.told g c) (l.opened op) (l.perform g op) := by
  refine (command_tells g h.room hc).of_eq (fun t => ?_) (fun t => ?_)
  · exact (congrArg (List.lookup t) h.mailboxes).symm
  · obtain hdone | ⟨timer, -, hsound, hdone⟩ := h.done
    · rw [hdone]
    · have hset : Sound limits
          { command g id c m with timers := (command g id c m).timers ++ [timer] } :=
        hsound.alike ⟨rfl, rfl, rfl, rfl, rfl⟩
      rw [hdone, hset.mailbox?_expireDue g t]
      rfl

/-! ## Who is told -/

/-- An operation ends the room of a member, which is told why. -/
inductive Ousted (g : Game σ) : Lobby σ → Operation → Ticket → String → Prop
  | closed {l : Lobby σ} {id : RoomId} {r : Room σ} {m : ConnId × Ticket}
      (hrunning : l.manager = .running) (hr : l.rooms.lookup id = some r) (hm : m ∈ r.members)
      (reason : String) : Ousted g l (.shutdownRoom id reason) m.2 reason
  | shutdown {l : Lobby σ} {id : RoomId} {r : Room σ} {m : ConnId × Ticket}
      (hrunning : l.manager = .running) (hr : l.rooms.lookup id = some r) (hm : m ∈ r.members)
      (reason : String) : Ousted g l (.shutdown reason) m.2 reason
  /-- The manager shuts all rooms down when it is let go of. -/
  | dismissed {l : Lobby σ} {id : RoomId} {r : Room σ} {m : ConnId × Ticket}
      (hrunning : l.manager = .running) (hr : l.rooms.lookup id = some r) (hm : m ∈ r.members) :
      Ousted g l .dismiss m.2 "server stopped"
  | fault {l : Lobby σ} {op : Operation} {id : RoomId} {r : Room σ} {c : Command} {text : String}
      {m : ConnId × Ticket} (hask : Asks g l op id r c)
      (hv : r.verdict? g c = some (.fault text)) (hm : m ∈ (r.gathered c).members) :
      Ousted g l op m.2 faultReason
  /-- A request whose connection is gone is a request and a release. -/
  | request {l : Lobby σ} {conn : ConnId} {room : Option RoomId} {buffer : Nat} {t : Ticket}
      {reason : String} (h : Ousted g l (.join conn room buffer) t reason) :
      Ousted g l (.joinInVain conn room buffer) t reason
  | giveUp {l : Lobby σ} {conn : ConnId} {room : Option RoomId} {buffer : Nat} {t : Ticket}
      {reason : String}
      (h : Ousted g (l.perform g (.join conn room buffer)) (.release l.nextTicket) t reason) :
      Ousted g l (.joinInVain conn room buffer) t reason

theorem Asks.unique {id' : RoomId} {r' : Room σ} {c' : Command} (h : Asks g l op id r c)
    (h' : Asks g l op id' r' c') : r = r' ∧ c = c' := by
  cases h with
  | frame hr =>
    cases h' with
    | frame hr' => exact ⟨Option.some.inj (hr.symm.trans hr'), rfl⟩
  | leave ha _ hr =>
    cases h' with
    | leave ha' _ hr' =>
      cases ha.symm.trans ha'
      exact ⟨Option.some.inj (hr.symm.trans hr'), rfl⟩
  | join hgranted hr =>
    cases h' with
    | join hgranted' hr' =>
      cases hgranted.symm.trans hgranted'
      exact ⟨Option.some.inj (hr.symm.trans hr'), rfl⟩
    | first hgranted' hnew =>
      cases hgranted.symm.trans hgranted'
      cases hr.symm.trans hnew
  | first hgranted hnew hinit =>
    cases h' with
    | join hgranted' hr' =>
      cases hgranted.symm.trans hgranted'
      cases hr'.symm.trans hnew
    | first hgranted' hnew' hinit' =>
      cases hgranted.symm.trans hgranted'
      cases hinit.symm.trans hinit'
      exact ⟨rfl, rfl⟩

/-- What an operation tells is what the members are told who are ousted by it. -/
structure Declares (g : Game σ) (l : Lobby σ) (op : Operation) (reason : String)
    (tickets : List Ticket) : Prop where
  tells : Tells reason tickets (l.opened op) (l.perform g op)
  ousted : ∀ t reason', Ousted g l op t reason' ↔ t ∈ tickets ∧ reason' = reason

theorem Asks.declares (hask : Asks g l op id r c) (hb : Bounded limits l) (h : Wired l)
    (hw : Waits l) {v : Verdict σ} (hv : r.verdict? g c = some v) :
    Declares g l op faultReason (r.told g c) := by
  obtain ⟨m, hhandles⟩ := hask.handles hb h hw hv
  have hc : ∀ reason, c ≠ .close reason := by
    rintro reason rfl
    cases hv
  refine ⟨hhandles.tells hc, fun t reason' => ⟨fun hout => ?_, ?_⟩⟩
  · -- the operations that close rooms put nothing to the rules
    cases hout with
    | fault hask' hv' hm =>
      obtain ⟨rfl, rfl⟩ := hask.unique hask'
      refine ⟨?_, rfl⟩
      rw [Room.told, hv']
      exact List.mem_map_of_mem hm
    | closed | shutdown | dismissed | request | giveUp => cases hask
  · rintro ⟨ht, rfl⟩
    unfold Room.told at ht
    split at ht
    · rename_i text hfault
      obtain ⟨m, hm, rfl⟩ := List.mem_map.mp ht
      exact .fault hask hfault hm
    · cases ht

/-- An operation that is not heard of by any rules, and closes no room, tells nobody anything. -/
theorem declares_nil
    (hhush : ∀ t, ((l.perform g op).mailbox? t).map (·.notice) =
      ((l.opened op).mailbox? t).map (·.notice))
    (hout : ∀ t reason, ¬ Ousted g l op t reason) : Declares g l op faultReason [] where
  tells := tells_nil hhush
  ousted := fun t reason => iff_of_false (hout t reason) fun h => absurd h.1 List.not_mem_nil

theorem abandonRooms_hushed (l : Lobby σ) (t : Ticket) :
    (l.abandonRooms.mailbox? t).map (·.notice) = (l.mailbox? t).map (·.notice) := by
  rw [mailbox?_abandonRooms, Option.map_map]
  refine congrArg (fun f => (l.mailbox? t).map f) (funext fun q => ?_)
  simp only [Function.comp_apply]
  split <;> rfl

theorem refuse_hushed (ticket : Ticket) (e : AdmissionFault) (l : Lobby σ) (t : Ticket) :
    ((l.refuse ticket e).2.mailbox? t).map (·.notice) = (l.mailbox? t).map (·.notice) := by
  unfold Lobby.refuse
  simp only [mailbox?_changeMailbox]
  split
  · rw [Option.map_map]
    rfl
  · rfl

theorem Bounded.declares_send (hb : Bounded limits l) (h : Wired l) (hw : Waits l) (g : Game σ)
    (a : Admission) (sender : ConnId) (bytes : List UInt8) :
    ∃ tickets, Declares g l (.send a sender bytes) faultReason tickets := by
  cases hr : l.rooms.lookup a.room with
  | none =>
    refine ⟨[], declares_nil (fun t => ?_) fun t reason hout => ?_⟩
    · simp only [Lobby.perform, Lobby.send, hr]
      rfl
    · cases hout with
      | fault hask =>
        cases hask with
        | frame hr' => cases hr.symm.trans hr'
  | some r =>
    have hask : Asks g l (.send a sender bytes) a.room r (.frame sender bytes) :=
      .frame hr sender bytes
    cases hv : r.verdict? g (.frame sender bytes) with
    | some v => exact ⟨_, hask.declares hb h hw hv⟩
    | none =>
      refine ⟨[], declares_nil (fun t => ?_) fun t reason hout => ?_⟩
      · simp only [Lobby.perform, Lobby.send, hr]
        rw [mailbox?_command g _ hr, Room.step_of_unasked (fun _ => Command.noConfusion) hv, Option.map_map]
        rfl
      · cases hout with
        | fault hask' hv' =>
          obtain ⟨rfl, rfl⟩ := hask.unique hask'
          cases hv.symm.trans hv'

theorem Bounded.declares_release (hb : Bounded limits l) (h : Wired l) (hw : Waits l) (g : Game σ)
    (ticket : Ticket) : ∃ tickets, Declares g l (.release ticket) faultReason tickets := by
  by_cases hask : ∃ id r c v, Asks g l (.release ticket) id r c ∧ r.verdict? g c = some v
  · obtain ⟨id, r, c, v, hask, hv⟩ := hask
    exact ⟨_, hask.declares hb h hw hv⟩
  · refine ⟨[], declares_nil (fun t => ?_) fun t reason hout => ?_⟩
    · show ((l.release g ticket).mailbox? t).map (·.notice) = (l.mailbox? t).map (·.notice)
      obtain hr | hr := hb.release_of_unasked g ticket hask
      · rw [hr]
        rfl
      · rw [hr, abandonRooms_hushed]
        rfl
    · cases hout with
      | fault hask' hv' => exact hask ⟨_, _, _, _, hask', hv'⟩

theorem Bounded.declares_join (hb : Bounded limits l) (h : Wired l) (hw : Waits l) (g : Game σ)
    (conn : ConnId) (room : Option RoomId) (buffer : Nat) :
    ∃ tickets, Declares g l (.join conn room buffer) faultReason tickets := by
  have hrefused : (∀ id, (l.join g conn room buffer).2.1 ≠ .ok id) →
      ∀ t reason, ¬ Ousted g l (.join conn room buffer) t reason := by
    intro hnone t reason hout
    cases hout with
    | fault hask =>
      cases hask with
      | join hgranted => exact hnone _ hgranted
      | first hgranted => exact hnone _ hgranted
  obtain ⟨e, hj⟩ | ⟨id, l', hready, hl', hj⟩ | hj := hb.join_cases g conn room buffer
  · refine ⟨[], declares_nil (fun t => ?_) (hrefused fun id => ?_)⟩
    · rw [Lobby.perform, hj]
      exact refuse_hushed l.nextTicket e (l.openMailbox buffer).2 t
    · rw [hj]
      rintro ⟨⟩
  · have hgranted : (l.join g conn room buffer).2.1 = .ok id := by rw [hj]
    obtain ⟨r, hask⟩ := hready.asks_join hl' hgranted
    exact ⟨_, hask.declares hb h hw rfl⟩
  · refine ⟨[], declares_nil (fun t => ?_) (hrefused fun id => ?_)⟩
    · rw [Lobby.perform, hj]
      refine (refuse_hushed l.nextTicket .unavailable (l.openMailbox buffer).2.crash t).trans ?_
      exact abandonRooms_hushed _ t
    · rw [hj]
      rintro ⟨⟩

theorem shutdownRoom_of_live (g : Game σ) (reason : String) (hrunning : l.manager = .running)
    {e : Entry} (he : l.registry.rooms.lookup id = some e) : l.shutdownRoom g id reason =
      (.ok (), command g id (.close reason) { l with registry := l.registry.remove id }) := by
  unfold Lobby.shutdownRoom
  rw [if_neg (not_not_intro hrunning), he]

theorem shutdown_of_running (g : Game σ) (reason : String) (hrunning : l.manager = .running) :
    l.shutdown g reason = (.ok (), Lobby.closeAll g reason { l with shuttingDown := true }) := by
  unfold Lobby.shutdown
  rw [if_neg (not_not_intro hrunning)]

theorem Bounded.declares_shutdownRoom (hb : Bounded limits l) (g : Game σ) (room : RoomId)
    (reason : String) : ∃ reason' tickets, Declares g l (.shutdownRoom room reason) reason' tickets := by
  by_cases hrunning : l.manager = .running
  · have hsound := hb.sound (by simp [hrunning])
    cases he : l.registry.rooms.lookup room with
    | none =>
      refine ⟨_, [], declares_nil (fun t => ?_) fun t reason' hout => ?_⟩
      · simp only [Lobby.perform, Lobby.shutdownRoom, hrunning, he, ne_eq, not_true_eq_false, if_false]
        rfl
      · cases hout with
        | closed _ hr =>
          obtain ⟨e, he', -⟩ := hsound.agrees.lookup_live hr
          cases he.symm.trans he'
        | fault hask => cases hask
    | some e =>
      obtain ⟨r, hr, -⟩ := hsound.agrees.lookup_some he
      refine ⟨reason, r.members.map (·.2), ?_, fun t reason' => ⟨fun hout => ?_, ?_⟩⟩
      · rw [Lobby.perform, shutdownRoom_of_live g reason hrunning he]
        have hr' : ({ l with registry := l.registry.remove room } : Lobby σ).rooms.lookup room =
            some r := hr
        refine tells_of_map (mailbox?_close g reason hr') fun t q => ?_
        split <;> rfl
      · cases hout with
        | closed _ hr' hm =>
          cases hr.symm.trans hr'
          exact ⟨List.mem_map_of_mem hm, rfl⟩
        | fault hask => cases hask
      · rintro ⟨ht, rfl⟩
        obtain ⟨m, hm, rfl⟩ := List.mem_map.mp ht
        exact .closed hrunning hr hm reason'
  · refine ⟨_, [], declares_nil (fun t => ?_) fun t reason' hout => ?_⟩
    · simp only [Lobby.perform, Lobby.shutdownRoom, hrunning, ne_eq, not_false_eq_true, if_true]
      rfl
    · cases hout with
      | closed hrunning' => exact hrunning hrunning'
      | fault hask => cases hask

theorem Sound.tells_closeAll (h : l.Agrees) (hw : Wired l) (g : Game σ) (reason : String) :
    Tells reason l.seated l (Lobby.closeAll g reason l) := by
  refine tells_of_map (h.mailbox?_closeAll hw g reason) fun t q => ?_
  split <;> rfl

theorem Bounded.declares_shutdown (hb : Bounded limits l) (h : Wired l) (g : Game σ)
    (reason : String) : ∃ reason' tickets, Declares g l (.shutdown reason) reason' tickets := by
  by_cases hrunning : l.manager = .running
  · have hsound := hb.sound (by simp [hrunning])
    have hshut : Wired { l with shuttingDown := true } := h.same rfl rfl rfl (.refl _)
    have hagrees : ({ l with shuttingDown := true } : Lobby σ).Agrees := hsound.agrees
    refine ⟨reason, l.seated, ?_, fun t reason' => ⟨fun hout => ?_, ?_⟩⟩
    · rw [Lobby.perform, shutdown_of_running g reason hrunning]
      exact Sound.tells_closeAll hagrees hshut g reason
    · cases hout with
      | shutdown _ hr hm => exact ⟨mem_seated_of_lookup hr hm, rfl⟩
      | fault hask => cases hask
    · rintro ⟨ht, rfl⟩
      obtain ⟨id, r, m, hr, hm, rfl⟩ := h.lookup_of_seated ht
      exact .shutdown hrunning hr hm reason'
  · refine ⟨_, [], declares_nil (fun t => ?_) fun t reason' hout => ?_⟩
    · simp only [Lobby.perform, Lobby.shutdown, hrunning, ne_eq, not_false_eq_true, if_true]
      rfl
    · cases hout with
      | shutdown hrunning' => exact hrunning hrunning'
      | fault hask => cases hask

theorem Bounded.declares_dismiss (hb : Bounded limits l) (h : Wired l) (g : Game σ) :
    ∃ reason tickets, Declares g l .dismiss reason tickets := by
  by_cases hrunning : l.manager = .running
  · have hsound := hb.sound (by simp [hrunning])
    refine ⟨"server stopped", l.seated, ?_, fun t reason' => ⟨fun hout => ?_, ?_⟩⟩
    · simp only [Lobby.perform, Lobby.dismiss, hrunning, if_true]
      exact Sound.tells_closeAll hsound.agrees h g "server stopped"
    · cases hout with
      | dismissed _ hr hm => exact ⟨mem_seated_of_lookup hr hm, rfl⟩
      | fault hask => cases hask
    · rintro ⟨ht, rfl⟩
      obtain ⟨id, r, m, hr, hm, rfl⟩ := h.lookup_of_seated ht
      exact .dismissed hrunning hr hm
  · refine ⟨_, [], declares_nil (fun t => ?_) fun t reason' hout => ?_⟩
    · simp only [Lobby.perform, Lobby.dismiss, hrunning, if_false]
      rfl
    · cases hout with
      | dismissed hrunning' => exact hrunning hrunning'
      | fault hask => cases hask

theorem Bounded.declares_advance (hb : Bounded limits l) (g : Game σ) (ms : Nat) :
    Declares g l (.advance ms) faultReason [] := by
  refine declares_nil (fun t => ?_) fun t reason hout => ?_
  · have hsame : (Lobby.expireDue g { l with now := l.now + ms }).mailbox? t = l.mailbox? t := by
      obtain hsound | hcrashed := hb
      · have hlater : Sound limits { l with now := l.now + ms } :=
          hsound.alike ⟨rfl, rfl, rfl, rfl, rfl⟩
        exact hlater.mailbox?_expireDue g t
      · unfold Lobby.expireDue
        rw [foldl_expire_idle]
        · rfl
        · simp [hcrashed.manager]
    exact congrArg (Option.map (·.notice)) hsame
  · cases hout with
    | fault hask => cases hask

/-- Whatever an operation does, one thing is said by it, to those who are ousted. -/
theorem Bounded.declares (hb : Bounded limits l) (h : Wired l) (hw : Waits l) (g : Game σ)
    (op : Operation) (hop : ∀ ticket, op ≠ .receive ticket ∧ op ≠ .dropMailbox ticket) :
    ∃ reason tickets, Declares g l op reason tickets := by
  cases op with
  | join conn room buffer => exact ⟨_, hb.declares_join h hw g conn room buffer⟩
  | joinInVain conn room buffer =>
    obtain ⟨tickets, hjoin⟩ := hb.declares_join h hw g conn room buffer
    have hwaits : Waits (l.join g conn room buffer).2.2 :=
      (hb.join_change g conn room buffer).1.waits hw
    obtain ⟨tickets', hrelease⟩ := (Bounded.join hb g conn room buffer).declares_release
      (hb.join_wired h g conn room buffer) hwaits g l.nextTicket
    refine ⟨_, _, hjoin.tells.trans hrelease.tells, fun t reason => ⟨fun hout => ?_, ?_⟩⟩
    · cases hout with
      | request hout =>
        obtain ⟨ht, rfl⟩ := (hjoin.ousted t reason).mp hout
        exact ⟨List.mem_append_left _ ht, rfl⟩
      | giveUp hout =>
        obtain ⟨ht, rfl⟩ := (hrelease.ousted t reason).mp hout
        exact ⟨List.mem_append_right _ ht, rfl⟩
      | fault hask => cases hask
    · rintro ⟨ht, rfl⟩
      obtain ht | ht := List.mem_append.mp ht
      · exact .request ((hjoin.ousted t _).mpr ⟨ht, rfl⟩)
      · exact .giveUp ((hrelease.ousted t _).mpr ⟨ht, rfl⟩)
  | release ticket => exact ⟨_, hb.declares_release h hw g ticket⟩
  | send a sender bytes => exact ⟨_, hb.declares_send h hw g a sender bytes⟩
  | receive ticket => exact absurd rfl (hop ticket).1
  | dropMailbox ticket => exact absurd rfl (hop ticket).2
  | shutdownRoom room reason => exact hb.declares_shutdownRoom g room reason
  | shutdown reason => exact hb.declares_shutdown h g reason
  | advance ms => exact ⟨_, _, hb.declares_advance g ms⟩
  | dismiss => exact hb.declares_dismiss h g

end Lobby

end Gamewire
