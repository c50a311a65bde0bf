import Gamewire.Proofs.Room.Holders
import Gamewire.Proofs.Room.Membership

/-! What a connection may rely on while it holds an admission: it keeps it until it gives it back, its
queue is cut off only when its room is gone, and a room that is gone never comes back. -/
namespace Gamewire
set_option autoImplicit false

/-- An operation neither asks for a place nor gives one back, and it does not let go of the manager. -/
def Operation.Mere : Operation → Prop
  | .join _ _ _ | .joinInVain _ _ _ | .release _ | .dismiss => False
  | _ => True

theorem Operation.Mere.fresh {op : Operation} (h : op.Mere) (held : List Admission) :
    op.Fresh held := by
  cases op with
  | join | joinInVain => exact h.elim
  | release | send | receive | dropMailbox | shutdownRoom | shutdown | advance | dismiss => trivial

namespace Lobby

variable {σ : Type} {g : Game σ} {limits : Limits} {l l' l'' : Lobby σ} {id : RoomId}
  {a : Admission} {op : Operation}

/-! ## Rooms that are left alone -/

/-- Nothing happened to any room, and nobody asked for a place. -/
structure Calm (l l' : Lobby σ) : Prop where
  registry : l'.registry = l.registry
  rooms : l'.rooms = l.rooms
  manager : l'.manager = l.manager
  nextTicket : l'.nextTicket = l.nextTicket

theorem Calm.refl (l : Lobby σ) : Calm l l := ⟨rfl, rfl, rfl, rfl⟩

theorem Calm.trans (h : Calm l l') (h' : Calm l' l'') : Calm l l'' :=
  ⟨h'.registry.trans h.registry, h'.rooms.trans h.rooms, h'.manager.trans h.manager,
    h'.nextTicket.trans h.nextTicket⟩

theorem receive_calm (ticket : Ticket) (l : Lobby σ) : Calm l (l.receive ticket).2 := by
  unfold Lobby.receive
  split
  · exact .refl l
  · exact ⟨rfl, rfl, rfl, rfl⟩

/-! ## Operations that keep the manager and the admissions -/

theorem perform_mere (g : Game σ) (l : Lobby σ) (op : Operation) (hop : op.Mere) :
    (l.perform g op).manager = l.manager ∧ (l.perform g op).held = l.held ∧
      (l.perform g op).nextTicket = l.nextTicket := by
  have houtcome := perform_outcome g l op
  revert houtcome
  generalize l.perform g op = l'
  intro houtcome
  cases houtcome with
  | join | joinInVain | release | dismiss => exact hop.elim
  | frame b sender bytes =>
    have hw := command_wanes g b.room (.frame sender bytes) l
    exact ⟨hw.manager, hw.held, hw.nextTicket⟩
  | closeRoom room reason =>
    have hw := closeRoom_wanes g room reason l
    exact ⟨hw.manager, hw.held, hw.nextTicket⟩
  | shutdown reason =>
    have hw := closeAll_wanes g reason { l with shuttingDown := true }
    exact ⟨hw.manager, hw.held, hw.nextTicket⟩
  | advance ms =>
    have hw := expireDue_wanes g { l with now := l.now + ms }
    exact ⟨hw.manager, hw.held, hw.nextTicket⟩
  | queues ms => exact ⟨rfl, rfl, rfl⟩

theorem release_manager (g : Game σ) (ticket : Ticket) (l : Lobby σ) :
    (l.release g ticket).manager = l.manager := by
  obtain ⟨-, hr⟩ | ⟨a, -, ⟨-, hr⟩ | ⟨-, hr⟩⟩ := release_cases g ticket l
  · rw [hr]
  · rw [hr]
    cases hremove : (l.free ticket).registry.removeMember a.room a.conn with
    | none =>
      rw [takeOut_eq_self g hremove]
      rfl
    | some p => exact (takeOut_wanes g hremove).manager
  · rw [hr]
    exact (abandonRooms_wanes _).manager

/-! ## What is left after a crash -/

/-- What those who hold admissions may rely on, whether or not the manager crashed: as long as their
room runs they are in it. After a crash the rooms run to which somebody holds an admission. -/
structure Tenanted (g : Game σ) (limits : Limits) (l : Lobby σ) : Prop where
  bounded : Bounded limits l
  wired : Wired l
  reachable : l.manager ≠ .crashed → Reachable g limits l
  room_lt : ∀ a ∈ l.held, a.room.toNat < l.registry.nextId
  member : ∀ a ∈ l.held, ∀ x ∈ l.rooms, x.1 = a.room → (a.conn, a.ticket) ∈ x.2.members
  occupied : l.manager = .crashed → ∀ x ∈ l.rooms, ∃ a ∈ l.held, a.room = x.1

theorem Reachable.tenanted (h : Reachable g limits l) : Tenanted g limits l := by
  refine ⟨.inl h.accounted.toSound, h.wired, fun _ => h, h.accounted.counted.room_lt,
    fun a ha x hx hroom => ?_, fun hcrashed => absurd hcrashed h.accounted.manager⟩
  have hlookup : l.rooms.lookup a.room = some x.2 := hroom ▸ lookup_of_mem h.wired.rooms hx
  exact (h.mem_members_iff hlookup (a.conn, a.ticket)).mpr ha

/-- As long as the manager does not crash, all is known; so it remains to look at crashes. -/
theorem Tenanted.next (h : Tenanted g limits l) (op : Operation) (hfresh : op.Fresh l.held)
    (hop : op ≠ .dismiss)
    (hcrash : (l.perform g op).manager = .crashed →
      (∀ a ∈ (l.perform g op).held, a ∈ l.held) ∧
        (∀ y ∈ (l.perform g op).rooms, ∃ x ∈ l.rooms, x.1 = y.1 ∧ x.2.members = y.2.members) ∧
        ∀ y ∈ (l.perform g op).rooms, ∃ a ∈ (l.perform g op).held, a.room = y.1) :
    Tenanted g limits (l.perform g op) := by
  have hfares := h.bounded.fares g op hop
  by_cases hdone : (l.perform g op).manager = .crashed
  · obtain ⟨hheld, hrooms, hoccupied⟩ := hcrash hdone
    refine ⟨h.bounded.perform g op, h.wired.perform h.bounded g op, fun halive => absurd hdone halive,
      fun a ha => Nat.lt_of_lt_of_le (h.room_lt a (hheld a ha)) hfares.nextId_le,
      fun a ha y hy hroom => ?_, fun _ => hoccupied⟩
    obtain ⟨x, hx, hkey, hmembers⟩ := hrooms y hy
    exact hmembers ▸ h.member a (hheld a ha) x hx (hkey.trans hroom)
  · have halive : l.manager ≠ .crashed := by
      intro hcrashed
      obtain hsame | ⟨hcrashed', -⟩ := hfares.manager
      · exact hdone (hsame.trans hcrashed)
      · exact hdone hcrashed'
    exact ((h.reachable halive).perform op hfresh hdone).tenanted

theorem mem_abandonRooms {x : RoomId × Room σ} (hx : x ∈ l.abandonRooms.rooms) :
    x ∈ l.rooms ∧ ∃ a ∈ l.held, a.room = x.1 := by
  obtain ⟨ms, hms⟩ := abandonRooms_eq l
  rw [hms] at hx
  obtain ⟨hx, hany⟩ := List.mem_filter.mp hx
  obtain ⟨a, ha, hroom⟩ := List.any_eq_true.mp hany
  exact ⟨hx, a, ha, beq_iff_eq.mp hroom⟩

/-- Who is in a room changes only when somebody comes or goes. -/
theorem mem_command_of_stays {id : RoomId} {c : Command}
    (hc : ∀ r : Room σ, (r.gathered c).members = r.members) {y : RoomId × Room σ}
    (hy : y ∈ (Lobby.command g id c l).rooms) :
    ∃ x ∈ l.rooms, x.1 = y.1 ∧ x.2.members = y.2.members := by
  obtain ⟨-, hcommand⟩ | ⟨r, r', ms, hr, hstep, hcommand⟩ | ⟨r, ms, -, -, hcommand⟩ :=
    command_cases g id c l
  · rw [hcommand] at hy
    exact ⟨y, hy, rfl, rfl⟩
  · rw [hcommand] at hy
    obtain ⟨x, hx, rfl⟩ := List.mem_map.mp hy
    by_cases hid : x.1 = id
    · rw [if_pos hid]
      exact ⟨(id, r), mem_of_lookup hr, rfl, ((Room.members_of_step hstep).trans (hc r)).symm⟩
    · rw [if_neg hid]
      exact ⟨x, hx, rfl, rfl⟩
  · rw [hcommand] at hy
    exact ⟨y, List.mem_of_mem_filter hy, rfl, rfl⟩

theorem Tenanted.mere (h : Tenanted g limits l) (hop : op.Mere) :
    Tenanted g limits (l.perform g op) := by
  obtain ⟨hmanager, hheld, -⟩ := perform_mere g l op hop
  have hnot : op ≠ .dismiss := by
    rintro rfl
    exact hop
  refine h.next op (hop.fresh l.held) hnot fun hcrashed => ?_
  rw [hmanager] at hcrashed
  have hidle : l.manager ≠ .running := by simp [hcrashed]
  have hrooms : ∀ y ∈ (l.perform g op).rooms, ∃ x ∈ l.rooms, x.1 = y.1 ∧
      x.2.members = y.2.members := by
    have houtcome := perform_outcome g l op
    revert houtcome
    generalize l.perform g op = l'
    intro houtcome
    cases houtcome with
    | join | joinInVain | release | dismiss => exact hop.elim
    | frame b sender bytes => exact fun y hy => mem_command_of_stays (fun _ => rfl) hy
    | closeRoom room reason =>
      exact fun y hy =>
        mem_command_of_stays (l := { l with registry := l.registry.remove room }) (fun _ => rfl) hy
    | shutdown reason hrunning => exact absurd hrunning hidle
    | advance ms =>
      intro y hy
      rw [expireDue, foldl_expire_idle] at hy
      · exact ⟨y, hy, rfl, rfl⟩
      · exact hidle
    | queues ms => exact fun y hy => ⟨y, hy, rfl, rfl⟩
  refine ⟨fun a ha => hheld ▸ ha, hrooms, fun y hy => ?_⟩
  obtain ⟨x, hx, hkey, -⟩ := hrooms y hy
  obtain ⟨a, ha, hroom⟩ := h.occupied hcrashed x hx
  exact ⟨a, hheld.symm ▸ ha, hroom.trans hkey⟩

theorem Tenanted.release (h : Tenanted g limits l) (ticket : Ticket) :
    Tenanted g limits (l.release g ticket) := by
  refine h.next (.release ticket) trivial Operation.noConfusion fun hcrashed => ?_
  simp only [Lobby.perform] at hcrashed ⊢
  rw [release_manager] at hcrashed
  obtain ⟨-, hr⟩ | ⟨a, -, ⟨hrunning, -⟩ | ⟨-, hr⟩⟩ := release_cases g ticket l
  · rw [hr]
    exact ⟨fun _ ha => ha, fun y hy => ⟨y, hy, rfl, rfl⟩, h.occupied hcrashed⟩
  · rw [hrunning] at hcrashed
    cases hcrashed
  · have hheld : (l.release g ticket).held = (l.free ticket).held := release_held g ticket l
    refine ⟨fun a ha => List.mem_of_mem_filter (hheld ▸ ha : a ∈ (l.free ticket).held), ?_, ?_⟩
    · intro y hy
      rw [hr] at hy
      exact ⟨y, (mem_abandonRooms hy).1, rfl, rfl⟩
    · intro y hy
      rw [hr] at hy
      rw [hheld]
      exact (mem_abandonRooms hy).2

theorem Tenanted.join (h : Tenanted g limits l) {conn : ConnId}
    (hfresh : ∀ a ∈ l.held, a.conn ≠ conn) (wanted : Option RoomId) (buffer : Nat) :
    Tenanted g limits (l.join g conn wanted buffer).2.2 := by
  refine h.next (.join conn wanted buffer) hfresh Operation.noConfusion fun hcrashed => ?_
  simp only [Lobby.perform] at hcrashed ⊢
  obtain ⟨e, hj⟩ | ⟨id, l', hready, -, hj⟩ | hj := h.bounded.join_cases g conn wanted buffer
  · rw [hj] at hcrashed ⊢
    exact ⟨fun _ ha => ha, fun y hy => ⟨y, hy, rfl, rfl⟩, h.occupied hcrashed⟩
  · rw [hj, enter_eq, (command_wanes g id _ _).manager, entering, hready.manager] at hcrashed
    cases hcrashed
  · have hheld : (l.openMailbox buffer).2.crash.held = l.held := (crash_wanes _).held
    rw [hj]
    refine ⟨fun a ha => hheld ▸ ha, fun y hy => ?_, fun y hy => ?_⟩
    · exact ⟨y, (mem_abandonRooms hy).1, rfl, rfl⟩
    · obtain ⟨a, ha, hroom⟩ := (mem_abandonRooms hy).2
      exact ⟨a, hheld.symm ▸ ha, hroom⟩

/-! ## Tickets -/

theorem Bounded.join_nextTicket (h : Bounded limits l) (hw : Wired l) (g : Game σ) (conn : ConnId)
    (wanted : Option RoomId) (buffer : Nat) :
    (l.join g conn wanted buffer).2.2.nextTicket = l.nextTicket + 1 := by
  obtain ⟨e, hj⟩ | ⟨id, l', hready, hl', hj⟩ | hj := h.join_cases g conn wanted buffer
  · rw [hj]
    rfl
  · obtain ⟨-, -, hnext, -⟩ := hw.place hready hl'
    rw [hj, enter_eq, (command_wanes g id _ _).nextTicket]
    exact hnext
  · rw [hj]
    exact (crash_narrows (l.openMailbox buffer).2).nextTicket

/-- Tickets are handed out in order. -/
theorem Bounded.nextTicket_le (h : Bounded limits l) (hw : Wired l) (g : Game σ) (hop : op ≠ .dismiss) :
    l.nextTicket ≤ (l.perform g op).nextTicket := by
  cases op with
  | dismiss => exact absurd rfl hop
  | join conn wanted buffer =>
    exact Nat.le_of_lt (Nat.lt_of_succ_le (h.join_nextTicket hw g conn wanted buffer).ge)
  | joinInVain conn wanted buffer =>
    have hreleased := (release_narrows g l.nextTicket (l.join g conn wanted buffer).2.2).nextTicket
    have hjoined := h.join_nextTicket hw g conn wanted buffer
    exact Nat.le_of_lt (Nat.lt_of_succ_le (hreleased.trans hjoined).ge)
  | release ticket => exact (release_narrows g ticket l).nextTicket.ge
  | send | receive | dropMailbox | shutdownRoom | shutdown | advance =>
    refine (perform_mere g l _ ?_).2.2.ge
    trivial

theorem Bounded.run_nextTicket_le {ops : List Operation} (h : Bounded limits l) (hw : Wired l)
    (g : Game σ) (hops : ∀ op ∈ ops, op ≠ .dismiss) : l.nextTicket ≤ (l.run g ops).nextTicket := by
  induction ops generalizing l with
  | nil => exact Nat.le_refl _
  | cons op ops ih =>
    obtain ⟨hop, hops⟩ := List.forall_mem_cons.mp hops
    exact Nat.le_trans (h.nextTicket_le hw g hop) (ih (h.perform g op) (hw.perform h g op) hops)

/-! ## Rooms that are gone -/

/-- A room was there and is not any more. -/
def Past (id : RoomId) (l : Lobby σ) : Prop :=
  id.toNat < l.registry.nextId ∧ l.registry.rooms.lookup id = none

theorem Past.calm (h : Past id l) (hc : Calm l l') : Past id l' := by
  unfold Past
  rw [hc.registry]
  exact h

theorem Past.perform (h : Past id l) (hb : Bounded limits l) (g : Game σ) (op : Operation)
    (hop : op ≠ .dismiss) :
    Past id (l.perform g op) := by
  have hfares := hb.fares g op hop
  refine ⟨Nat.lt_of_lt_of_le h.1 hfares.nextId_le, List.lookup_eq_none_iff.mpr fun x hx => ?_⟩
  refine bne_iff_ne.mpr fun hsame => ?_
  obtain hold | hnew := hfares.rooms x.1 (List.mem_map_of_mem hx)
  · obtain ⟨y, hy, hkey⟩ := List.mem_map.mp hold
    exact bne_iff_ne.mp (List.lookup_eq_none_iff.mp h.2 y hy) (hsame.trans hkey.symm)
  · rw [← hsame] at hnew
    exact absurd h.1 (Nat.not_lt.mpr hnew)

theorem Past.run {ops : List Operation} (h : Past id l) (hb : Bounded limits l) (g : Game σ)
    (hops : ∀ op ∈ ops, op ≠ .dismiss) : Past id (l.run g ops) := by
  induction ops generalizing l with
  | nil => exact h
  | cons op ops ih =>
    obtain ⟨hop, hops⟩ := List.forall_mem_cons.mp hops
    exact ih (h.perform hb g op hop) (hb.perform g op) hops

/-! ## Admissions -/

/-- Whoever is cut off was in a room that runs no more. -/
theorem Tenanted.cut (h : Tenanted g limits l) (ha : a ∈ l.held) {q : Mailbox}
    (hq : l.mailbox? a.ticket = some q) (hcut : ¬ q.Linked) : l.rooms.lookup a.room = none := by
  cases hr : l.rooms.lookup a.room with
  | none => rfl
  | some r =>
    have hx := mem_of_lookup hr
    exact absurd (h.wired.linked _ hx _ (h.member a ha _ hx rfl) q hq) hcut

theorem Tenanted.cut_of_closed (h : Tenanted g limits l) (ha : a ∈ l.held) {reason : String}
    (hreceive : l.receive a.ticket = (some (.closed reason), l')) : l.rooms.lookup a.room = none := by
  unfold Lobby.receive at hreceive
  split at hreceive
  · cases hreceive
  · rename_i q hq
    refine h.cut ha hq fun hlinked => ?_
    rw [Mailbox.receive, hlinked.1] at hreceive
    simp only [Prod.mk.injEq] at hreceive
    split at hreceive <;> cases hreceive.1

/-- A room that runs no more is gone for good. -/
theorem Tenanted.past (h : Tenanted g limits l) (ha : a ∈ l.held)
    (hnone : l.rooms.lookup a.room = none) : Past a.room l := by
  refine ⟨h.room_lt a ha, ?_⟩
  obtain hsound | hcrashed := h.bounded
  · have hlookup := hsound.agrees.lookup a.room
    rwa [hnone, Option.map_none, Option.map_eq_none_iff] at hlookup
  · rw [hcrashed.registry]
    rfl

/-- A room that is not gone runs. -/
theorem Tenanted.runs (h : Tenanted g limits l) (ha : a ∈ l.held) (hpast : ¬ Past a.room l) :
    (l.rooms.lookup a.room).isSome := by
  cases hr : l.rooms.lookup a.room with
  | none => exact absurd (h.past ha hr) hpast
  | some r => rfl

/-- To give back a place in a room that runs no more disturbs no room. -/
theorem Tenanted.release_calm (h : Tenanted g limits l) (ha : a ∈ l.held)
    (hnone : l.rooms.lookup a.room = none) : Calm l (l.release g a.ticket) := by
  by_cases hcrashed : l.manager = .crashed
  · obtain ⟨-, hr⟩ | ⟨a', -, ⟨hrunning, -⟩ | ⟨-, hr⟩⟩ := release_cases g a.ticket l
    · rw [hr]
      exact .refl l
    · rw [hrunning] at hcrashed
      cases hcrashed
    · obtain ⟨ms, hms⟩ := abandonRooms_eq (l.free a.ticket)
      rw [hr, hms]
      refine ⟨rfl, List.filter_eq_self.mpr fun x hx => ?_, rfl, rfl⟩
      -- somebody else holds an admission to each room that runs
      obtain ⟨b, hb, hroom⟩ := h.occupied hcrashed x hx
      refine List.any_eq_true.mpr ⟨b, List.mem_filter.mpr ⟨hb, bne_iff_ne.mpr fun hticket => ?_⟩,
        beq_iff_eq.mpr hroom⟩
      have hsame := List.inj_on_of_nodup_map h.wired.held_nodup hb ha hticket
      rw [← hsame, hroom] at hnone
      exact absurd rfl (bne_iff_ne.mp (List.lookup_eq_none_iff.mp hnone x hx))
  · rw [((h.reachable hcrashed).accounted.leaves g ha).gone (h.past ha hnone).2]
    exact ⟨rfl, rfl, rfl, rfl⟩

/-- A request that is granted adds one admission, and one that is refused adds none. -/
theorem Bounded.join_held (h : Bounded limits l) (g : Game σ) (conn : ConnId)
    (wanted : Option RoomId) (buffer : Nat) (hw : Wired l) :
    (l.join g conn wanted buffer).2.2.held =
      (match (l.join g conn wanted buffer).2.1 with
        | .ok id => [⟨l.nextTicket, id, conn⟩]
        | .error _ => []) ++ l.held := by
  obtain ⟨e, hj⟩ | ⟨id, l', hready, hl', hj⟩ | hj := h.join_cases g conn wanted buffer
  · rw [hj]
    rfl
  · obtain ⟨-, -, -, -, hheld, -⟩ := hw.place hready hl'
    rw [hj, enter_eq, (command_wanes g id _ _).held, entering, hheld]
    rfl
  · rw [hj]
    exact (crash_wanes _).held

end Lobby

end Gamewire
