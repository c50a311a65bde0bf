import Gamewire.Proofs.Room.Roster

/-! What is true of a lobby between two operations: its limits are those it was started with, its
register is in order and agrees with the running rooms, and where there may be no room there is
none. Here are the operations that let no one in. -/
namespace Gamewire
set_option autoImplicit false

namespace Lobby

variable {σ : Type} {g : Game σ} {limits : Limits} {l l' : Lobby σ} {id : RoomId}

/-! ## The invariant -/

/-- The limits that a lobby was started with are those that it goes by. -/
structure Sized (limits : Limits) (l : Lobby σ) : Prop where
  limits_eq : l.limits = limits
  maxRooms : l.registry.maxRooms = limits.maxRooms
  capacity : l.registry.capacity = limits.maxMembers
  positive : 0 < limits.maxMembers

/-- Nobody is admitted any more. -/
def Stopped (l : Lobby σ) : Prop := l.shuttingDown = true ∨ l.manager = .gone

/-- A lobby whose register is in order. -/
structure Kept (limits : Limits) (l : Lobby σ) : Prop extends Sized limits l where
  registry : l.registry.Sound
  manager : l.manager ≠ .crashed
  closed : l.Stopped → l.registry.rooms = []

/-- A lobby between two operations, as long as its manager did not crash. -/
structure Sound (limits : Limits) (l : Lobby σ) : Prop extends Kept limits l where
  agrees : l.Agrees

/-- The rooms that run are within the limits. -/
structure Fits (limits : Limits) (l : Lobby σ) : Prop where
  rooms_le : l.rooms.length ≤ limits.maxRooms
  members_le : ∀ x ∈ l.rooms, x.2.connections.length ≤ limits.maxMembers

/-- After a crash of the manager there is no register, but rooms may still run. -/
structure Crashed (limits : Limits) (l : Lobby σ) : Prop extends Fits limits l where
  manager : l.manager = .crashed
  registry : l.registry.rooms = []

def Bounded (limits : Limits) (l : Lobby σ) : Prop := Sound limits l ∨ Crashed limits l

theorem start_eq (h : start limits = .ok l) : l = ofLimits limits ∧ 0 < limits.maxMembers := by
  unfold start at h
  split at h
  · rename_i hcheck
    cases h
    refine ⟨rfl, ?_⟩
    unfold Limits.check at hcheck
    split at hcheck
    · cases hcheck
    · split at hcheck
      · cases hcheck
      · omega
  · cases h

theorem sound_start (h : start limits = .ok l) : Sound limits l := by
  obtain ⟨rfl, hpos⟩ := start_eq h
  refine ⟨⟨⟨rfl, rfl, rfl, hpos⟩, Registry.sound_empty _ _, ?_, fun _ => rfl⟩, rfl⟩
  intro hcrashed
  cases hcrashed

theorem Sound.fits (h : Sound limits l) : Fits limits l where
  rooms_le := by
    have hlength : l.roster.length = l.registry.roster.length := by rw [h.agrees]
    rw [roster, Registry.roster, List.length_map, List.length_map] at hlength
    rw [hlength, ← h.maxRooms]
    exact h.registry.length_le
  members_le := by
    intro x hx
    have hroster : (x.1, x.2.connections) ∈ l.registry.roster := by
      rw [h.agrees]
      exact List.mem_map_of_mem hx
    obtain ⟨y, hy, heq⟩ := List.mem_map.mp hroster
    have hmembers : y.2.members = x.2.connections := congrArg Prod.snd heq
    rw [← hmembers, ← h.capacity]
    exact (h.registry.entries y hy).length_le

theorem Fits.sublist (h : Fits limits l) (hs : l'.rooms.Sublist l.rooms) : Fits limits l' :=
  ⟨Nat.le_trans hs.length_le h.rooms_le, fun x hx => h.members_le x (hs.subset hx)⟩

/-! ## Changes beside the rooms -/

/-- Lobbies that differ in queues, admissions, timers or tickets only. -/
structure Alike (l l' : Lobby σ) : Prop where
  limits : l'.limits = l.limits
  registry : l'.registry = l.registry
  rooms : l'.rooms = l.rooms
  manager : l'.manager = l.manager
  shuttingDown : l'.shuttingDown = l.shuttingDown

theorem Sound.alike (h : Sound limits l) (ha : Alike l l') : Sound limits l' where
  limits_eq := ha.limits.trans h.limits_eq
  maxRooms := by rw [ha.registry, h.maxRooms]
  capacity := by rw [ha.registry, h.capacity]
  positive := h.positive
  registry := by
    rw [ha.registry]
    exact h.registry
  agrees := by
    have hroster : l'.roster = l.roster := by rw [roster, ha.rooms, roster]
    rw [Agrees, ha.registry, hroster]
    exact h.agrees
  manager := by
    rw [ha.manager]
    exact h.manager
  closed := by
    rw [Stopped, ha.manager, ha.shuttingDown, ha.registry]
    exact h.closed

theorem Crashed.alike (h : Crashed limits l) (ha : Alike l l') : Crashed limits l' where
  toFits := by
    have hsame : l'.rooms.Sublist l'.rooms := List.Sublist.refl _
    exact h.toFits.sublist (ha.rooms ▸ hsame)
  manager := by rw [ha.manager, h.manager]
  registry := by rw [ha.registry, h.registry]

theorem openMailbox_alike (buffer : Nat) (l : Lobby σ) : Alike l (l.openMailbox buffer).2 :=
  ⟨rfl, rfl, rfl, rfl, rfl⟩

theorem refuse_alike (ticket : Ticket) (e : AdmissionFault) (l : Lobby σ) :
    Alike l (l.refuse ticket e).2 :=
  ⟨rfl, rfl, rfl, rfl, rfl⟩

theorem receive_alike (ticket : Ticket) (l : Lobby σ) : Alike l (l.receive ticket).2 := by
  unfold receive
  split <;> exact ⟨rfl, rfl, rfl, rfl, rfl⟩

theorem dropMailbox_alike (ticket : Ticket) (l : Lobby σ) : Alike l (l.dropMailbox ticket) :=
  ⟨rfl, rfl, rfl, rfl, rfl⟩

/-! ## Rooms that end -/

theorem Kept.wane (h : Kept limits l) (hw : Wanes l l') : Kept limits l' where
  limits_eq := hw.limits.trans h.limits_eq
  maxRooms := hw.registry.maxRooms.trans h.maxRooms
  capacity := hw.registry.capacity.trans h.capacity
  positive := h.positive
  registry := h.registry.shrink hw.registry
  manager := by
    rw [hw.manager]
    exact h.manager
  closed := by
    intro hclosed
    rw [Stopped, hw.manager, hw.shuttingDown] at hclosed
    exact hw.registry.nil (h.closed hclosed)

theorem Sound.wane (h : Sound limits l) (hw : Wanes l l') (ha : l'.Agrees) : Sound limits l' :=
  ⟨h.toKept.wane hw, ha⟩

theorem Sound.frame (h : Sound limits l) (g : Game σ) (id : RoomId) (sender : ConnId)
    (bytes : List UInt8) : Sound limits (command g id (.frame sender bytes) l) :=
  h.wane (command_wanes g id _ l) (agrees_frame h.agrees h.registry.nodup g id sender bytes)

theorem Sound.expireDue (h : Sound limits l) (g : Game σ) : Sound limits (expireDue g l) :=
  h.wane (expireDue_wanes g l) (expireDue_agrees h.agrees g)

theorem Sound.closeRoom (h : Sound limits l) (g : Game σ) (id : RoomId) (reason : String) :
    Sound limits (command g id (.close reason) { l with registry := l.registry.remove id }) :=
  h.wane (closeRoom_wanes g id reason l) (agrees_close h.agrees g id reason)

/-- All rooms are closed, and the lobby may stop to admit at the same time. -/
theorem Sound.closeAll (h : Sound limits l) (g : Game σ) (reason : String) (shuttingDown : Bool) :
    Sound limits (closeAll g reason { l with shuttingDown := shuttingDown }) := by
  refine ⟨Kept.wane ?_ (closeAll_wanes g reason _), closeAll_agrees ?_ g reason⟩
  · refine ⟨⟨h.limits_eq, h.maxRooms, h.capacity, h.positive⟩, ?_, h.manager, fun _ => rfl⟩
    exact h.registry.shrink (Registry.shrinks_clear _)
  · exact h.agrees

/-- With no room left the manager may go. -/
theorem Sound.retire (h : Sound limits l) (hnil : l.registry.rooms = []) :
    Sound limits { l with manager := .gone } :=
  ⟨⟨⟨h.limits_eq, h.maxRooms, h.capacity, h.positive⟩, h.registry, Manager.noConfusion, fun _ => hnil⟩,
    h.agrees⟩

/-! ## Lobbies whose manager is gone -/

theorem abandonRooms_eq (l : Lobby σ) :
    ∃ ms, l.abandonRooms = { l with
      rooms := l.rooms.filter fun x => l.held.any (·.room == x.1)
      mailboxes := ms } := by
  obtain ⟨ms, hms⟩ := applyEffects_eq
    { l with rooms := l.rooms.filter fun x => l.held.any (·.room == x.1) }
    ((l.rooms.filter fun x => !l.held.any (·.room == x.1)).flatMap fun x => x.2.disconnectAll)
  exact ⟨ms, hms⟩

theorem Sound.crash (h : Sound limits l) : Crashed limits l.crash := by
  obtain ⟨ms, hms⟩ := abandonRooms_eq
    { l with manager := .crashed, registry := { l.registry with rooms := [] } }
  rw [Lobby.crash, hms]
  exact ⟨h.fits.sublist List.filter_sublist, rfl, rfl⟩

theorem Crashed.abandonRooms (h : Crashed limits l) : Crashed limits l.abandonRooms := by
  obtain ⟨ms, hms⟩ := abandonRooms_eq l
  rw [hms]
  exact ⟨h.toFits.sublist List.filter_sublist, h.manager, h.registry⟩

theorem Crashed.frame (h : Crashed limits l) (g : Game σ) (id : RoomId) (sender : ConnId)
    (bytes : List UInt8) : Crashed limits (command g id (.frame sender bytes) l) := by
  obtain ⟨-, hc⟩ | ⟨r, r', ms, hr, hstep, hc⟩ | ⟨r, ms, -, -, hc⟩ :=
    command_cases g id (.frame sender bytes) l
  · rw [hc]
    exact h
  · rw [hc]
    refine ⟨⟨?_, ?_⟩, h.manager, h.registry⟩
    · rw [List.length_map]
      exact h.rooms_le
    · intro x hx
      obtain ⟨y, hy, rfl⟩ := List.mem_map.mp hx
      split
      · rw [(Room.step_some hstep).2]
        exact h.members_le (id, r) (mem_of_lookup hr)
      · exact h.members_le y hy
  · rw [hc]
    refine ⟨h.toFits.sublist List.filter_sublist, h.manager, ?_⟩
    rw [Registry.remove, h.registry]
    rfl

theorem foldl_expire_idle (ts : List Timer) (h : l.manager ≠ .running) (g : Game σ) :
    ts.foldl (expire g) l = l := by
  induction ts with
  | nil => rfl
  | cons t ts ih =>
    have hstep : expire g l t = l := by
      unfold expire
      exact if_neg fun hc => h hc.1
    rw [List.foldl_cons, hstep, ih]

theorem Crashed.expireDue (h : Crashed limits l) (g : Game σ) : Crashed limits (expireDue g l) := by
  unfold Lobby.expireDue
  rw [foldl_expire_idle]
  · exact h.alike ⟨rfl, rfl, rfl, rfl, rfl⟩
  · simp [h.manager]

/-! ## Releases -/

theorem Sound.takeOut (h : Sound limits l) (g : Game σ) (a : Admission) :
    Sound limits (l.takeOut g a) := by
  cases hremove : l.registry.removeMember a.room a.conn with
  | none =>
    rw [takeOut_eq_self g hremove]
    exact h
  | some p =>
    obtain ⟨e, registry⟩ := p
    have hsound := Registry.sound_removeMember h.registry hremove
    obtain ⟨e₀, he₀, -, rfl, -, -⟩ := Registry.removeMember_eq_some hremove
    refine ⟨Kept.wane ?_ (takeOut_wanes g hremove), takeOut_agrees h.agrees g a⟩
    refine ⟨⟨h.limits_eq, h.maxRooms, h.capacity, h.positive⟩, hsound, h.manager, ?_⟩
    intro hclosed
    rw [h.closed hclosed] at he₀
    cases he₀

theorem abandonRooms_of_nil (h : l.rooms = []) : l.abandonRooms = l := by
  unfold Lobby.abandonRooms
  simp only [h, List.filter_nil, List.flatMap_nil, applyEffects, List.foldl_nil]
  rw [← h]

/-- Giving an admission back is the same whether or not the manager is still there: without it there
is no room to leave. -/
theorem Sound.release_eq (h : Sound limits l) (g : Game σ) {ticket : Ticket} {a : Admission}
    (ha : l.admission? ticket = some a) : l.release g ticket = (l.free ticket).takeOut g a := by
  obtain ⟨hnone, -⟩ | ⟨a', ha', ⟨-, hr⟩ | ⟨hidle, hr⟩⟩ := release_cases g ticket l
  · rw [ha] at hnone
    cases hnone
  · rw [ha] at ha'
    cases ha'
    exact hr
  · have hgone : l.manager = .gone := by
      cases hmanager : l.manager with
      | running => exact absurd hmanager hidle
      | gone => rfl
      | crashed => exact absurd hmanager h.manager
    have hnil := h.closed (.inr hgone)
    have hremove : (l.free ticket).registry.removeMember a.room a.conn = none := by
      rw [free, Registry.removeMember, hnil]
      rfl
    rw [hr, takeOut_eq_self g hremove]
    exact abandonRooms_of_nil (h.agrees.rooms_nil hnil)

theorem Sound.release (h : Sound limits l) (g : Game σ) (ticket : Ticket) :
    Sound limits (l.release g ticket) := by
  cases ha : l.admission? ticket with
  | none =>
    unfold Lobby.release
    rw [ha]
    exact h
  | some a =>
    have hfree : Sound limits (l.free ticket) := h.alike ⟨rfl, rfl, rfl, rfl, rfl⟩
    rw [h.release_eq g ha]
    exact hfree.takeOut g a

theorem Crashed.release (h : Crashed limits l) (g : Game σ) (ticket : Ticket) :
    Crashed limits (l.release g ticket) := by
  have hfree : Crashed limits (l.free ticket) := h.alike ⟨rfl, rfl, rfl, rfl, rfl⟩
  obtain ⟨-, hr⟩ | ⟨a, -, ⟨hrunning, -⟩ | ⟨-, hr⟩⟩ := release_cases g ticket l
  · rw [hr]
    exact h
  · rw [h.manager] at hrunning
    cases hrunning
  · rw [hr]
    exact hfree.abandonRooms

theorem Bounded.release (h : Bounded limits l) (g : Game σ) (ticket : Ticket) :
    Bounded limits (l.release g ticket) := by
  obtain h | h := h
  · exact .inl (h.release g ticket)
  · exact .inr (h.release g ticket)

end Lobby

end Gamewire
