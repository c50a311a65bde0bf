import Gamewire.Proofs.Room.Lobby

/-! Who is in which room is known twice: to the register, and to the running rooms. Both lists stay
equal, room by room and member by member, whatever the rules of the game do. -/
namespace Gamewire
set_option autoImplicit false

def Registry.roster (r : Registry) : List (RoomId × List ConnId) :=
  r.rooms.map fun x => (x.1, x.2.members)

namespace Registry

theorem keys_roster (r : Registry) : r.roster.map (·.1) = r.rooms.map (·.1) := by
  rw [roster, List.map_map]
  rfl

theorem lookup_roster (r : Registry) (id : RoomId) :
    r.roster.lookup id = (r.rooms.lookup id).map (·.members) :=
  lookup_map_snd Entry.members id r.rooms

theorem roster_setEntry (r : Registry) (id : RoomId) (e : Entry) :
    (r.setEntry id e).roster = r.roster.map fun x => if x.1 = id then (id, e.members) else x :=
  map_snd_set Entry.members id e r.rooms

theorem roster_remove (r : Registry) (id : RoomId) :
    (r.remove id).roster = r.roster.filter (·.1 != id) :=
  map_snd_drop Entry.members id r.rooms

end Registry

namespace Lobby

variable {σ : Type} {g : Game σ} {l : Lobby σ} {id : RoomId}

def roster (l : Lobby σ) : List (RoomId × List ConnId) := l.rooms.map fun x => (x.1, x.2.connections)

/-- The register and the running rooms tell the same. -/
def Agrees (l : Lobby σ) : Prop := l.registry.roster = l.roster

theorem lookup_roster (l : Lobby σ) (id : RoomId) :
    l.roster.lookup id = (l.rooms.lookup id).map (·.connections) :=
  lookup_map_snd Room.connections id l.rooms

theorem Agrees.lookup (h : l.Agrees) (id : RoomId) :
    (l.registry.rooms.lookup id).map (·.members) = (l.rooms.lookup id).map (·.connections) := by
  rw [← Registry.lookup_roster, ← lookup_roster, h]

theorem Agrees.lookup_some (h : l.Agrees) {e : Entry} (he : l.registry.rooms.lookup id = some e) :
    ∃ r, l.rooms.lookup id = some r ∧ r.connections = e.members := by
  have hl := h.lookup id
  rw [he] at hl
  obtain ⟨r, hr, hmembers⟩ := Option.map_eq_some_iff.mp hl.symm
  exact ⟨r, hr, hmembers⟩

theorem Agrees.rooms_nil (h : l.Agrees) (hnil : l.registry.rooms = []) : l.rooms = [] := by
  have hroster : l.roster = [] := by
    rw [← h, Registry.roster, hnil]
    rfl
  exact List.map_eq_nil_iff.mp hroster

/-! ## Commands -/

/-- The register was told of a command before the room is. If the room ends over it, both forget the
room, whatever was written down. -/
theorem agrees_command {r : Room σ} (g : Game σ) (c : Command) (reg : Registry)
    (hr : l.rooms.lookup id = some r)
    (hreg : reg.roster = l.roster.map fun x =>
      if x.1 = id then (id, c.change r.connections) else x) :
    (command g id c { l with registry := reg }).Agrees := by
  obtain ⟨hnone, -⟩ | ⟨s, r', ms, hs, hstep, hc⟩ | ⟨s, ms, -, -, hc⟩ :=
    command_cases g id c { l with registry := reg }
  · rw [hr] at hnone
    cases hnone
  · rw [hr] at hs
    cases hs
    have hchange := (Room.step_some hstep).2
    rw [hc, Agrees, hreg, ← hchange]
    exact (map_snd_set Room.connections id r' l.rooms).symm
  · rw [hc, Agrees, Registry.roster_remove, hreg, drop_set]
    exact (map_snd_drop Room.connections id l.rooms).symm

theorem command_close_rooms (g : Game σ) (id : RoomId) (reason : String) (l : Lobby σ) :
    (command g id (.close reason) l).rooms = l.rooms.filter (·.1 != id) := by
  obtain ⟨hnone, hc⟩ | ⟨r, r', ms, -, hstep, -⟩ | ⟨r, ms, -, -, hc⟩ :=
    command_cases g id (.close reason) l
  · rw [hc, drop_of_lookup hnone]
  · rw [Room.step_close] at hstep
    cases hstep
  · rw [hc]

theorem agrees_frame (h : l.Agrees) (hn : (l.registry.rooms.map (·.1)).Nodup) (g : Game σ)
    (id : RoomId) (sender : ConnId) (bytes : List UInt8) :
    (command g id (.frame sender bytes) l).Agrees := by
  cases hr : l.rooms.lookup id with
  | none =>
    unfold command
    rw [hr]
    exact h
  | some r =>
    refine agrees_command g (.frame sender bytes) l.registry hr ?_
    have hkeys : (l.roster.map (·.1)).Nodup := by
      rw [← h, Registry.keys_roster]
      exact hn
    have hself : l.roster.lookup id = some r.connections := by
      rw [lookup_roster, hr]
      rfl
    rw [h]
    exact (set_of_lookup hkeys hself).symm

theorem agrees_enter (h : l.Agrees) {e : Entry} (he : l.registry.rooms.lookup id = some e)
    (g : Game σ) (conn : ConnId) (ticket : Ticket) : (l.enter g id conn ticket).Agrees := by
  obtain ⟨r, hr, hmembers⟩ := h.lookup_some he
  obtain ⟨generation, hadd⟩ := Registry.addMember_of_lookup he conn
  unfold enter
  refine agrees_command (l := { l with held := ⟨ticket, id, conn⟩ :: l.held }) g
    (.join conn ticket) (l.registry.addMember id conn) hr ?_
  rw [hadd, Registry.roster_setEntry, h, Command.change, hmembers]
  rfl

theorem agrees_leave (h : l.Agrees) {conn : ConnId} {e : Entry} {reg : Registry}
    (hremove : l.registry.removeMember id conn = some (e, reg)) (g : Game σ) :
    (command g id (.leave conn) { l with registry := reg }).Agrees := by
  obtain ⟨e₀, he₀, -, rfl, hrest, -⟩ := Registry.removeMember_eq_some hremove
  obtain ⟨r, hr, hmembers⟩ := h.lookup_some he₀
  refine agrees_command g (.leave conn) _ hr ?_
  rw [Registry.roster_setEntry, h, Command.change, hrest, hmembers]

theorem agrees_close (h : l.Agrees) (g : Game σ) (id : RoomId) (reason : String) :
    (command g id (.close reason) { l with registry := l.registry.remove id }).Agrees := by
  obtain ⟨hnone, hc⟩ | ⟨r, r', ms, -, hstep, -⟩ | ⟨r, ms, -, -, hc⟩ :=
    command_cases g id (.close reason) { l with registry := l.registry.remove id }
  · rw [hc, Agrees, Registry.roster_remove, h, roster, ← map_snd_drop, drop_of_lookup hnone]
    rfl
  · rw [Room.step_close] at hstep
    cases hstep
  · rw [hc, Agrees, Registry.roster_remove, Registry.roster_remove, drop_drop, h]
    exact (map_snd_drop Room.connections id l.rooms).symm

/-! ## Grace periods and the end -/

theorem expire_agrees (h : l.Agrees) (g : Game σ) (t : Timer) : (expire g l t).Agrees := by
  unfold expire
  split
  · exact agrees_close h g t.room "room closed"
  · exact h

theorem foldl_expire_agrees (ts : List Timer) (h : l.Agrees) (g : Game σ) :
    (ts.foldl (expire g) l).Agrees := by
  induction ts generalizing l with
  | nil => exact h
  | cons t ts ih => exact ih (expire_agrees h g t)

theorem expireDue_agrees (h : l.Agrees) (g : Game σ) : (expireDue g l).Agrees := by
  unfold expireDue
  refine foldl_expire_agrees _ ?_ g
  exact h

theorem takeOut_agrees (h : l.Agrees) (g : Game σ) (a : Admission) : (l.takeOut g a).Agrees := by
  cases hremove : l.registry.removeMember a.room a.conn with
  | none =>
    rw [takeOut_eq_self g hremove]
    exact h
  | some p =>
    have hleft := agrees_leave h hremove g
    obtain ⟨-, ht⟩ | ⟨left, rfl, -, ht⟩ := takeOut_cases g hremove
    · rw [ht]
      exact hleft
    · rw [ht]
      refine expireDue_agrees ?_ g
      exact hleft

theorem foldl_close_rooms (g : Game σ) (reason : String) (ids : List RoomId) (l : Lobby σ) :
    (ids.foldl (fun l id => command g id (.close reason) l) l).rooms =
      l.rooms.filter fun x => decide (x.1 ∉ ids) := by
  induction ids generalizing l with
  | nil => exact (List.filter_eq_self.mpr (by simp)).symm
  | cons id ids ih =>
    rw [List.foldl_cons, ih, command_close_rooms, List.filter_filter]
    apply List.filter_congr
    intro x _
    by_cases hx : x.1 = id <;> simp [hx]

theorem closeAll_rooms (h : l.Agrees) (g : Game σ) (reason : String) :
    (closeAll g reason l).rooms = [] := by
  unfold closeAll
  rw [foldl_close_rooms]
  apply List.filter_eq_nil_iff.mpr
  intro x hx
  have hkey : x.1 ∈ l.registry.roster.map (·.1) := by
    rw [h, roster, List.map_map]
    exact List.mem_map_of_mem hx
  rw [Registry.keys_roster] at hkey
  simpa using List.mem_map.mp hkey

theorem closeAll_agrees (h : l.Agrees) (g : Game σ) (reason : String) :
    (closeAll g reason l).Agrees := by
  rw [Agrees, Registry.roster, roster, closeAll_registry, closeAll_rooms h]
  rfl

end Lobby

end Gamewire
