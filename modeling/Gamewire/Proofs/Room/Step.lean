import Gamewire.Proofs.Room.Place
import Gamewire.Proofs.Room.Run

/-! What every operation keeps: the invariant of lobbies, and the manager, which goes only when it is
told to and crashes only while it makes a room. -/
namespace Gamewire
set_option autoImplicit false

namespace Lobby

variable {σ : Type} {g : Game σ} {limits : Limits} {l l' : Lobby σ}

/-! ## The invariant -/

theorem dismiss_cases (g : Game σ) (l : Lobby σ) :
    (l.dismiss g).manager = .gone ∨ l.dismiss g = l := by
  unfold dismiss
  split
  · exact .inl rfl
  · exact .inr rfl

theorem Sound.dismiss (h : Sound limits l) (g : Game σ) : Sound limits (l.dismiss g) := by
  unfold Lobby.dismiss
  split
  · have hclosed := h.closeAll g "server stopped" l.shuttingDown
    exact hclosed.retire (closeAll_registry g "server stopped" l)
  · exact h

theorem Sound.perform (h : Sound limits l) (g : Game σ) (op : Operation) :
    Bounded limits (l.perform g op) := by
  cases op with
  | join conn room buffer => exact Bounded.join (.inl h) g conn room buffer
  | joinInVain conn room buffer =>
    exact (Bounded.join (.inl h) g conn room buffer).release g _
  | release ticket => exact .inl (h.release g ticket)
  | send a sender bytes =>
    simp only [Lobby.perform, send]
    split
    · exact .inl (h.frame g a.room sender bytes)
    · exact .inl h
  | receive ticket => exact .inl (h.alike (receive_alike ticket l))
  | dropMailbox ticket => exact .inl (h.alike (dropMailbox_alike ticket l))
  | shutdownRoom room reason =>
    simp only [Lobby.perform, shutdownRoom]
    split
    · exact .inl h
    · split
      · exact .inl (h.closeRoom g room reason)
      · exact .inl h
  | shutdown reason =>
    simp only [Lobby.perform, shutdown]
    split
    · exact .inl h
    · exact .inl (h.closeAll g reason true)
  | advance ms =>
    refine .inl (Sound.expireDue ?_ g)
    exact h.alike ⟨rfl, rfl, rfl, rfl, rfl⟩
  | dismiss => exact .inl (h.dismiss g)

/-- A crash is for ever, but frames still reach the rooms that run. -/
theorem Crashed.perform (h : Crashed limits l) (g : Game σ) (op : Operation) :
    Bounded limits (l.perform g op) := by
  have hidle : l.manager ≠ .running := by simp [h.manager]
  cases op with
  | join conn room buffer => exact Bounded.join (.inr h) g conn room buffer
  | joinInVain conn room buffer =>
    exact (Bounded.join (.inr h) g conn room buffer).release g _
  | release ticket => exact .inr (h.release g ticket)
  | send a sender bytes =>
    simp only [Lobby.perform, send]
    split
    · exact .inr (h.frame g a.room sender bytes)
    · exact .inr h
  | receive ticket => exact .inr (h.alike (receive_alike ticket l))
  | dropMailbox ticket => exact .inr (h.alike (dropMailbox_alike ticket l))
  | shutdownRoom room reason =>
    simp only [Lobby.perform, shutdownRoom, if_pos hidle]
    exact .inr h
  | shutdown reason =>
    simp only [Lobby.perform, shutdown, if_pos hidle]
    exact .inr h
  | advance ms =>
    refine .inr (Crashed.expireDue ?_ g)
    exact h.alike ⟨rfl, rfl, rfl, rfl, rfl⟩
  | dismiss =>
    simp only [Lobby.perform, Lobby.dismiss, if_neg hidle]
    exact .inr h

theorem Bounded.perform (h : Bounded limits l) (g : Game σ) (op : Operation) :
    Bounded limits (l.perform g op) := by
  obtain h | h := h
  · exact h.perform g op
  · exact h.perform g op

/-! ## How the manager fares -/

/-- There is no number for a new room, or making one crashes. -/
def Doomed (g : Game σ) (l : Lobby σ) : Prop :=
  UInt32.size ≤ l.registry.nextId ∨ ∃ id, g.logic.init id = none

theorem Doomed.mono (h : Doomed g l) (hle : l.registry.nextId ≤ l'.registry.nextId) :
    Doomed g l' :=
  h.imp_left fun hspent => Nat.le_trans hspent hle

/-- The manager goes on as before, or it crashes, which it only does while it admits. A number is not
used again. -/
structure Fares (g : Game σ) (l l' : Lobby σ) : Prop where
  nextId_le : l.registry.nextId ≤ l'.registry.nextId
  rooms : ∀ id ∈ l'.registry.rooms.map (·.1),
    id ∈ l.registry.rooms.map (·.1) ∨ l.registry.nextId ≤ id.toNat
  shuttingDown : l.shuttingDown = true → l'.shuttingDown = true
  manager : l'.manager = l.manager ∨
    (l'.manager = .crashed ∧ l.manager = .running ∧ l.shuttingDown = false ∧ Doomed g l')

theorem Fares.of_eq (hnext : l'.registry.nextId = l.registry.nextId)
    (hrooms : l'.registry.rooms.map (·.1) = l.registry.rooms.map (·.1))
    (hshut : l'.shuttingDown = l.shuttingDown) (hmanager : l'.manager = l.manager) :
    Fares g l l' where
  nextId_le := Nat.le_of_eq hnext.symm
  rooms := by
    intro id hid
    rw [hrooms] at hid
    exact .inl hid
  shuttingDown := fun h => hshut.trans h
  manager := .inl hmanager

theorem Fares.refl (l : Lobby σ) : Fares g l l := .of_eq rfl rfl rfl rfl

theorem Wanes.fares (h : Wanes l l') : Fares g l l' where
  nextId_le := Nat.le_of_eq h.registry.nextId.symm
  rooms := fun _ hid => .inl ((h.registry.rooms.map _).subset hid)
  shuttingDown := fun hs => h.shuttingDown.trans hs
  manager := .inl h.manager

theorem Alike.fares (h : Alike l l') : Fares g l l' :=
  .of_eq (by rw [h.registry]) (by rw [h.registry]) h.shuttingDown h.manager

theorem Fares.trans {l'' : Lobby σ} (h : Fares g l l') (h' : Fares g l' l'') : Fares g l l'' where
  nextId_le := Nat.le_trans h.nextId_le h'.nextId_le
  rooms := by
    intro id hid
    obtain hid | hnew := h'.rooms id hid
    · exact h.rooms id hid
    · exact .inr (Nat.le_trans h.nextId_le hnew)
  shuttingDown := fun hs => h'.shuttingDown (h.shuttingDown hs)
  manager := by
    obtain hm | ⟨hcrashed, hrunning, hopen, hdoomed⟩ := h.manager
    · obtain hm' | ⟨hcrashed, hrunning, hopen, hdoomed⟩ := h'.manager
      · exact .inl (hm'.trans hm)
      · refine .inr ⟨hcrashed, hm.symm.trans hrunning, ?_, hdoomed⟩
        refine Bool.eq_false_iff.mpr fun hs => ?_
        rw [h.shuttingDown hs] at hopen
        cases hopen
    · obtain hm' | ⟨-, hrunning', -⟩ := h'.manager
      · exact .inr ⟨hm'.trans hcrashed, hrunning, hopen, hdoomed.mono h'.nextId_le⟩
      · rw [hcrashed] at hrunning'
        cases hrunning'

theorem enter_fares (g : Game σ) (id : RoomId) (conn : ConnId) (ticket : Ticket) (l : Lobby σ) :
    Fares g l (l.enter g id conn ticket) := by
  unfold enter
  refine Fares.trans ?_ (command_wanes g id (.join conn ticket) _).fares
  exact .of_eq (Registry.addMember_nextId l.registry id conn)
    (Registry.addMember_keys l.registry id conn) rfl rfl

theorem createRoom_fares {id : RoomId} (h : l.createRoom g = some (id, l')) : Fares g l l' := by
  obtain ⟨registry, state, hcreate, -, rfl⟩ := createRoom_eq_some h
  obtain ⟨hid, rfl⟩ := Registry.create_eq_some hcreate
  refine ⟨Nat.le_succ _, ?_, fun hs => hs, .inl rfl⟩
  intro id' hid'
  simp only [List.map_append, List.mem_append, List.map_cons, List.map_nil,
    List.mem_singleton] at hid'
  obtain hold | rfl := hid'
  · exact .inl hold
  · exact .inr (Nat.le_of_eq hid.symm)

theorem Bounded.join_fares (h : Bounded limits l) (g : Game σ) (conn : ConnId)
    (requested : Option RoomId) (buffer : Nat) :
    Fares g l (l.join g conn requested buffer).2.2 := by
  have hopened : Fares g l (l.openMailbox buffer).2 := (openMailbox_alike buffer l).fares
  rw [join_eq]
  refine hopened.trans ?_
  obtain h | h := h
  · obtain ⟨e, hp⟩ | ⟨id, l', -, hl', hp⟩ | ⟨hrunning, hopen, hcreate, hp⟩ :=
      place_cases (h.alike (openMailbox_alike buffer l)) g conn requested l.nextTicket
    · rw [hp]
      exact (refuse_alike _ _ _).fares
    · rw [hp]
      obtain rfl | hcreate := hl'
      · exact enter_fares g id conn _ _
      · exact (createRoom_fares hcreate).trans (enter_fares g id conn _ _)
    · have hdoomed : Doomed g (l.openMailbox buffer).2 := createRoom_eq_none hcreate
      have hw := crash_wanes (l.openMailbox buffer).2
      have hle := Nat.le_of_eq hw.registry.nextId.symm
      rw [hp]
      refine .trans ⟨hle, ?_, fun hs => hw.shuttingDown.trans hs, .inr ⟨hw.manager, ?_⟩⟩
        (refuse_alike l.nextTicket .unavailable _).fares
      · intro id hid
        rw [hw.registry.nil rfl] at hid
        cases hid
      · exact ⟨hrunning, hopen, hdoomed.mono hle⟩
  · have hcrashed := h.alike (openMailbox_alike buffer l)
    rw [place_eq, if_pos (by simp [hcrashed.manager])]
    exact (refuse_alike _ _ _).fares

theorem takeOut_fares (g : Game σ) (a : Admission) (l : Lobby σ) : Fares g l (l.takeOut g a) := by
  cases hremove : l.registry.removeMember a.room a.conn with
  | none =>
    rw [takeOut_eq_self g hremove]
    exact .refl l
  | some p =>
    obtain ⟨e, registry⟩ := p
    have hw := (takeOut_wanes g hremove).fares (g := g)
    obtain ⟨-, -, -, rfl, -, -⟩ := Registry.removeMember_eq_some hremove
    refine .trans ?_ hw
    exact .of_eq rfl (map_fst_set _ _ _) rfl rfl

theorem release_fares (g : Game σ) (ticket : Ticket) (l : Lobby σ) :
    Fares g l (l.release g ticket) := by
  have hfree : Fares g l (l.free ticket) := .of_eq rfl rfl rfl rfl
  obtain ⟨-, hr⟩ | ⟨a, -, ⟨-, hr⟩ | ⟨-, hr⟩⟩ := release_cases g ticket l
  · rw [hr]
    exact .refl l
  · rw [hr]
    exact hfree.trans (takeOut_fares g a _)
  · rw [hr]
    exact hfree.trans (abandonRooms_wanes _).fares

theorem closeAll_fares (g : Game σ) (reason : String) (l : Lobby σ) :
    Fares g l (closeAll g reason l) := by
  refine .trans ?_ (closeAll_wanes g reason l).fares
  exact ⟨Nat.le_refl _, fun id hid => absurd hid List.not_mem_nil, fun hs => hs, .inl rfl⟩

theorem Bounded.fares (h : Bounded limits l) (g : Game σ) (op : Operation) (hop : op ≠ .dismiss) :
    Fares g l (l.perform g op) := by
  cases op with
  | join conn room buffer => exact h.join_fares g conn room buffer
  | joinInVain conn room buffer =>
    exact (h.join_fares g conn room buffer).trans (release_fares g _ _)
  | release ticket => exact release_fares g ticket l
  | send a sender bytes =>
    simp only [Lobby.perform, send]
    split
    · exact (command_wanes g a.room (.frame sender bytes) l).fares
    · exact .refl l
  | receive ticket => exact (receive_alike ticket l).fares
  | dropMailbox ticket => exact (dropMailbox_alike ticket l).fares
  | shutdownRoom room reason =>
    simp only [Lobby.perform, shutdownRoom]
    split
    · exact .refl l
    · split
      · exact (closeRoom_wanes g room reason l).fares
      · exact .refl l
  | shutdown reason =>
    simp only [Lobby.perform, shutdown]
    split
    · exact .refl l
    · refine .trans ?_ (closeAll_fares g reason _)
      exact ⟨Nat.le_refl _, fun _ hid => .inl hid, fun _ => rfl, .inl rfl⟩
  | advance ms =>
    refine .trans ?_ (expireDue_wanes g _).fares
    exact .of_eq rfl rfl rfl rfl
  | dismiss => exact absurd rfl hop

/-- Once nobody is admitted any more, nobody ever is. -/
theorem Sound.perform_stopped (h : Sound limits l) (hstopped : l.Stopped) (g : Game σ)
    (op : Operation) : Sound limits (l.perform g op) ∧ (l.perform g op).Stopped := by
  by_cases hop : op = .dismiss
  · subst hop
    refine ⟨h.dismiss g, ?_⟩
    obtain hgone | hsame := dismiss_cases g l
    · exact .inr hgone
    · rw [Lobby.perform, hsame]
      exact hstopped
  · have hfares := Bounded.fares (.inl h) g op hop
    have hkeeps : (l.perform g op).manager = l.manager := by
      obtain hsame | ⟨-, hrunning, hopen, -⟩ := hfares.manager
      · exact hsame
      · obtain hshut | hgone := hstopped
        · rw [hopen] at hshut
          cases hshut
        · rw [hrunning] at hgone
          cases hgone
    refine ⟨?_, hstopped.imp hfares.shuttingDown hkeeps.trans⟩
    obtain hsound | hcrashed := h.perform g op
    · exact hsound
    · exact absurd (hkeeps.symm.trans hcrashed.manager) h.manager

end Lobby

end Gamewire
