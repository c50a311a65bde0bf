import Gamewire.Proofs.Room.Closing
import Mathlib

/-! Closing one room and closing all of them. Nothing but the rooms and the queues of their members
changes; a room that is gone already is closed without an effect, and a server that was shut down
never has a room again. -/
namespace Gamewire
set_option autoImplicit false

theorem Registry.remove_remove (r : Registry) (id : RoomId) : (r.remove id).remove id = r.remove id := by
  simp only [Registry.remove, List.filter_filter, Bool.and_self]

namespace Lobby

variable {σ : Type} {g : Game σ} {limits : Limits} {l l' : Lobby σ} {id : RoomId} {r : Room σ}
  {op : Operation} {reason : String}

/-! ## What changes -/

/-- Some members get one notice, which is read before the frames that wait; no other queue changes. -/
structure Notified (reason : String) (tickets : List Ticket) (l l' : Lobby σ) : Prop where
  told : ∀ t ∈ tickets, ∀ q, l.mailbox? t = some q → q.notice = none ∧
    l'.mailbox? t = some { q with notice := some reason, connected := false }
  first : ∀ t ∈ tickets, (l.mailbox? t).isSome → (l'.receive t).1 = some (.closed reason)
  others : ∀ t, t ∉ tickets → l'.mailbox? t = l.mailbox? t

/-- A room goes, and its members are told. -/
structure Closes (id : RoomId) (r : Room σ) (reason : String) (l l' : Lobby σ) : Prop where
  only : ∃ ms, l' = { l with
    registry := l.registry.remove id
    rooms := l.rooms.filter (·.1 != id)
    mailboxes := ms }
  notified : Notified reason (r.members.map (·.2)) l l'

/-- All rooms go, and their members are told. -/
structure ShutsDown (reason : String) (l l' : Lobby σ) : Prop where
  only : ∃ ms, l' = { l with
    shuttingDown := true
    registry := { l.registry with rooms := [] }
    rooms := []
    mailboxes := ms }
  notified : Notified reason l.seated l l'

/-- There is no room, and nobody gets one. -/
structure Deserted (g : Game σ) (l : Lobby σ) : Prop where
  registry : l.registry.rooms = []
  rooms : l.rooms = []
  refuses : ∀ conn room buffer, (l.join g conn room buffer).2.1 =
    .error (if l.manager = .running then .shuttingDown else .unavailable)

theorem Wired.linked_of_seated (h : Wired l) {t : Ticket} (ht : t ∈ l.seated) {q : Mailbox}
    (hq : l.mailbox? t = some q) : q.Linked := by
  obtain ⟨x, hx, hmem⟩ := mem_seated.mp ht
  obtain ⟨m, hm, rfl⟩ := List.mem_map.mp hmem
  exact h.linked x hx m hm q hq

theorem Wired.notified (h : Wired l) {tickets : List Ticket} (hseated : ∀ t ∈ tickets, t ∈ l.seated)
    (hafter : ∀ t, l'.mailbox? t =
      (l.mailbox? t).map fun q => if t ∈ tickets then q.close reason else q) :
    Notified reason tickets l l' := by
  refine ⟨fun t ht q hq => ?_, fun t ht hsome => ?_, fun t ht => ?_⟩
  · refine ⟨(h.linked_of_seated (hseated t ht) hq).1, ?_⟩
    rw [hafter, hq, Option.map_some, if_pos ht]
    rfl
  · obtain ⟨q, hq⟩ := Option.isSome_iff_exists.mp hsome
    have hclosed : l'.mailbox? t = some (q.close reason) := by
      rw [hafter, hq, Option.map_some, if_pos ht]
    rw [(receive_mailbox? hclosed).1]
    rfl
  · rw [hafter]
    simp only [if_neg ht, Option.map_id']

/-! ## One room -/

theorem Sound.shutdownRoom_closes (h : Sound limits l) (hw : Wired l) (g : Game σ)
    (hrunning : l.manager = .running) {e : Entry} (he : l.registry.rooms.lookup id = some e)
    (reason : String) : ∃ r, l.rooms.lookup id = some r ∧ r.connections = e.members ∧
      (l.shutdownRoom g id reason).1 = .ok () ∧
      Closes id r reason l (l.shutdownRoom g id reason).2 := by
  obtain ⟨r, hr, hmembers⟩ := h.agrees.lookup_some he
  have hr' : ({ l with registry := l.registry.remove id } : Lobby σ).rooms.lookup id = some r := hr
  rw [shutdownRoom_of_live g reason hrunning he]
  refine ⟨r, hr, hmembers, rfl, ?_, ?_⟩
  · obtain ⟨hnone, -⟩ | ⟨_, _, _, -, hstep, -⟩ | ⟨_, ms, -, -, hc⟩ :=
      command_cases g id (.close reason) { l with registry := l.registry.remove id }
    · cases hr'.symm.trans hnone
    · rw [Room.step_close] at hstep
      cases hstep
    · refine ⟨ms, ?_⟩
      rw [hc, Registry.remove_remove]
  · refine hw.notified (fun t ht => ?_) (mailbox?_close g reason hr')
    exact mem_seated.mpr ⟨(id, r), mem_of_lookup hr, ht⟩

/-! ## Rooms that were made before -/

theorem Bounded.newRoom?_eq (h : Bounded limits l) (hnew : l.newRoom? g op = some id) :
    id.toNat = l.registry.nextId := by
  have hjoin : ∀ conn room buffer,
      l.newRoom? g (.join conn room buffer) = some id → id.toNat = l.registry.nextId := by
    intro conn room buffer hnew
    simp only [newRoom?] at hnew
    obtain ⟨e, hj⟩ | ⟨id', l', hready, hl', hj⟩ | hj := h.join_cases g conn room buffer
    · rw [hj] at hnew
      cases hnew
    · rw [hj] at hnew
      simp only [Option.ite_none_right_eq_some, Option.some.injEq] at hnew
      obtain ⟨hfresh, rfl⟩ := hnew
      obtain rfl | hcreate := hl'
      · obtain ⟨e, he, -⟩ := hready.space
        have hlive : l.registry.rooms.lookup id' = some e := he
        rw [hlive] at hfresh
        cases hfresh
      · obtain ⟨registry, state, hreg, -⟩ := createRoom_eq_some hcreate
        exact (Registry.create_eq_some hreg).1
    · rw [hj] at hnew
      cases hnew
  cases op with
  | join conn room buffer => exact hjoin conn room buffer hnew
  | joinInVain conn room buffer => exact hjoin conn room buffer hnew
  | release | send | receive | dropMailbox | shutdownRoom | shutdown | advance | dismiss => cases hnew

theorem Bounded.made_lt (h : Bounded limits l) {ops : List Operation} (hid : id ∈ l.made g ops) :
    l.registry.nextId ≤ id.toNat ∧ id.toNat < (l.run g ops).registry.nextId := by
  induction ops generalizing l with
  | nil => cases hid
  | cons op ops ih =>
    have hstep := ((perform_outcome g l op).nextId h).1
    have hrest := (h.perform g op).run_nextId g ops
    have hrun : l.run g (op :: ops) = (l.perform g op).run g ops := rfl
    rw [hrun]
    obtain hfirst | hlater := List.mem_append.mp hid
    · have hnew := Option.mem_toList.mp hfirst
      have heq := h.newRoom?_eq hnew
      rw [hnew, Option.toList_some, List.length_singleton] at hstep
      omega
    · obtain ⟨hle, hlt⟩ := ih (h.perform g op) hlater
      exact ⟨by omega, hlt⟩

theorem shutdownRoom_of_gone (g : Game σ) (reason : String) (hrunning : l.manager = .running)
    (hgone : l.registry.rooms.lookup id = none) (hever : l.registry.everExisted id = true) :
    l.shutdownRoom g id reason = (.ok (), l) := by
  unfold Lobby.shutdownRoom
  rw [if_neg (not_not_intro hrunning), hgone, if_pos hever]

/-! ## All rooms -/

theorem foldl_close_eq (g : Game σ) (reason : String) (ids : List RoomId)
    (hnil : l.registry.rooms = []) :
    ∃ rooms ms, ids.foldl (fun l id => command g id (.close reason) l) l =
      { l with rooms := rooms, mailboxes := ms } := by
  induction ids generalizing l with
  | nil => exact ⟨l.rooms, l.mailboxes, rfl⟩
  | cons id ids ih =>
    rw [List.foldl_cons]
    obtain ⟨-, hc⟩ | ⟨_, _, _, -, hstep, -⟩ | ⟨_, ms, -, -, hc⟩ :=
      command_cases g id (.close reason) l
    · rw [hc]
      exact ih hnil
    · rw [Room.step_close] at hstep
      cases hstep
    · have hsame : l.registry.remove id = l.registry := by
        simp only [Registry.remove, hnil, List.filter_nil]
        rw [← hnil]
      rw [hc, hsame]
      obtain ⟨rooms, ms', hrest⟩ := ih (l := { l with
        rooms := l.rooms.filter (·.1 != id), mailboxes := ms }) hnil
      exact ⟨rooms, ms', hrest⟩

theorem Agrees.closeAll_eq (h : l.Agrees) (g : Game σ) (reason : String) :
    ∃ ms, Lobby.closeAll g reason l = { l with
      registry := { l.registry with rooms := [] }, rooms := [], mailboxes := ms } := by
  have hrooms := closeAll_rooms h g reason
  unfold Lobby.closeAll at hrooms ⊢
  obtain ⟨rooms, ms, heq⟩ := foldl_close_eq g reason (l.registry.rooms.map (·.1))
    (l := { l with registry := { l.registry with rooms := [] } }) rfl
  rw [heq] at hrooms
  refine ⟨ms, ?_⟩
  rw [heq, show rooms = [] from hrooms]

theorem Sound.shutdown_shutsDown (h : Sound limits l) (hw : Wired l) (g : Game σ)
    (hrunning : l.manager = .running) (reason : String) : (l.shutdown g reason).1 = .ok () ∧
      ShutsDown reason l (l.shutdown g reason).2 := by
  have hshut : Wired { l with shuttingDown := true } := hw.same rfl rfl rfl (.refl _)
  have hagrees : ({ l with shuttingDown := true } : Lobby σ).Agrees := h.agrees
  rw [shutdown_of_running g reason hrunning]
  refine ⟨rfl, ?_, ?_⟩
  · exact hagrees.closeAll_eq g reason
  · exact hw.notified (fun _ ht => ht) (hagrees.mailbox?_closeAll hshut g reason)

theorem Sound.deserted (h : Sound limits l) (hstopped : l.Stopped) (g : Game σ) : Deserted g l := by
  have hnil := h.closed hstopped
  refine ⟨hnil, h.agrees.rooms_nil hnil, fun conn room buffer => ?_⟩
  rw [join_eq, place_eq]
  obtain hrunning | hother := Decidable.em (l.manager = .running)
  · have hopened : (l.openMailbox buffer).2.manager = .running := hrunning
    have hshutting : (l.openMailbox buffer).2.shuttingDown = true := by
      obtain hshut | hgone := hstopped
      · exact hshut
      · cases hrunning.symm.trans hgone
    rw [if_neg (not_not_intro hopened), if_pos hshutting, if_pos hrunning]
    rfl
  · have hopened : (l.openMailbox buffer).2.manager ≠ .running := hother
    rw [if_pos hopened, if_neg hother]
    rfl

theorem Sound.run_deserted (h : Sound limits l) (hstopped : l.Stopped) (g : Game σ)
    (ops : List Operation) : Deserted g (l.run g ops) := by
  induction ops generalizing l with
  | nil => exact h.deserted hstopped g
  | cons op ops ih =>
    obtain ⟨hsound, hstops⟩ := h.perform_stopped hstopped g op
    exact ih hsound hstops

theorem Bounded.run_shutdown_deserted (h : Bounded limits l) (g : Game σ) {reason : String}
    (hok : (l.shutdown g reason).1 = .ok ()) (ops : List Operation) :
    Deserted g (l.run g (.shutdown reason :: ops)) := by
  obtain ⟨hshut, hrunning⟩ := shutdown_ok g reason hok
  have hrest : l.run g (.shutdown reason :: ops) = (l.perform g (.shutdown reason)).run g ops := rfl
  have hsound := (h.perform g (.shutdown reason)).sound fun hcrashed =>
    Manager.noConfusion (hrunning.symm.trans hcrashed)
  rw [hrest]
  exact hsound.run_deserted (.inl hshut) g ops

/-! ## Runs -/

/-- In every lobby that can come about with its manager at work, a live room can be closed, which
costs that room alone, and closing a room that is gone already does nothing; a shutdown closes all
rooms, and after it there are none. Whatever happens, the reader of a queue gets one notice at most,
and just the members of rooms that are closed, or whose rules fail, get one. These are those who hold
admissions then. -/
theorem run_notices (h : start limits = .ok l) (g : Game σ) (ops : List Operation) :
    ((l.run g ops).manager = .running → ∀ reason,
      (∀ id e, (l.run g ops).registry.rooms.lookup id = some e →
        ∃ r, (l.run g ops).rooms.lookup id = some r ∧ r.connections = e.members ∧
          ((l.run g ops).shutdownRoom g id reason).1 = .ok () ∧
          Closes id r reason (l.run g ops) ((l.run g ops).shutdownRoom g id reason).2) ∧
      (∀ id ∈ l.made g ops, (l.run g ops).registry.rooms.lookup id = none →
        (l.run g ops).shutdownRoom g id reason = (.ok (), l.run g ops)) ∧
      ((l.run g ops).shutdown g reason).1 = .ok () ∧
      ShutsDown reason (l.run g ops) ((l.run g ops).shutdown g reason).2) ∧
    (∀ before reason after, ops = before ++ .shutdown reason :: after →
      ((l.run g before).shutdown g reason).1 = .ok () → Deserted g (l.run g ops)) ∧
    (∀ t, Informed g l ops t) ∧
    (Reachable g limits (l.run g ops) → ∀ id r, (l.run g ops).rooms.lookup id = some r →
      ∀ m, m ∈ r.members ↔ ⟨m.2, id, m.1⟩ ∈ (l.run g ops).held) := by
  have hstart : Bounded limits l := .inl (sound_start h)
  have hb := hstart.run g ops
  have hw := run_wired h g ops
  refine ⟨fun hrunning reason => ?_, ?_, run_informed h g ops, ?_⟩
  · have hsound := hb.sound (by simp [hrunning])
    refine ⟨fun id e he => hsound.shutdownRoom_closes hw g hrunning he reason,
      fun id hid hgone => ?_, hsound.shutdown_shutsDown hw g hrunning reason⟩
    obtain ⟨hle, hlt⟩ := hstart.made_lt hid
    obtain ⟨hl, -⟩ := start_eq h
    have hfirst : l.registry.nextId = 1 := by rw [hl, ofLimits]
    refine shutdownRoom_of_gone g reason hrunning hgone ?_
    rw [Registry.everExisted, Bool.and_eq_true, decide_eq_true_eq, decide_eq_true_eq]
    exact ⟨hfirst ▸ hle, hlt⟩
  · rintro before reason after rfl hok
    rw [run_append]
    exact (hstart.run g before).run_shutdown_deserted g hok after
  · exact fun hreachable id r hr m => hreachable.mem_members_iff hr m

/-! A room for two. A frame waits for the second member when the room is closed. -/

def chatGame : Game Unit := ⟨chatProtocol, Logic.relay⟩

def chatRun : List Operation :=
  [.join 7 none 4, .join 8 none 4, .send ⟨0, 1, 7⟩ 7 [1, 5]]

theorem run_notices_chatRun :
    start chatLimits = .ok (ofLimits (σ := Unit) chatLimits) ∧
      (∃ r, r.connections = [7, 8] ∧ Closes 1 r "over" ((ofLimits chatLimits).run chatGame chatRun)
        (((ofLimits chatLimits).run chatGame chatRun).shutdownRoom chatGame 1 "over").2) ∧
      (ofLimits chatLimits).readings chatGame 1
        (chatRun ++ [.shutdownRoom 1 "over", .receive 1, .receive 1]) =
          [.closed "over", .frame [1, 5]] ∧
      Informed chatGame (ofLimits chatLimits) (chatRun ++ [.shutdownRoom 1 "over"]) 1 := by
  have hstart : start chatLimits = .ok (ofLimits (σ := Unit) chatLimits) := rfl
  have hrunning : ((ofLimits chatLimits).run chatGame chatRun).manager = .running := by
    decide +kernel
  have hlive : ((ofLimits chatLimits).run chatGame chatRun).registry.rooms.lookup 1 =
      some ⟨.full, [7, 8], 0⟩ := by decide +kernel
  obtain ⟨r, -, hmembers, -, hcloses⟩ :=
    ((run_notices hstart chatGame chatRun).1 hrunning "over").1 1 _ hlive
  refine ⟨hstart, ⟨r, hmembers, hcloses⟩, by decide +kernel, ?_⟩
  exact (run_notices hstart chatGame _).2.2.1 1

end Lobby

end Gamewire
