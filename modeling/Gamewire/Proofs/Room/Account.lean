import Gamewire.Proofs.Room.Step
import Mathlib.Data.List.Nodup

/-! The admissions that are held account for the members: as long as nobody asks for a place under a
number that holds one, the members of a room are those who hold an admission to it. -/
namespace Gamewire
set_option autoImplicit false

namespace Lobby

variable {σ : Type} {g : Game σ} {limits : Limits} {l l' : Lobby σ} {id : RoomId}

/-- Whether a connection holds an admission to a room. -/
def Holds (held : List Admission) (id : RoomId) (conn : ConnId) : Prop :=
  ∃ a ∈ held, a.room = id ∧ a.conn = conn

structure Counted (l : Lobby σ) : Prop where
  mem_iff : ∀ id e, l.registry.rooms.lookup id = some e →
    ∀ c, c ∈ e.members ↔ Holds l.held id c
  conns : (l.held.map (·.conn)).Nodup
  tickets : (l.held.map (·.ticket)).Nodup
  ticket_lt : ∀ a ∈ l.held, a.ticket < l.nextTicket
  room_lt : ∀ a ∈ l.held, a.room.toNat < l.registry.nextId

theorem counted_start (h : start limits = .ok l) : Counted l := by
  obtain ⟨rfl, -⟩ := start_eq h
  refine ⟨?_, List.nodup_nil, List.nodup_nil, ?_, ?_⟩
  · intro id e he
    cases he
  · intro a ha
    exact absurd ha List.not_mem_nil
  · intro a ha
    exact absurd ha List.not_mem_nil

/-- Rooms that end take their members along, not the admissions. -/
theorem Counted.wane (h : Counted l) (hordered : l.registry.Ordered) (hw : Wanes l l') :
    Counted l' where
  mem_iff := by
    intro id e he c
    rw [hw.held]
    exact h.mem_iff id e (hw.registry.lookup hordered he) c
  conns := by
    rw [hw.held]
    exact h.conns
  tickets := by
    rw [hw.held]
    exact h.tickets
  ticket_lt := by
    rw [hw.held, hw.nextTicket]
    exact h.ticket_lt
  room_lt := by
    rw [hw.held, hw.registry.nextId]
    exact h.room_lt

/-! ## Admissions -/

theorem Counted.openMailbox (h : Counted l) (buffer : Nat) : Counted (l.openMailbox buffer).2 :=
  ⟨h.mem_iff, h.conns, h.tickets, fun a ha => Nat.lt_succ_of_lt (h.ticket_lt a ha), h.room_lt⟩

/-- A new room has a number that no admission was given for. -/
theorem Counted.createRoom (h : Counted l) (hcreate : l.createRoom g = some (id, l')) :
    Counted l' := by
  obtain ⟨registry, state, hreg, -, rfl⟩ := createRoom_eq_some hcreate
  obtain ⟨hid, rfl⟩ := Registry.create_eq_some hreg
  refine ⟨?_, h.conns, h.tickets, h.ticket_lt, fun a ha => Nat.lt_succ_of_lt (h.room_lt a ha)⟩
  intro id' e he c
  rw [List.lookup_append] at he
  cases hold : l.registry.rooms.lookup id' with
  | some e' =>
    rw [hold] at he
    cases he
    exact h.mem_iff id' e hold c
  | none =>
    rw [hold, Option.none_or] at he
    by_cases hnew : id' = id
    · rw [hnew, List.lookup_cons_self] at he
      cases he
      refine ⟨fun hc => absurd hc List.not_mem_nil, ?_⟩
      rintro ⟨a, ha, hroom, -⟩
      have hlt := h.room_lt a ha
      rw [hroom, hnew, hid] at hlt
      exact absurd hlt (Nat.lt_irrefl _)
    · rw [lookup_cons_ne hnew] at he
      cases he

theorem holds_cons {a : Admission} {held : List Admission} {conn : ConnId} :
    Holds (a :: held) id conn ↔ (a.room = id ∧ a.conn = conn) ∨ Holds held id conn := by
  constructor
  · rintro ⟨b, hb, hroom, hconn⟩
    obtain rfl | hb := List.mem_cons.mp hb
    · exact .inl ⟨hroom, hconn⟩
    · exact .inr ⟨b, hb, hroom, hconn⟩
  · rintro (⟨hroom, hconn⟩ | ⟨b, hb, hroom, hconn⟩)
    · exact ⟨a, List.mem_cons_self, hroom, hconn⟩
    · exact ⟨b, List.mem_cons_of_mem a hb, hroom, hconn⟩

theorem Ready.enter_counted (hready : Ready limits id l) (h : Counted l) (g : Game σ)
    {conn : ConnId} (hconn : ∀ a ∈ l.held, a.conn ≠ conn) {ticket : Ticket}
    (hfresh : ∀ a ∈ l.held, a.ticket ≠ ticket) (hticket : ticket < l.nextTicket) :
    Counted (l.enter g id conn ticket) := by
  obtain ⟨e, he, hsorted, hspace⟩ := hready.space
  have hsound := Registry.sound_addMember hready.ordered hready.others he hsorted hspace conn
  refine Counted.wane ?_ hsound.toOrdered (command_wanes g id (.join conn ticket) _)
  obtain ⟨generation, hadd⟩ := Registry.addMember_of_lookup he conn
  refine ⟨?_, ?_, ?_, ?_, ?_⟩
  · intro id' e' he' c
    rw [hadd, Registry.lookup_setEntry] at he'
    rw [holds_cons]
    by_cases hid : id' = id
    · rw [if_pos hid, he] at he'
      cases he'
      rw [mem_insertConn, hid, h.mem_iff id e he c]
      simp only [true_and, eq_comm]
    · rw [if_neg hid] at he'
      rw [h.mem_iff id' e' he' c]
      simp [Ne.symm hid]
  · refine List.nodup_cons.mpr ⟨?_, h.conns⟩
    rintro hmem
    obtain ⟨a, ha, hac⟩ := List.mem_map.mp hmem
    exact hconn a ha hac
  · refine List.nodup_cons.mpr ⟨?_, h.tickets⟩
    rintro hmem
    obtain ⟨a, ha, hat⟩ := List.mem_map.mp hmem
    exact hfresh a ha hat
  · intro a ha
    obtain rfl | ha := List.mem_cons.mp ha
    · exact hticket
    · exact h.ticket_lt a ha
  · intro a ha
    rw [Registry.addMember_nextId]
    obtain rfl | ha := List.mem_cons.mp ha
    · exact hready.ordered.lt_of_lookup he
    · exact h.room_lt a ha

/-! ## Releases -/

section

variable {a : Admission}

theorem admission?_of_nodup (h : (l.held.map (·.ticket)).Nodup) (ha : a ∈ l.held) :
    l.admission? a.ticket = some a := by
  cases hfind : l.admission? a.ticket with
  | none =>
    have hnone := List.find?_eq_none.mp hfind a ha
    simp at hnone
  | some b =>
    obtain ⟨hb, hticket⟩ := admission?_some hfind
    rw [List.inj_on_of_nodup_map h hb ha hticket]

theorem Counted.admission? (h : Counted l) (ha : a ∈ l.held) : l.admission? a.ticket = some a :=
  admission?_of_nodup h.tickets ha

theorem Counted.mem_free (h : Counted l) (ha : a ∈ l.held) (b : Admission) :
    b ∈ (l.free a.ticket).held ↔ b ∈ l.held ∧ b ≠ a := by
  rw [free, List.mem_filter]
  refine and_congr_right fun hb => ?_
  rw [bne_iff_ne]
  refine not_congr ⟨List.inj_on_of_nodup_map h.tickets hb ha, ?_⟩
  rintro rfl
  rfl

theorem Counted.holds_free (h : Counted l) (ha : a ∈ l.held) (id : RoomId) (conn : ConnId) :
    Holds (l.free a.ticket).held id conn ↔
      Holds l.held id conn ∧ ¬(a.room = id ∧ a.conn = conn) := by
  constructor
  · rintro ⟨b, hb, hroom, hconn⟩
    obtain ⟨hheld, hne⟩ := (h.mem_free ha b).mp hb
    refine ⟨⟨b, hheld, hroom, hconn⟩, ?_⟩
    rintro ⟨-, hsame⟩
    exact hne (List.inj_on_of_nodup_map h.conns hheld ha (hconn.trans hsame.symm))
  · rintro ⟨⟨b, hb, hroom, hconn⟩, hne⟩
    refine ⟨b, (h.mem_free ha b).mpr ⟨hb, ?_⟩, hroom, hconn⟩
    rintro rfl
    exact hne ⟨hroom, hconn⟩

/-- An admission is given back, and the register is brought up to date. -/
theorem Counted.giveBack (h : Counted l) {registry : Registry} (ticket : Ticket)
    (hnext : registry.nextId = l.registry.nextId)
    (hmem : ∀ id e, registry.rooms.lookup id = some e →
      ∀ c, c ∈ e.members ↔ Holds (l.free ticket).held id c) :
    Counted { l.free ticket with registry := registry } where
  mem_iff := hmem
  conns := h.conns.sublist (List.filter_sublist.map _)
  tickets := h.tickets.sublist (List.filter_sublist.map _)
  ticket_lt := fun b hb => h.ticket_lt b (List.filter_sublist.subset hb)
  room_lt := by
    intro b hb
    rw [hnext]
    exact h.room_lt b (List.filter_sublist.subset hb)

theorem Counted.free (h : Counted l) (ha : a ∈ l.held)
    (hgone : l.registry.rooms.lookup a.room = none) : Counted (l.free a.ticket) := by
  refine h.giveBack a.ticket rfl ?_
  intro id e he c
  rw [h.holds_free ha, ← h.mem_iff id e he c]
  refine (and_iff_left ?_).symm
  rintro ⟨rfl, -⟩
  rw [hgone] at he
  cases he

theorem Counted.removeMember_eq_none (h : Counted l) (ha : a ∈ l.held)
    (hremove : l.registry.removeMember a.room a.conn = none) :
    l.registry.rooms.lookup a.room = none := by
  cases he : l.registry.rooms.lookup a.room with
  | none => rfl
  | some e =>
    have hmember := (h.mem_iff a.room e he a.conn).mpr ⟨a, ha, rfl, rfl⟩
    exact absurd hmember (Registry.removeMember_eq_none.mp hremove e he)

theorem Counted.takeOut (h : Counted l) (hsound : l.registry.Sound) (ha : a ∈ l.held) (g : Game σ) :
    Counted ((l.free a.ticket).takeOut g a) := by
  cases hremove : (l.free a.ticket).registry.removeMember a.room a.conn with
  | none =>
    rw [takeOut_eq_self g hremove]
    exact h.free ha (h.removeMember_eq_none ha hremove)
  | some p =>
    obtain ⟨e', registry⟩ := p
    have hordered := (Registry.sound_removeMember hsound hremove).toOrdered
    refine Counted.wane ?_ hordered (takeOut_wanes g hremove)
    obtain ⟨e, he, -, rfl, hrest, -⟩ := Registry.removeMember_eq_some hremove
    have he : l.registry.rooms.lookup a.room = some e := he
    have hcounted : Counted { l.free a.ticket with
        registry := l.registry.setEntry a.room e' } := by
      refine h.giveBack a.ticket rfl ?_
      intro id e'' he'' c
      rw [Registry.lookup_setEntry] at he''
      rw [h.holds_free ha]
      by_cases hid : id = a.room
      · rw [if_pos hid, he] at he''
        cases he''
        rw [hrest, hid, List.mem_filter, bne_iff_ne, h.mem_iff a.room e he c]
        simp [eq_comm]
      · rw [if_neg hid] at he''
        rw [h.mem_iff id e'' he'' c]
        simp [Ne.symm hid]
    exact ⟨hcounted.mem_iff, hcounted.conns, hcounted.tickets, hcounted.ticket_lt, hcounted.room_lt⟩

end

/-! ## Timers -/

/-- No timer is left that should have gone off. -/
def Waits (l : Lobby σ) : Prop := ∀ t ∈ l.timers, l.now < t.due

theorem waits_start (h : start limits = .ok l) : Waits l := by
  obtain ⟨rfl, -⟩ := start_eq h
  intro t ht
  exact absurd ht List.not_mem_nil

theorem Waits.wane (h : Waits l) (hw : Wanes l l') : Waits l' := by
  intro t ht
  rw [hw.now]
  exact h t (hw.timers.subset ht)

theorem Waits.takeOut (h : Waits l) (g : Game σ) (a : Admission) : Waits (l.takeOut g a) := by
  cases hremove : l.registry.removeMember a.room a.conn with
  | none =>
    rw [takeOut_eq_self g hremove]
    exact h
  | some p =>
    obtain ⟨-, ht⟩ | ⟨left, -, -, ht⟩ := takeOut_cases g hremove
    · rw [ht]
      refine Waits.wane ?_ (command_wanes g a.room (.leave a.conn) _)
      exact h
    · rw [ht]
      exact expireDue_timers g _

/-! ## All operations -/

/-- A lobby between two operations, when no number was let in twice. -/
structure Accounted (limits : Limits) (l : Lobby σ) : Prop extends Sound limits l where
  counted : Counted l
  waits : Waits l

theorem Accounted.wane (h : Accounted limits l) (hw : Wanes l l') (hs : Sound limits l') :
    Accounted limits l' :=
  ⟨hs, h.counted.wane h.registry.toOrdered hw, h.waits.wane hw⟩

/-- A lobby into which a connection may be let has lost and gained nothing but an empty room. -/
theorem Accounted.place (h : Accounted limits l) (buffer : Nat)
    (hl' : l' = (l.openMailbox buffer).2 ∨ (l.openMailbox buffer).2.createRoom g = some (id, l')) :
    Counted l' ∧ Waits l' ∧ l'.held = l.held ∧ l'.nextTicket = l.nextTicket + 1 := by
  have hopened := h.counted.openMailbox buffer
  obtain rfl | hcreate := hl'
  · exact ⟨hopened, h.waits, rfl, rfl⟩
  · have hcreated := hopened.createRoom hcreate
    obtain ⟨registry, state, -, -, rfl⟩ := createRoom_eq_some hcreate
    exact ⟨hcreated, h.waits, rfl, rfl⟩

theorem Accounted.join (h : Accounted limits l) (g : Game σ) {conn : ConnId}
    (hfresh : ∀ a ∈ l.held, a.conn ≠ conn) (requested : Option RoomId) (buffer : Nat)
    (hdone : (l.join g conn requested buffer).2.2.manager ≠ .crashed) :
    Accounted limits (l.join g conn requested buffer).2.2 := by
  have hbounded := Bounded.join (.inl h.toSound) g conn requested buffer
  rw [join_eq] at hdone hbounded ⊢
  obtain hsound | hcrashed := hbounded
  · obtain ⟨e, hp⟩ | ⟨id, l', hready, hl', hp⟩ | ⟨-, -, -, hp⟩ :=
      place_cases (h.toSound.alike (openMailbox_alike buffer l)) g conn requested l.nextTicket
    · rw [hp] at hsound ⊢
      have hopened := h.counted.openMailbox buffer
      exact ⟨hsound, hopened.wane h.registry.toOrdered (refuse_wanes _ _ _), h.waits⟩
    · rw [hp] at hsound ⊢
      obtain ⟨hcounted, hwaits, hheld, hnext⟩ := h.place buffer hl'
      refine ⟨hsound, hready.enter_counted hcounted g ?_ ?_ ?_, ?_⟩
      · rw [hheld]
        exact hfresh
      · rw [hheld]
        exact fun a ha => Nat.ne_of_lt (h.counted.ticket_lt a ha)
      · rw [hnext]
        exact Nat.lt_succ_self _
      · refine Waits.wane ?_ (command_wanes g id (.join conn l.nextTicket) _)
        exact hwaits
    · rw [hp] at hdone
      exact absurd (crash_wanes _).manager hdone
  · exact absurd hcrashed.manager hdone

theorem Accounted.release (h : Accounted limits l) (g : Game σ) (ticket : Ticket) :
    Accounted limits (l.release g ticket) := by
  cases ha : l.admission? ticket with
  | none =>
    unfold Lobby.release
    rw [ha]
    exact h
  | some a =>
    obtain ⟨hheld, rfl⟩ := admission?_some ha
    have hfree : Waits (l.free a.ticket) := h.waits
    have hsound := h.toSound.release g a.ticket
    rw [h.release_eq g ha] at hsound ⊢
    exact ⟨hsound, h.counted.takeOut h.registry hheld g, hfree.takeOut g a⟩

theorem Accounted.advance (h : Accounted limits l) (g : Game σ) (ms : Nat) :
    Accounted limits (l.advance g ms) := by
  have hlater : Sound limits { l with now := l.now + ms } := h.toSound.alike ⟨rfl, rfl, rfl, rfl, rfl⟩
  refine ⟨hlater.expireDue g, ?_, expireDue_timers g _⟩
  refine Counted.wane (l := { l with now := l.now + ms }) ?_ h.registry.toOrdered
    (expireDue_wanes g _)
  exact ⟨h.counted.mem_iff, h.counted.conns, h.counted.tickets, h.counted.ticket_lt,
    h.counted.room_lt⟩

theorem Accounted.closeAll (h : Accounted limits l) (g : Game σ) (reason : String)
    (shuttingDown : Bool) :
    Accounted limits (closeAll g reason { l with shuttingDown := shuttingDown }) := by
  have hw := closeAll_wanes g reason { l with shuttingDown := shuttingDown }
  have hempty : Counted { l with
      shuttingDown := shuttingDown
      registry := { l.registry with rooms := [] } } := by
    refine ⟨?_, h.counted.conns, h.counted.tickets, h.counted.ticket_lt, h.counted.room_lt⟩
    intro id e he
    cases he
  have hordered := (h.registry.shrink (Registry.shrinks_clear l.registry)).toOrdered
  refine ⟨h.toSound.closeAll g reason shuttingDown, hempty.wane hordered hw, Waits.wane ?_ hw⟩
  exact h.waits

theorem Accounted.dismiss (h : Accounted limits l) (g : Game σ) :
    Accounted limits (l.dismiss g) := by
  have hsound := h.toSound.dismiss g
  unfold Lobby.dismiss at hsound ⊢
  split
  · rename_i hrunning
    rw [if_pos hrunning] at hsound
    have hclosed := h.closeAll g "server stopped" l.shuttingDown
    exact ⟨hsound, ⟨hclosed.counted.mem_iff, hclosed.counted.conns, hclosed.counted.tickets,
      hclosed.counted.ticket_lt, hclosed.counted.room_lt⟩, hclosed.waits⟩
  · exact h

/-- What an operation that the manager survives leaves behind is accounted for again. -/
theorem Accounted.perform (h : Accounted limits l) (g : Game σ) (op : Operation)
    (hfresh : op.Fresh l.held) (hdone : (l.perform g op).manager ≠ .crashed) :
    Accounted limits (l.perform g op) := by
  cases op with
  | join conn room buffer => exact h.join g hfresh room buffer hdone
  | joinInVain conn room buffer =>
    have hjoined : (l.join g conn room buffer).2.2.manager ≠ .crashed := by
      intro hcrashed
      obtain hsame | ⟨hcrash, -⟩ := (release_fares g (l.join g conn room buffer).1
        (l.join g conn room buffer).2.2).manager
      · exact hdone (hsame.trans hcrashed)
      · exact hdone hcrash
    exact (h.join g hfresh room buffer hjoined).release g _
  | release ticket => exact h.release g ticket
  | send a sender bytes =>
    simp only [Lobby.perform, send]
    split
    · exact h.wane (command_wanes g a.room (.frame sender bytes) l)
        (h.toSound.frame g a.room sender bytes)
    · exact h
  | receive ticket =>
    exact h.wane (receive_wanes ticket l) (h.toSound.alike (receive_alike ticket l))
  | dropMailbox ticket =>
    exact h.wane (dropMailbox_wanes ticket l) (h.toSound.alike (dropMailbox_alike ticket l))
  | shutdownRoom room reason =>
    simp only [Lobby.perform, shutdownRoom]
    split
    · exact h
    · split
      · exact h.wane (closeRoom_wanes g room reason l) (h.toSound.closeRoom g room reason)
      · exact h
  | shutdown reason =>
    simp only [Lobby.perform, shutdown]
    split
    · exact h
    · exact h.closeAll g reason true
  | advance ms => exact h.advance g ms
  | dismiss => exact h.dismiss g

end Lobby

end Gamewire
