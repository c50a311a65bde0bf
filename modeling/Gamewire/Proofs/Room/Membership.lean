import Gamewire.Proofs.Room.Account
import Mathlib

/-! Three parties know who is in a room: the register, the room and those who hold admissions. They
agree in every lobby that can come about, so an admission that is given back costs exactly its own
membership, and a request whose connection is gone leaves none behind. -/
namespace Gamewire
set_option autoImplicit false

namespace Lobby

variable {σ : Type} {g : Game σ} {limits : Limits} {l l' : Lobby σ} {id : RoomId}

/-! ## Changes in one room -/

/-- Every other room is as it was, for the register and in itself. -/
structure Elsewhere (id : RoomId) (l l' : Lobby σ) : Prop where
  registry : ∀ id', id' ≠ id → l'.registry.rooms.lookup id' = l.registry.rooms.lookup id'
  rooms : ∀ id', id' ≠ id → l'.rooms.lookup id' = l.rooms.lookup id'

theorem Elsewhere.refl (id : RoomId) (l : Lobby σ) : Elsewhere id l l :=
  ⟨fun _ _ => rfl, fun _ _ => rfl⟩

theorem Elsewhere.trans {l'' : Lobby σ} (h : Elsewhere id l l') (h' : Elsewhere id l' l'') :
    Elsewhere id l l'' :=
  ⟨fun id' hne => (h'.registry id' hne).trans (h.registry id' hne),
    fun id' hne => (h'.rooms id' hne).trans (h.rooms id' hne)⟩

theorem elsewhere_remove (id : RoomId) (l : Lobby σ) :
    Elsewhere id l { l with registry := l.registry.remove id } := by
  refine ⟨fun id' hne => ?_, fun _ _ => rfl⟩
  rw [Registry.remove, lookup_drop, if_neg hne]

theorem elsewhere_setEntry (id : RoomId) (e : Entry) (l : Lobby σ) :
    Elsewhere id l { l with registry := l.registry.setEntry id e } := by
  refine ⟨fun id' hne => ?_, fun _ _ => rfl⟩
  rw [Registry.lookup_setEntry, if_neg hne]

theorem command_elsewhere (g : Game σ) (id : RoomId) (c : Command) (l : Lobby σ) :
    Elsewhere id l (command g id c l) := by
  obtain ⟨-, hc⟩ | ⟨r, r', ms, -, -, hc⟩ | ⟨r, ms, -, -, hc⟩ := command_cases g id c l
  · rw [hc]
    exact .refl id l
  · rw [hc]
    refine ⟨fun _ _ => rfl, fun id' hne => ?_⟩
    rw [lookup_set, if_neg hne]
  · rw [hc]
    refine ⟨(elsewhere_remove id l).registry, fun id' hne => ?_⟩
    rw [lookup_drop, if_neg hne]

theorem expire_elsewhere (g : Game σ) (l : Lobby σ) (t : Timer) :
    Elsewhere t.room l (expire g l t) := by
  unfold expire
  split
  · exact (elsewhere_remove t.room l).trans (command_elsewhere g t.room (.close "room closed") _)
  · exact .refl t.room l

theorem foldl_expire_elsewhere {ts : List Timer} (hts : ∀ t ∈ ts, t.room = id) (g : Game σ)
    (l : Lobby σ) : Elsewhere id l (ts.foldl (expire g) l) := by
  induction ts generalizing l with
  | nil => exact .refl id l
  | cons t ts ih =>
    have hfirst := expire_elsewhere g l t
    rw [hts t List.mem_cons_self] at hfirst
    exact hfirst.trans (ih (fun t ht => hts t (List.mem_cons_of_mem _ ht)) (expire g l t))

/-- Of the timers only one that was just set can be due. -/
theorem Waits.due_eq (h : Waits l) (t : Timer) :
    (l.timers ++ [t]).filter (·.due ≤ l.now) = if t.due ≤ l.now then [t] else [] := by
  have hold : l.timers.filter (·.due ≤ l.now) = [] := by
    apply List.filter_eq_nil_iff.mpr
    intro s hs
    simpa using h s hs
  rw [List.filter_append, hold, List.nil_append]
  by_cases hdue : t.due ≤ l.now
  · rw [if_pos hdue, List.filter_cons_of_pos (by simpa using hdue), List.filter_nil]
  · rw [if_neg hdue, List.filter_cons_of_neg (by simpa using hdue), List.filter_nil]

theorem Waits.expireDue_elsewhere (h : Waits l) (g : Game σ) (t : Timer) :
    Elsewhere t.room l (expireDue g { l with timers := l.timers ++ [t] }) := by
  unfold expireDue
  simp only
  rw [h.due_eq]
  refine .trans ?_ (foldl_expire_elsewhere ?_ g _)
  · exact ⟨fun _ _ => rfl, fun _ _ => rfl⟩
  · intro s hs
    split at hs
    · rw [List.mem_singleton.mp hs]
    · cases hs

theorem Waits.takeOut_elsewhere (h : Waits l) (g : Game σ) (a : Admission) :
    Elsewhere a.room l (l.takeOut g a) := by
  cases hremove : l.registry.removeMember a.room a.conn with
  | none =>
    rw [takeOut_eq_self g hremove]
    exact .refl a.room l
  | some p =>
    obtain ⟨e, registry⟩ := p
    obtain ⟨-, -, -, rfl, -, -⟩ := Registry.removeMember_eq_some hremove
    have hleft := (elsewhere_setEntry a.room e l).trans
      (command_elsewhere g a.room (.leave a.conn) _)
    obtain ⟨-, ht⟩ | ⟨left, rfl, -, ht⟩ := takeOut_cases g hremove
    · rw [ht]
      exact hleft
    · have hwaits := Waits.wane (l := { l with registry := l.registry.setEntry a.room e }) h
        (command_wanes g a.room (.leave a.conn) _)
      rw [ht]
      exact hleft.trans (hwaits.expireDue_elsewhere g ⟨_, a.room, _⟩)

/-! ## What a release does -/

/-- The room of a member that leaves goes on if its rules do not fail over it, and if somebody else
is in it or it is given time. -/
theorem Waits.takeOut_lives (h : Waits l) (g : Game σ) {a : Admission} {e : Entry} {r : Room σ}
    (he : l.registry.rooms.lookup a.room = some e) (hmember : a.conn ∈ e.members)
    (hr : l.rooms.lookup a.room = some r) (hstep : (r.step g (.leave a.conn)).1.isSome)
    (hkeep : (∃ c ∈ e.members, c ≠ a.conn) ∨ 0 < l.limits.grace) :
    ((l.takeOut g a).registry.rooms.lookup a.room).isSome := by
  cases hremove : l.registry.removeMember a.room a.conn with
  | none => exact absurd hmember (Registry.removeMember_eq_none.mp hremove e he)
  | some p =>
    obtain ⟨e', registry⟩ := p
    have hlook : (registry.rooms.lookup a.room).isSome :=
      Option.isSome_of_mem (Registry.lookup_removeMember hremove)
    obtain ⟨e₀, he₀, -, rfl, hrest, hstate⟩ := Registry.removeMember_eq_some hremove
    rw [he] at he₀
    cases he₀
    -- the room survives the command, so the register is as the removal left it
    have hleft : (command g a.room (.leave a.conn)
        { l with registry := l.registry.setEntry a.room e' }).registry =
          l.registry.setEntry a.room e' := by
      obtain ⟨-, hc⟩ | ⟨r', r'', ms, -, -, hc⟩ | ⟨r', ms, hr', hover, -⟩ :=
        command_cases g a.room (.leave a.conn) { l with registry := l.registry.setEntry a.room e' }
      · rw [hc]
      · rw [hc]
      · rw [hr] at hr'
        cases hr'
        rw [hover] at hstep
        cases hstep
    obtain ⟨-, ht⟩ | ⟨left, rfl, hclosing, ht⟩ := takeOut_cases g hremove
    · rw [ht, hleft]
      exact hlook
    · have hgrace : 0 < l.limits.grace := by
        obtain ⟨c, hc, hne⟩ | hgrace := hkeep
        · rw [hstate, RoomState.ofCount_eq_closing_iff, List.length_eq_zero_iff] at hclosing
          have hstays : c ∈ e'.members := by
            rw [hrest]
            exact List.mem_filter.mpr ⟨hc, bne_iff_ne.mpr hne⟩
          rw [hclosing] at hstays
          cases hstays
        · exact hgrace
      have hw := command_wanes g a.room (.leave a.conn)
        { l with registry := l.registry.setEntry a.room e' }
      have hwaits := Waits.wane (l := { l with registry := l.registry.setEntry a.room e' }) h hw
      have hnow := hw.now
      rw [ht]
      unfold expireDue
      simp only
      rw [hwaits.due_eq, if_neg (by simp only at hnow ⊢; omega), List.foldl_nil, hleft]
      exact hlook

/-- A membership ends, and nothing else does but for the rules and the grace period. -/
structure Leaves (g : Game σ) (a : Admission) (l l' : Lobby σ) : Prop where
  held : ∀ b, b ∈ l'.held ↔ b ∈ l.held ∧ b ≠ a
  /-- If the room is gone already, nothing changes. -/
  gone : l.registry.rooms.lookup a.room = none → l' = l.free a.ticket
  elsewhere : Elsewhere a.room l l'
  agrees : l'.Agrees
  members : ∀ e e', l.registry.rooms.lookup a.room = some e →
    l'.registry.rooms.lookup a.room = some e' → e'.members = e.members.filter (· != a.conn)
  /-- The room goes on if its rules do not fail, and if it is not empty or is given time. -/
  lives : ∀ e r, l.registry.rooms.lookup a.room = some e → l.rooms.lookup a.room = some r →
    (r.step g (.leave a.conn)).1.isSome → (∃ c ∈ e.members, c ≠ a.conn) ∨ 0 < l.limits.grace →
    (l'.registry.rooms.lookup a.room).isSome

theorem takeOut_held (g : Game σ) (a : Admission) (l : Lobby σ) :
    (l.takeOut g a).held = l.held := by
  cases hremove : l.registry.removeMember a.room a.conn with
  | none => rw [takeOut_eq_self g hremove]
  | some p => exact (takeOut_wanes g hremove).held

/-- Who is in the room afterwards was written down before the rules were asked. -/
theorem takeOut_members (hsound : l.registry.Sound) (g : Game σ) {a : Admission} {e e' : Entry}
    (he : l.registry.rooms.lookup a.room = some e) (hmember : a.conn ∈ e.members)
    (he' : (l.takeOut g a).registry.rooms.lookup a.room = some e') :
    e'.members = e.members.filter (· != a.conn) := by
  cases hremove : l.registry.removeMember a.room a.conn with
  | none => exact absurd hmember (Registry.removeMember_eq_none.mp hremove e he)
  | some p =>
    obtain ⟨e₁, registry⟩ := p
    have hordered := (Registry.sound_removeMember hsound hremove).toOrdered
    have hbefore := (takeOut_wanes g hremove).registry.lookup hordered he'
    rw [Registry.lookup_removeMember hremove] at hbefore
    cases hbefore
    obtain ⟨e₀, he₀, -, -, hrest, -⟩ := Registry.removeMember_eq_some hremove
    rw [he] at he₀
    cases he₀
    exact hrest

theorem Accounted.leaves (h : Accounted limits l) (g : Game σ) {a : Admission} (ha : a ∈ l.held) :
    Leaves g a l (l.release g a.ticket) := by
  have hagrees := (h.release g a.ticket).agrees
  rw [h.release_eq g (h.counted.admission? ha)] at hagrees ⊢
  have hfree : Elsewhere a.room l (l.free a.ticket) := ⟨fun _ _ => rfl, fun _ _ => rfl⟩
  have hwaits : Waits (l.free a.ticket) := h.waits
  have hmember : ∀ e, l.registry.rooms.lookup a.room = some e → a.conn ∈ e.members :=
    fun e he => (h.counted.mem_iff a.room e he a.conn).mpr ⟨a, ha, rfl, rfl⟩
  refine ⟨?_, ?_, hfree.trans (hwaits.takeOut_elsewhere g a), hagrees, ?_, ?_⟩
  · intro b
    rw [takeOut_held]
    exact h.counted.mem_free ha b
  · intro hgone
    have hremove : (l.free a.ticket).registry.removeMember a.room a.conn = none := by
      rw [free, Registry.removeMember, hgone]
    exact takeOut_eq_self g hremove
  · intro e e' he he'
    exact takeOut_members (l := l.free a.ticket) h.registry g he (hmember e he) he'
  · intro e r he hr hstep hkeep
    exact hwaits.takeOut_lives g he (hmember e he) hr hstep hkeep

/-! ## What a cancelled request does -/

theorem release_held (g : Game σ) (ticket : Ticket) (l : Lobby σ) :
    (l.release g ticket).held = (l.free ticket).held := by
  obtain ⟨hnone, hr⟩ | ⟨a, -, ⟨-, hr⟩ | ⟨-, hr⟩⟩ := release_cases g ticket l
  · rw [hr, free_of_admission?_none hnone]
  · rw [hr, takeOut_held]
  · rw [hr, (abandonRooms_wanes _).held]

theorem Accounted.join_held (h : Accounted limits l) (g : Game σ) (conn : ConnId)
    (requested : Option RoomId) (buffer : Nat) :
    (l.join g conn requested buffer).2.2.held = l.held ∨
      ∃ id, (l.join g conn requested buffer).2.2.held = ⟨l.nextTicket, id, conn⟩ :: l.held := by
  rw [join_eq]
  obtain ⟨e, hp⟩ | ⟨id, l', -, hl', hp⟩ | ⟨-, -, -, hp⟩ :=
    place_cases (h.toSound.alike (openMailbox_alike buffer l)) g conn requested l.nextTicket
  · rw [hp]
    exact .inl rfl
  · rw [hp]
    obtain ⟨-, -, hheld, -⟩ := h.place buffer hl'
    refine .inr ⟨id, ?_⟩
    rw [← hheld]
    exact (command_wanes g id (.join conn l.nextTicket) _).held
  · rw [hp]
    exact .inl (crash_wanes _).held

theorem Accounted.joinInVain_held (h : Accounted limits l) (g : Game σ) (conn : ConnId)
    (requested : Option RoomId) (buffer : Nat) :
    (l.joinInVain g conn requested buffer).held = l.held := by
  have hothers : l.held.filter (·.ticket != l.nextTicket) = l.held := by
    apply List.filter_eq_self.mpr
    intro a ha
    exact bne_iff_ne.mpr (Nat.ne_of_lt (h.counted.ticket_lt a ha))
  have hvain : l.joinInVain g conn requested buffer =
      (l.join g conn requested buffer).2.2.release g l.nextTicket := rfl
  rw [hvain, release_held, free]
  obtain hheld | ⟨id, hheld⟩ := h.join_held g conn requested buffer
  · rw [hheld, hothers]
  · rw [hheld, List.filter_cons_of_neg (by simp), hothers]

/-- No membership is left behind, and no room that goes on lost or gained a member. -/
structure Vanishes (conn : ConnId) (l l' : Lobby σ) : Prop where
  held : l'.held = l.held
  agrees : l'.Agrees
  absent : ∀ id e', l'.registry.rooms.lookup id = some e' → conn ∉ e'.members
  members : ∀ id e e', l.registry.rooms.lookup id = some e →
    l'.registry.rooms.lookup id = some e' → e'.members = e.members
  /-- The room may have been made for the request. -/
  new : ∀ id e', l.registry.rooms.lookup id = none →
    l'.registry.rooms.lookup id = some e' → e'.members = []

theorem Accounted.vanishes (h : Accounted limits l) (g : Game σ) {conn : ConnId}
    (hfresh : ∀ a ∈ l.held, a.conn ≠ conn) (requested : Option RoomId) (buffer : Nat)
    (hdone : (l.joinInVain g conn requested buffer).manager ≠ .crashed) :
    Vanishes conn l (l.joinInVain g conn requested buffer) := by
  have hafter : Accounted limits (l.joinInVain g conn requested buffer) :=
    h.perform g (.joinInVain conn requested buffer) hfresh hdone
  have hheld := h.joinInVain_held g conn requested buffer
  refine ⟨hheld, hafter.agrees, ?_, ?_, ?_⟩
  · intro id e' he' hc
    obtain ⟨a, ha, -, hconn⟩ := (hafter.counted.mem_iff id e' he' conn).mp hc
    rw [hheld] at ha
    exact hfresh a ha hconn
  · intro id e e' he he'
    refine ascending_ext (hafter.registry.entry he').ascending (h.registry.entry he).ascending ?_
    intro c
    rw [hafter.counted.mem_iff id e' he' c, hheld, h.counted.mem_iff id e he c]
  · intro id e' hnone he'
    have hfares : Fares g l (l.joinInVain g conn requested buffer) :=
      Bounded.fares (.inl h.toSound) g (.joinInVain conn requested buffer) Operation.noConfusion
    obtain hold | hnew := hfares.rooms id (List.mem_map_of_mem (mem_of_lookup he'))
    · obtain ⟨x, hx, rfl⟩ := List.mem_map.mp hold
      exact absurd rfl (bne_iff_ne.mp (List.lookup_eq_none_iff.mp hnone x hx))
    · apply List.eq_nil_iff_forall_not_mem.mpr
      intro c hc
      obtain ⟨a, ha, rfl, -⟩ := (hafter.counted.mem_iff id e' he' c).mp hc
      rw [hheld] at ha
      exact absurd (h.counted.room_lt a ha) (Nat.not_lt.mpr hnew)

/-! ## All lobbies that can come about -/

/-- What a lobby can become when no request is made under a number that holds an admission, and
every operation runs to its end. -/
inductive Reachable (g : Game σ) (limits : Limits) : Lobby σ → Prop where
  | start {l : Lobby σ} (h : start limits = .ok l) : Reachable g limits l
  | perform {l : Lobby σ} (h : Reachable g limits l) (op : Operation) (hfresh : op.Fresh l.held)
      (hdone : (l.perform g op).manager ≠ .crashed) : Reachable g limits (l.perform g op)

theorem Reachable.accounted (h : Reachable g limits l) : Accounted limits l := by
  induction h with
  | start h => exact ⟨sound_start h, counted_start h, waits_start h⟩
  | perform h op hfresh hdone ih => exact ih.perform g op hfresh hdone

/-- The connections of the admissions to a room. -/
def holders (l : Lobby σ) (id : RoomId) : List ConnId :=
  (l.held.filter (·.room == id)).map (·.conn)

theorem Counted.members_perm (h : Counted l) {e : Entry} (hnodup : e.members.Nodup)
    (he : l.registry.rooms.lookup id = some e) : e.members.Perm (l.holders id) := by
  have hholders : (l.holders id).Nodup := h.conns.sublist (List.filter_sublist.map _)
  apply (List.perm_ext_iff_of_nodup hnodup hholders).mpr
  intro c
  rw [h.mem_iff id e he c, holders, List.mem_map]
  constructor
  · rintro ⟨a, ha, hroom, hconn⟩
    exact ⟨a, List.mem_filter.mpr ⟨ha, beq_iff_eq.mpr hroom⟩, hconn⟩
  · rintro ⟨a, ha, hconn⟩
    obtain ⟨ha, hroom⟩ := List.mem_filter.mp ha
    exact ⟨a, ha, beq_iff_eq.mp hroom, hconn⟩

theorem send_fst (g : Game σ) (a : Admission) (conn : ConnId) (bytes : List UInt8) (l : Lobby σ) :
    (l.send g a conn bytes).1 =
      if (l.rooms.lookup a.room).isSome then .ok () else .error (.unavailable a.room) := by
  unfold send
  split
  · rename_i r hr
    rw [hr]
    rfl
  · rename_i hnone
    rw [hnone]
    rfl

/-- The register, the room and the admissions agree on the members of every live room. An admission
that is given back takes its membership along and nothing else, a cancelled request leaves no
membership, and a frame is taken as long as the room is live. -/
theorem reachable_membership (h : Reachable g limits l) :
    (∀ id, (l.registry.rooms.lookup id).isSome = (l.rooms.lookup id).isSome) ∧
      (∀ id e r, l.registry.rooms.lookup id = some e → l.rooms.lookup id = some r →
        r.connections = e.members ∧ e.members.Perm (l.holders id)) ∧
      (∀ a ∈ l.held, Leaves g a l (l.release g a.ticket)) ∧
      (∀ conn room buffer, (∀ a ∈ l.held, a.conn ≠ conn) →
        (l.joinInVain g conn room buffer).manager ≠ .crashed →
        Vanishes conn l (l.joinInVain g conn room buffer)) ∧
      ∀ a bytes, (l.send g a a.conn bytes).1 =
        if (l.registry.rooms.lookup a.room).isSome then .ok ()
        else .error (.unavailable a.room) := by
  have hacc := h.accounted
  have hsome : ∀ id, (l.registry.rooms.lookup id).isSome = (l.rooms.lookup id).isSome := by
    intro id
    have hlookup := congrArg Option.isSome (hacc.agrees.lookup id)
    rwa [Option.isSome_map, Option.isSome_map] at hlookup
  refine ⟨hsome, ?_, fun a ha => hacc.leaves g ha,
    fun conn room buffer hfresh hdone => hacc.vanishes g hfresh room buffer hdone, ?_⟩
  · intro id e r he hr
    obtain ⟨r', hr', hmembers⟩ := hacc.agrees.lookup_some he
    rw [hr] at hr'
    cases hr'
    exact ⟨hmembers, hacc.counted.members_perm (ascending_nodup (hacc.registry.entry he).ascending) he⟩
  · intro a bytes
    rw [send_fst, hsome]

/-! Two connections in one room. -/

def pairLimits : Limits := { maxRooms := 1, maxMembers := 2, grace := 0 }

def pairLobby : Lobby Unit :=
  (ofLimits pairLimits).run quietGame [.join 7 none 4, .join 8 none 4]

theorem pairLobby_held : pairLobby.held = [⟨1, 1, 8⟩, ⟨0, 1, 7⟩] := by cbv

theorem pairLobby_reachable : Reachable quietGame pairLimits pairLobby := by
  have hstart : Reachable quietGame pairLimits (ofLimits pairLimits) := .start rfl
  have hfirst := hstart.perform (.join 7 none 4)
    (fun a ha => absurd ha List.not_mem_nil) (by cbv; exact Manager.noConfusion)
  refine hfirst.perform (.join 8 none 4) ?_ (by cbv; exact Manager.noConfusion)
  have hheld : ((ofLimits pairLimits).perform quietGame (.join 7 none 4)).held = [⟨0, 1, 7⟩] := by
    cbv
  intro a ha
  rw [hheld] at ha
  rw [List.mem_singleton.mp ha]
  decide

theorem pairLobby_membership :
    Reachable quietGame pairLimits pairLobby ∧ pairLobby.held = [⟨1, 1, 8⟩, ⟨0, 1, 7⟩] ∧
      (∀ e, pairLobby.registry.rooms.lookup 1 = some e → e.members.Perm [8, 7]) ∧
      Leaves quietGame ⟨1, 1, 8⟩ pairLobby (pairLobby.release quietGame 1) := by
  obtain ⟨hsome, hmembers, hleaves, -, -⟩ := reachable_membership pairLobby_reachable
  refine ⟨pairLobby_reachable, pairLobby_held, ?_, ?_⟩
  · intro e he
    have hlive : (pairLobby.rooms.lookup 1).isSome := by
      rw [← hsome, he]
      rfl
    obtain ⟨r, hr⟩ := Option.isSome_iff_exists.mp hlive
    have hperm := (hmembers 1 e r he hr).2
    rw [holders, pairLobby_held] at hperm
    exact hperm
  · exact hleaves ⟨1, 1, 8⟩ (by rw [pairLobby_held]; exact List.mem_cons_self)

end Lobby

end Gamewire
