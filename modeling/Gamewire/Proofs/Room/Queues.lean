import Gamewire.Proofs.Room.Effects
import Gamewire.Proofs.Room.Teardown

/-! The queues of members. As long as somebody is in a room, the room holds the other end of the
member's queue and has put no notice into it: whatever closes the room or takes the member out of it
ends the membership in the same step. -/
namespace Gamewire
set_option autoImplicit false

/-- A room holds the other end and has not said that it closes. -/
def Mailbox.Linked (q : Mailbox) : Prop := q.notice = none ∧ q.connected = true

namespace Room

variable {σ : Type} {g : Game σ} {r r' : Room σ} {c : Command}

/-- A room that goes on delivers frames, and lets go of the queues of those it is left by. -/
theorem mem_step_of_some (h : (r.step g c).1 = some r') {e : Effect} (he : e ∈ (r.step g c).2) :
    (∃ t ∈ r.parting c, e = .disconnect t) ∨ ∃ frame, e = .deliver e.ticket frame := by
  obtain hparted | ⟨m, -, ⟨msg, frame, -, rfl⟩ | ⟨text, hv, -⟩ | ⟨reason, rfl, -⟩ | ⟨hv, -⟩⟩ :=
    mem_step he
  · exact .inl hparted
  · exact .inr ⟨frame, rfl⟩
  · rw [step_of_verdict hv] at h
    cases h
  · cases h
  · rw [step_of_verdict hv] at h
    cases h

end Room

namespace Lobby

variable {σ : Type} {g : Game σ} {limits : Limits} {l l' : Lobby σ} {id : RoomId}

theorem Agrees.lookup_live (h : l.Agrees) {r : Room σ} (hr : l.rooms.lookup id = some r) :
    ∃ e, l.registry.rooms.lookup id = some e ∧ e.members = r.connections := by
  have hlookup := h.lookup id
  rw [hr] at hlookup
  exact Option.map_eq_some_iff.mp hlookup

/-! ## The invariant -/

/-- Queues are opened before their tickets are used, and those of members are linked. No ticket is
held twice. -/
structure Wired (l : Lobby σ) : Prop extends Ticketed l where
  opened : ∀ t, (l.mailbox? t).isSome → t < l.nextTicket
  linked : ∀ x ∈ l.rooms, ∀ m ∈ x.2.members, ∀ q, l.mailbox? m.2 = some q → q.Linked
  held_lt : ∀ a ∈ l.held, a.ticket < l.nextTicket
  held_nodup : (l.held.map (·.ticket)).Nodup

theorem wired_start (h : start limits = .ok l) : Wired l := by
  have hticketed := ticketed_start h
  obtain ⟨rfl, -⟩ := start_eq h
  exact ⟨hticketed, fun _ => Bool.noConfusion, List.forall_mem_nil _, List.forall_mem_nil _,
    List.nodup_nil⟩

/-- A member that comes has a queue that nobody else has. -/
def Admissible (l : Lobby σ) : Command → Prop
  | .join _ ticket => (∀ x ∈ l.rooms, ∀ m ∈ x.2.members, m.2 < ticket) ∧ ticket < l.nextTicket ∧
      ∀ q, l.mailbox? ticket = some q → q.Linked
  | .leave _ | .frame _ _ | .close _ => True

/-- Who is taken out of a room has another queue than those who are in it then. -/
theorem Ticketed.parting_disjoint (h : Ticketed l) {r : Room σ} (hr : (id, r) ∈ l.rooms)
    {c : Command} (hc : l.Admissible c) {t : Ticket} (ht : t ∈ r.parting c) :
    t ∉ (r.gathered c).members.map (·.2) := by
  have hparted : ∀ {conn}, t ∈ (r.members.lookup conn).toList → (conn, t) ∈ r.members :=
    fun hlookup => mem_of_lookup (Option.mem_toList.mp hlookup)
  intro hmem
  obtain ⟨m, hm, rfl⟩ := List.mem_map.mp hmem
  cases c with
  | join conn ticket =>
    obtain ⟨hnew, -, -⟩ := hc
    have hout := hparted ht
    have hold : m.2 ≠ ticket := Nat.ne_of_lt (hnew (id, r) hr (conn, m.2) hout)
    obtain rfl | hmember := mem_insertMember hm
    · exact hold rfl
    · have hsame : m.1 = conn := (h.told (id, r) hr (id, r) hr m hmember _ hout rfl).2
      -- there is one member under each number
      have hnodup : ((Room.insertMember conn ticket r.members).map (·.1)).Nodup := by
        rw [map_fst_insertMember]
        exact ascending_nodup (insertConn_ascending (h.ascending (id, r) hr))
      have heq := List.inj_on_of_nodup_map hnodup hm (mem_insertMember_self conn ticket r.members)
        hsame
      exact hold (congrArg Prod.snd heq)
  | leave conn =>
    obtain ⟨hmember, hne⟩ := List.mem_filter.mp hm
    exact bne_iff_ne.mp hne (h.told (id, r) hr (id, r) hr m hmember _ (hparted ht) rfl).2
  | frame sender bytes => cases ht
  | close reason => cases ht

/-! ## Commands -/

/-- Who is in a room after a command was there before, or is the one that came. -/
theorem mem_command {c : Command} {x : RoomId × Room σ} (hx : x ∈ (command g id c l).rooms)
    {m : ConnId × Ticket} (hm : m ∈ x.2.members) :
    (∃ y ∈ l.rooms, y.1 = x.1 ∧ m ∈ y.2.members) ∨ (x.1 = id ∧ c = .join m.1 m.2) := by
  obtain ⟨-, hc⟩ | ⟨r, r', ms, hr, hstep, hc⟩ | ⟨r, ms, -, -, hc⟩ := command_cases g id c l
  · rw [hc] at hx
    exact .inl ⟨x, hx, rfl, hm⟩
  · rw [hc] at hx
    obtain ⟨y, hy, rfl⟩ := List.mem_map.mp hx
    by_cases hid : y.1 = id
    · rw [if_pos hid] at hm ⊢
      rw [Room.members_of_step hstep] at hm
      obtain hm | hjoin := Room.mem_gathered hm
      · exact .inl ⟨(id, r), mem_of_lookup hr, rfl, hm⟩
      · exact .inr ⟨rfl, hjoin⟩
    · rw [if_neg hid] at hm ⊢
      exact .inl ⟨y, hy, rfl, hm⟩
  · rw [hc] at hx
    exact .inl ⟨x, List.mem_of_mem_filter hx, rfl, hm⟩

theorem Ticketed.handle (h : Ticketed l) (g : Game σ) (id : RoomId) {c : Command}
    (hc : l.Admissible c) : Ticketed (command g id c l) := by
  cases c with
  | join conn ticket => exact h.join hc.1 hc.2.1 g id conn
  | leave | frame | close =>
    exact h.narrow (command_narrows g id _ (fun _ _ => Command.noConfusion) l)

/-- The members of other rooms, and only those, keep their queues as they were. -/
theorem Ticketed.mailbox?_command (h : Ticketed l) (g : Game σ) {id id' : RoomId} (hne : id' ≠ id)
    {c : Command} (hc : l.Admissible c) {r : Room σ} (hr : (id', r) ∈ l.rooms)
    {m : ConnId × Ticket} (hm : m ∈ r.members) :
    (Lobby.command g id c l).mailbox? m.2 = l.mailbox? m.2 := by
  cases hroom : l.rooms.lookup id with
  | none => rw [command_of_lookup_none g c hroom]
  | some r₀ =>
    refine mailbox?_command_of_not_mem g hroom ?_ ?_
    · intro hmem
      obtain ⟨n, hn, heq⟩ := List.mem_map.mp hmem
      exact hne (h.told (id', r) hr (id, r₀) (mem_of_lookup hroom) m hm n hn heq.symm).1
    · rintro conn rfl
      exact absurd (hc.1 (id', r) hr m hm) (Nat.lt_irrefl _)

/-- Members that stay in a room that goes on get frames and nothing else. -/
theorem Ticketed.linked_of_step (h : Ticketed l) {r r' : Room σ} (hr : (id, r) ∈ l.rooms)
    {c : Command} (hc : l.Admissible c) (hstep : (r.step g c).1 = some r') {m : ConnId × Ticket}
    (hm : m ∈ r'.members) {q : Mailbox} (hq : q.Linked) :
    (Mailbox.after m.2 (r.step g c).2 q).Linked := by
  rw [Room.members_of_step hstep] at hm
  have hframes : ∀ e ∈ (r.step g c).2, e.ticket = m.2 → ∃ frame, e = .deliver m.2 frame := by
    intro e he heq
    obtain ⟨t, ht, rfl⟩ | ⟨frame, hframe⟩ := Room.mem_step_of_some hstep he
    · cases heq
      exact absurd (List.mem_map_of_mem hm) (h.parting_disjoint hr hc ht)
    · rw [heq] at hframe
      exact ⟨frame, hframe⟩
  constructor
  · rw [Mailbox.notice_after, hq.1]
    intro reason he
    obtain ⟨frame, hframe⟩ := hframes _ he rfl
    cases hframe
  · rw [Mailbox.connected_after hframes, hq.2]

theorem Wired.command (h : Wired l) (g : Game σ) (id : RoomId) {c : Command}
    (hc : l.Admissible c) : Wired (command g id c l) := by
  have hw := command_wanes g id c l
  refine ⟨h.toTicketed.handle g id hc, ?_, ?_, ?_, ?_⟩
  · intro t ht
    rw [hw.nextTicket]
    cases hr : l.rooms.lookup id with
    | none =>
      rw [command_of_lookup_none g c hr] at ht
      exact h.opened t ht
    | some r =>
      rw [Lobby.mailbox?_command g c hr, Option.isSome_map] at ht
      exact h.opened t ht
  · obtain ⟨-, hcommand⟩ | ⟨r, r', ms, hr, hstep, hcommand⟩ | ⟨r, ms, hr, -, hcommand⟩ :=
      command_cases g id c l
    · rw [hcommand]
      exact h.linked
    · have hrooms : (Lobby.command g id c l).rooms =
          l.rooms.map fun x => if x.1 = id then (id, r') else x := by rw [hcommand]
      intro x hx m hm q hq
      rw [hrooms] at hx
      obtain ⟨y, hy, rfl⟩ := List.mem_map.mp hx
      by_cases hid : y.1 = id
      · rw [if_pos hid] at hm
        rw [Lobby.mailbox?_command g c hr] at hq
        obtain ⟨q₀, hq₀, rfl⟩ := Option.map_eq_some_iff.mp hq
        refine h.linked_of_step (mem_of_lookup hr) hc hstep hm ?_
        have hgathered := Room.members_of_step hstep ▸ hm
        obtain hmember | rfl := Room.mem_gathered hgathered
        · exact h.linked (id, r) (mem_of_lookup hr) m hmember q₀ hq₀
        · exact hc.2.2 q₀ hq₀
      · rw [if_neg hid] at hm
        rw [h.mailbox?_command g hid hc (r := y.2) hy hm] at hq
        exact h.linked y hy m hm q hq
    · have hrooms : (Lobby.command g id c l).rooms = l.rooms.filter (·.1 != id) := by rw [hcommand]
      intro x hx m hm q hq
      rw [hrooms] at hx
      obtain ⟨hx, hid⟩ := List.mem_filter.mp hx
      rw [h.mailbox?_command g (bne_iff_ne.mp hid) hc (r := x.2) hx hm] at hq
      exact h.linked x hx m hm q hq
  · rw [hw.held, hw.nextTicket]
    exact h.held_lt
  · rw [hw.held]
    exact h.held_nodup

/-! ## What happens without a request -/

theorem Wired.same (h : Wired l) (hrooms : l'.rooms = l.rooms)
    (hmailboxes : l'.mailboxes = l.mailboxes) (hnext : l'.nextTicket = l.nextTicket)
    (hheld : l'.held.Sublist l.held) : Wired l' := by
  refine ⟨h.toTicketed.narrow (narrows_of_eq hrooms hnext), ?_, ?_, ?_,
    h.held_nodup.sublist (hheld.map _)⟩
  · rw [hnext, show l'.mailbox? = l.mailbox? by unfold mailbox?; rw [hmailboxes]]
    exact h.opened
  · rw [hrooms, show l'.mailbox? = l.mailbox? by unfold mailbox?; rw [hmailboxes]]
    exact h.linked
  · intro a ha
    rw [hnext]
    exact h.held_lt a (hheld.subset ha)

theorem mailbox?_abandonRooms (l : Lobby σ) (t : Ticket) :
    l.abandonRooms.mailbox? t = (l.mailbox? t).map fun q =>
      if ∃ x ∈ l.rooms, l.held.any (·.room == x.1) = false ∧ t ∈ x.2.members.map (·.2)
        then q.disconnect else q := by
  have heffects : ((l.rooms.filter fun x => !l.held.any (·.room == x.1)).flatMap
      fun x => x.2.disconnectAll) =
        ((l.rooms.filter fun x => !l.held.any (·.room == x.1)).flatMap
          fun x => x.2.members.map (·.2)).map Effect.disconnect := by
    rw [List.map_flatMap]
    simp only [List.map_map]
    rfl
  unfold abandonRooms
  simp only [heffects, mailbox?_applyEffects]
  refine congrArg (fun f => (l.mailbox? t).map f) (funext fun q => ?_)
  rw [Mailbox.after_disconnect]
  refine if_congr ?_ rfl rfl
  simp only [List.mem_flatMap, List.mem_filter, Bool.not_eq_eq_eq_not, Bool.not_true, and_assoc]

theorem Wired.abandonRooms (h : Wired l) : Wired l.abandonRooms := by
  have hw := abandonRooms_wanes l
  obtain ⟨ms, hms⟩ := abandonRooms_eq l
  have hrooms : l.abandonRooms.rooms = l.rooms.filter fun x => l.held.any (·.room == x.1) := by
    rw [hms]
  refine ⟨h.toTicketed.narrow (abandonRooms_narrows l), ?_, ?_, ?_, ?_⟩
  · intro t ht
    rw [mailbox?_abandonRooms, Option.isSome_map] at ht
    rw [hw.nextTicket]
    exact h.opened t ht
  · intro x hx m hm q hq
    rw [hrooms] at hx
    obtain ⟨hx, hheld⟩ := List.mem_filter.mp hx
    rw [mailbox?_abandonRooms] at hq
    obtain ⟨q₀, hq₀, rfl⟩ := Option.map_eq_some_iff.mp hq
    rw [if_neg]
    · exact h.linked x hx m hm q₀ hq₀
    · rintro ⟨y, hy, hfree, hmem⟩
      obtain ⟨n, hn, heq⟩ := List.mem_map.mp hmem
      rw [(h.told y hy x hx n hn m hm heq).1, hheld] at hfree
      cases hfree
  · rw [hw.held, hw.nextTicket]
    exact h.held_lt
  · rw [hw.held]
    exact h.held_nodup

theorem wired_upheld (g : Game σ) : Upheld g Wired where
  same := Wired.same
  command := by
    intro l id c hc h
    cases c with
    | join conn ticket => exact absurd rfl (hc conn ticket)
    | leave | frame | close => exact h.command g id trivial
  abandonRooms := Wired.abandonRooms

theorem Wired.free (h : Wired l) (ticket : Ticket) : Wired (l.free ticket) :=
  h.same rfl rfl rfl List.filter_sublist

/-! ## Requests -/

/-- A new queue is the only one that comes. -/
theorem Wired.mailbox?_openMailbox (h : Wired l) (buffer : Nat) (t : Ticket) :
    (l.openMailbox buffer).2.mailbox? t =
      if t = l.nextTicket then some (.ofBuffer buffer) else l.mailbox? t := by
  unfold openMailbox mailbox?
  simp only [List.lookup_append]
  by_cases ht : t = l.nextTicket
  · have hnone : l.mailboxes.lookup t = none := by
      cases hsome : l.mailboxes.lookup t with
      | none => rfl
      | some q =>
        have hlt := h.opened t (by rw [mailbox?, hsome]; rfl)
        exact absurd hlt (ht ▸ Nat.lt_irrefl _)
    rw [hnone, if_pos ht, ht, List.lookup_cons_self]
    rfl
  · rw [if_neg ht, List.lookup_cons, beq_eq_false_iff_ne.mpr ht]
    cases l.mailboxes.lookup t <;> rfl

theorem Wired.openMailbox (h : Wired l) (buffer : Nat) : Wired (l.openMailbox buffer).2 := by
  have hmembers : ∀ x ∈ l.rooms, ∀ m ∈ x.2.members, m.2 ≠ l.nextTicket :=
    fun x hx m hm => Nat.ne_of_lt (h.given x hx m hm)
  refine ⟨⟨h.rooms, h.ascending, fun x hx m hm => Nat.lt_succ_of_lt (h.given x hx m hm), h.told⟩,
    ?_, ?_, fun a ha => Nat.lt_succ_of_lt (h.held_lt a ha), h.held_nodup⟩
  · intro t ht
    rw [h.mailbox?_openMailbox] at ht
    split at ht
    · rename_i hnew
      rw [hnew]
      exact Nat.lt_succ_self _
    · exact Nat.lt_succ_of_lt (h.opened t ht)
  · intro x hx m hm q hq
    rw [h.mailbox?_openMailbox, if_neg (hmembers x hx m hm)] at hq
    exact h.linked x hx m hm q hq

theorem Wired.changeMailbox (h : Wired l) (ticket : Ticket) (f : Mailbox → Mailbox)
    (hf : (∃ x ∈ l.rooms, ticket ∈ x.2.members.map (·.2)) → ∀ q, q.Linked → (f q).Linked) :
    Wired (l.changeMailbox ticket f) := by
  refine ⟨h.toTicketed.narrow (narrows_of_eq rfl rfl), ?_, ?_, h.held_lt, h.held_nodup⟩
  · intro t ht
    rw [mailbox?_changeMailbox] at ht
    split at ht
    · rw [Option.isSome_map] at ht
      exact h.opened t ht
    · exact h.opened t ht
  · intro x hx m hm q hq
    rw [mailbox?_changeMailbox] at hq
    split at hq
    · rename_i heq
      obtain ⟨q₀, hq₀, rfl⟩ := Option.map_eq_some_iff.mp hq
      refine hf ⟨x, hx, heq ▸ List.mem_map_of_mem hm⟩ q₀ (h.linked x hx m hm q₀ hq₀)
    · exact h.linked x hx m hm q hq

theorem Wired.createRoom (h : Wired l) (hnodup : (l'.rooms.map (·.1)).Nodup)
    (hcreate : l.createRoom g = some (id, l')) : Wired l' := by
  have hold : ∀ x ∈ l'.rooms, ∀ m ∈ x.2.members, x ∈ l.rooms :=
    fun x hx m hm => createRoom_members hcreate hx hm
  have hticketed := h.toTicketed.createRoom hnodup hcreate
  obtain ⟨registry, state, -, -, rfl⟩ := createRoom_eq_some hcreate
  refine ⟨hticketed, h.opened, ?_, h.held_lt, h.held_nodup⟩
  exact fun x hx m hm => h.linked x (hold x hx m hm) m hm

/-- A lobby into which a connection may be let has a new queue for it, and nobody new. -/
theorem Wired.place (h : Wired l) {buffer : Nat} (hready : Ready limits id l')
    (hl' : l' = (l.openMailbox buffer).2 ∨ (l.openMailbox buffer).2.createRoom g = some (id, l')) :
    Wired l' ∧ (∀ x ∈ l'.rooms, ∀ m ∈ x.2.members, m.2 < l.nextTicket) ∧
      l'.nextTicket = l.nextTicket + 1 ∧
      l'.mailboxes = (l.openMailbox buffer).2.mailboxes ∧ l'.held = l.held ∧
      l'.timers = l.timers ∧
      (∀ id', id' ≠ id → l'.registry.rooms.lookup id' = l.registry.rooms.lookup id' ∧
        l'.rooms.lookup id' = l.rooms.lookup id') ∧
      ∀ x ∈ l'.rooms, ∀ m ∈ x.2.members, x ∈ l.rooms := by
  have hopened := h.openMailbox buffer
  obtain rfl | hcreate := hl'
  · exact ⟨hopened, h.given, rfl, rfl, rfl, rfl, fun _ _ => ⟨rfl, rfl⟩, fun _ hx _ _ => hx⟩
  · have hwired := hopened.createRoom hready.rooms_nodup hcreate
    have hold : ∀ x ∈ l'.rooms, ∀ m ∈ x.2.members, x ∈ l.rooms :=
      fun x hx m hm => createRoom_members hcreate hx hm
    obtain ⟨registry, state, hreg, -, rfl⟩ := createRoom_eq_some hcreate
    obtain ⟨-, rfl⟩ := Registry.create_eq_some hreg
    refine ⟨hwired, ?_, rfl, rfl, rfl, rfl, fun id' hne => ⟨?_, ?_⟩, hold⟩
    · exact fun x hx m hm => h.given x (hold x hx m hm) m hm
    · rw [List.lookup_append, lookup_cons_ne hne, List.lookup_nil, Option.or_none]
      rfl
    · rw [List.lookup_append, lookup_cons_ne hne, List.lookup_nil, Option.or_none]
      rfl

/-- What is known of a lobby in which a connection was just put down for a room. -/
def entering (id : RoomId) (conn : ConnId) (ticket : Ticket) (l : Lobby σ) : Lobby σ :=
  { l with registry := l.registry.addMember id conn, held := ⟨ticket, id, conn⟩ :: l.held }

theorem enter_eq (g : Game σ) (id : RoomId) (conn : ConnId) (ticket : Ticket) (l : Lobby σ) :
    l.enter g id conn ticket = Lobby.command g id (.join conn ticket) (l.entering id conn ticket) :=
  rfl

theorem Wired.entering (h : Wired l) {buffer : Nat} (hready : Ready limits id l')
    (hl' : l' = (l.openMailbox buffer).2 ∨ (l.openMailbox buffer).2.createRoom g = some (id, l'))
    (conn : ConnId) : Wired (l'.entering id conn l.nextTicket) ∧
      (l'.entering id conn l.nextTicket).Admissible (.join conn l.nextTicket) := by
  obtain ⟨hwired, hnew, hnext, hmailboxes, hheld, -⟩ := h.place hready hl'
  have hlt : l.nextTicket < l'.nextTicket := hnext ▸ Nat.lt_succ_self _
  refine ⟨⟨hwired.toTicketed.narrow (narrows_of_eq rfl rfl), hwired.opened, hwired.linked, ?_, ?_⟩,
    hnew, hlt, ?_⟩
  · intro a ha
    obtain rfl | ha := List.mem_cons.mp ha
    · exact hlt
    · exact hwired.held_lt a ha
  · refine List.nodup_cons.mpr ⟨?_, hwired.held_nodup⟩
    rw [hheld]
    intro hmem
    obtain ⟨a, ha, heq⟩ := List.mem_map.mp hmem
    exact absurd heq (Nat.ne_of_lt (h.held_lt a ha))
  · intro q hq
    have hsame : (l'.entering id conn l.nextTicket).mailbox? l.nextTicket =
        (l.openMailbox buffer).2.mailbox? l.nextTicket := by
      unfold mailbox?
      exact congrArg (List.lookup l.nextTicket) hmailboxes
    rw [hsame, h.mailbox?_openMailbox, if_pos rfl] at hq
    cases hq
    exact ⟨rfl, rfl⟩

theorem Bounded.join_wired (hb : Bounded limits l) (h : Wired l) (g : Game σ) (conn : ConnId)
    (requested : Option RoomId) (buffer : Nat) : Wired (l.join g conn requested buffer).2.2 := by
  have hopened := h.openMailbox buffer
  have hnobody : ∀ l' : Lobby σ, Narrows l l' → ¬∃ x ∈ l'.rooms,
      l.nextTicket ∈ x.2.members.map (·.2) := by
    rintro l' hn ⟨y, hy, hmem⟩
    obtain ⟨m, hm, heq⟩ := List.mem_map.mp hmem
    obtain ⟨x, hx, -, hsub⟩ := hn.members y hy
    exact absurd heq (Nat.ne_of_lt (h.given x hx m (hsub.subset hm)))
  obtain ⟨e, hj⟩ | ⟨id, l', hready, hl', hj⟩ | hj := hb.join_cases g conn requested buffer
  · rw [hj]
    exact hopened.changeMailbox _ _ fun hmember => absurd hmember (hnobody l (.refl l))
  · obtain ⟨hentering, hadmissible⟩ := h.entering hready hl' conn
    rw [hj]
    exact hentering.command g id hadmissible
  · rw [hj]
    refine ((wired_upheld g).crash hopened).changeMailbox _ _ fun hmember => absurd hmember ?_
    rintro ⟨y, hy, hmem⟩
    obtain ⟨x, hx, -, hsub⟩ := (crash_narrows _).members y hy
    exact hnobody l (.refl l) ⟨x, hx, (hsub.map _).subset hmem⟩

theorem Wired.receive (h : Wired l) (ticket : Ticket) : Wired (l.receive ticket).2 := by
  cases hq : l.mailbox? ticket with
  | none =>
    unfold Lobby.receive
    rw [hq]
    exact h
  | some q =>
    have hreceive : (l.receive ticket).2 = l.changeMailbox ticket fun _ => q.receive.2 := by
      unfold Lobby.receive
      rw [hq]
    rw [hreceive]
    refine h.changeMailbox ticket _ ?_
    rintro ⟨x, hx, hmem⟩ - -
    obtain ⟨m, hm, rfl⟩ := List.mem_map.mp hmem
    obtain ⟨hnotice, hconnected⟩ := h.linked x hx m hm q hq
    unfold Mailbox.receive
    simp only [hnotice]
    split
    · exact ⟨rfl, hconnected⟩
    · exact ⟨hnotice, hconnected⟩

theorem mailbox?_dropMailbox (ticket t : Ticket) (l : Lobby σ) :
    (l.dropMailbox ticket).mailbox? t = if t = ticket then none else l.mailbox? t := by
  unfold dropMailbox mailbox?
  induction l.mailboxes with
  | nil => simp
  | cons m ms ih =>
    obtain ⟨k, q⟩ := m
    by_cases hk : k = ticket
    · rw [List.filter_cons_of_neg (by simp [hk]), ih, hk]
      by_cases ht : t = ticket
      · rw [if_pos ht, if_pos ht]
      · rw [if_neg ht, if_neg ht, List.lookup_cons, beq_eq_false_iff_ne.mpr ht]
    · rw [List.filter_cons_of_pos (by simpa using hk)]
      by_cases ht : t = k
      · rw [ht, List.lookup_cons_self, List.lookup_cons_self, if_neg hk]
      · rw [List.lookup_cons, List.lookup_cons, beq_eq_false_iff_ne.mpr ht, ih]

theorem Wired.dropMailbox (h : Wired l) (ticket : Ticket) : Wired (l.dropMailbox ticket) := by
  have hsub : ∀ t q, (l.dropMailbox ticket).mailbox? t = some q → l.mailbox? t = some q := by
    intro t q hq
    rw [mailbox?_dropMailbox] at hq
    split at hq
    · cases hq
    · exact hq
  refine ⟨h.toTicketed.narrow (narrows_of_eq rfl rfl), ?_, ?_, h.held_lt, h.held_nodup⟩
  · intro t ht
    obtain ⟨q, hq⟩ := Option.isSome_iff_exists.mp ht
    exact h.opened t (by rw [hsub t q hq]; rfl)
  · exact fun x hx m hm q hq => h.linked x hx m hm q (hsub m.2 q hq)

/-! ## All operations -/

theorem Wired.perform (h : Wired l) (hb : Bounded limits l) (g : Game σ) (op : Operation) :
    Wired (l.perform g op) :=
  (wired_upheld g).perform h op (fun conn room buffer _ => hb.join_wired h g conn room buffer)
    h.receive h.dropMailbox

theorem run_wired (h : start limits = .ok l) (g : Game σ) (ops : List Operation) :
    Wired (l.run g ops) := by
  induction ops using List.reverseRecOn with
  | nil => exact wired_start h
  | append_singleton ops op ih =>
    rw [run_concat]
    exact ih.perform (Bounded.run (.inl (sound_start h)) g ops) g op

end Lobby

end Gamewire
