import Gamewire.Proofs.Room.Capacity

/-! Every member has a queue of its own. A ticket goes to one member of one room, however rooms and
members come and go, so what is put into the queue of a ticket reaches that member and nobody else. -/
namespace Gamewire
set_option autoImplicit false

theorem mem_insertMember {conn : ConnId} {ticket : Ticket} {ms : List (ConnId × Ticket)}
    {m : ConnId × Ticket} (h : m ∈ Room.insertMember conn ticket ms) :
    m = (conn, ticket) ∨ m ∈ ms := by
  induction ms with
  | nil => exact .inl (List.mem_singleton.mp h)
  | cons first rest ih =>
    unfold Room.insertMember at h
    split at h
    · exact List.mem_cons.mp h
    · split at h
      · exact (List.mem_cons.mp h).imp_right (List.mem_cons_of_mem first)
      · obtain rfl | h := List.mem_cons.mp h
        · exact .inr List.mem_cons_self
        · exact (ih h).imp_right (List.mem_cons_of_mem first)

theorem mem_insertMember_self (conn : ConnId) (ticket : Ticket) (ms : List (ConnId × Ticket)) :
    (conn, ticket) ∈ Room.insertMember conn ticket ms := by
  induction ms with
  | nil => exact List.mem_cons_self
  | cons m ms ih =>
    obtain ⟨c, t⟩ := m
    unfold Room.insertMember
    split
    · exact List.mem_cons_self
    · split
      · exact List.mem_cons_self
      · exact List.mem_cons_of_mem (c, t) ih

theorem mem_insertMember_of_mem {conn : ConnId} {ms : List (ConnId × Ticket)}
    (hnew : conn ∉ ms.map (·.1)) (ticket : Ticket) {m : ConnId × Ticket} (hm : m ∈ ms) :
    m ∈ Room.insertMember conn ticket ms := by
  induction ms with
  | nil => cases hm
  | cons first ms ih =>
    obtain ⟨hfirst, hrest⟩ := not_or.mp (List.mem_cons.not.mp hnew)
    unfold Room.insertMember
    rw [if_neg hfirst]
    split
    · exact List.mem_cons_of_mem _ hm
    · obtain rfl | hm := List.mem_cons.mp hm
      · exact List.mem_cons_self
      · exact List.mem_cons_of_mem first (ih hrest hm)

namespace Lobby

variable {σ : Type} {g : Game σ} {limits : Limits} {l l' : Lobby σ} {id : RoomId}

/-! ## What operations uphold -/

/-- What commands uphold by which nobody comes, and rooms that are let go of, and whatever happens to
the register, the timers and the manager. -/
structure Upheld (g : Game σ) (P : Lobby σ → Prop) : Prop where
  same : ∀ {l l' : Lobby σ}, P l → l'.rooms = l.rooms → l'.mailboxes = l.mailboxes →
    l'.nextTicket = l.nextTicket → l'.held.Sublist l.held → P l'
  command : ∀ {l : Lobby σ} (id : RoomId) {c : Command}, (∀ conn ticket, c ≠ .join conn ticket) →
    P l → P (Lobby.command g id c l)
  abandonRooms : ∀ {l : Lobby σ}, P l → P l.abandonRooms

section

variable {P : Lobby σ → Prop}

theorem Upheld.closeRoom (hP : Upheld g P) (id : RoomId) (reason : String) (registry : Registry)
    (h : P l) : P (Lobby.command g id (.close reason) { l with registry := registry }) :=
  hP.command id (fun _ _ => Command.noConfusion) (hP.same h rfl rfl rfl (.refl _))

theorem Upheld.expire (hP : Upheld g P) (t : Timer) (h : P l) : P (Lobby.expire g l t) := by
  unfold Lobby.expire
  split
  · exact hP.closeRoom t.room "room closed" _ h
  · exact h

theorem Upheld.expireDue (hP : Upheld g P) (h : P l) : P (Lobby.expireDue g l) := by
  unfold Lobby.expireDue
  refine List.foldlRecOn _ _ (motive := P) ?_ fun _ h t _ => hP.expire t h
  exact hP.same h rfl rfl rfl (.refl _)

theorem Upheld.closeAll (hP : Upheld g P) (reason : String) (h : P l) :
    P (Lobby.closeAll g reason l) := by
  unfold Lobby.closeAll
  refine List.foldlRecOn _ _ (motive := P) ?_ fun _ h id _ =>
    hP.command id (fun _ _ => Command.noConfusion) h
  exact hP.same h rfl rfl rfl (.refl _)

theorem Upheld.takeOut (hP : Upheld g P) (a : Admission) (h : P l) : P (l.takeOut g a) := by
  cases hremove : l.registry.removeMember a.room a.conn with
  | none =>
    rw [takeOut_eq_self g hremove]
    exact h
  | some p =>
    obtain ⟨e, registry⟩ := p
    have hstruck : P { l with registry := registry } := hP.same h rfl rfl rfl (.refl _)
    have hleft := hP.command a.room (c := .leave a.conn) (fun _ _ => Command.noConfusion) hstruck
    obtain ⟨-, ht⟩ | ⟨left, rfl, -, ht⟩ := takeOut_cases g hremove
    · rw [ht]
      exact hleft
    · rw [ht]
      refine hP.expireDue ?_
      exact hP.same hleft rfl rfl rfl (.refl _)

theorem Upheld.release (hP : Upheld g P) (ticket : Ticket) (h : P l) : P (l.release g ticket) := by
  have hfree : P (l.free ticket) := hP.same h rfl rfl rfl List.filter_sublist
  obtain ⟨-, hr⟩ | ⟨a, -, ⟨-, hr⟩ | ⟨-, hr⟩⟩ := release_cases g ticket l
  · rw [hr]
    exact h
  · rw [hr]
    exact hP.takeOut a hfree
  · rw [hr]
    exact hP.abandonRooms hfree

theorem Upheld.crash (hP : Upheld g P) (h : P l) : P l.crash :=
  hP.abandonRooms (hP.same h rfl rfl rfl (.refl _))

/-- Besides that there are only requests and readers. -/
theorem Upheld.perform (hP : Upheld g P) (h : P l) (op : Operation)
    (hjoin : ∀ conn room buffer, op = .join conn room buffer ∨ op = .joinInVain conn room buffer →
      P (l.join g conn room buffer).2.2)
    (hreceive : ∀ ticket, P (l.receive ticket).2) (hdrop : ∀ ticket, P (l.dropMailbox ticket)) :
    P (l.perform g op) := by
  cases op with
  | join conn room buffer => exact hjoin conn room buffer (.inl rfl)
  | joinInVain conn room buffer =>
    exact hP.release l.nextTicket (hjoin conn room buffer (.inr rfl))
  | release ticket => exact hP.release ticket h
  | send a sender bytes =>
    simp only [Lobby.perform, Lobby.send]
    split
    · exact hP.command a.room (c := .frame sender bytes) (fun _ _ => Command.noConfusion) h
    · exact h
  | receive ticket => exact hreceive ticket
  | dropMailbox ticket => exact hdrop ticket
  | shutdownRoom room reason =>
    simp only [Lobby.perform, Lobby.shutdownRoom]
    split
    · exact h
    · split
      · exact hP.closeRoom room reason _ h
      · exact h
  | shutdown reason =>
    simp only [Lobby.perform, Lobby.shutdown]
    split
    · exact h
    · exact hP.closeAll reason (hP.same h rfl rfl rfl (.refl _))
  | advance ms => exact hP.expireDue (hP.same h rfl rfl rfl (.refl _))
  | dismiss =>
    simp only [Lobby.perform, Lobby.dismiss]
    split
    · exact hP.same (hP.closeAll "server stopped" h) rfl rfl rfl (.refl _)
    · exact h

end

/-! ## Rooms and members that go -/

/-- Rooms and members may have gone, and no tickets were handed out. -/
structure Narrows (l l' : Lobby σ) : Prop where
  keys : (l'.rooms.map (·.1)).Sublist (l.rooms.map (·.1))
  members : ∀ y ∈ l'.rooms, ∃ x ∈ l.rooms, x.1 = y.1 ∧ y.2.members.Sublist x.2.members
  nextTicket : l'.nextTicket = l.nextTicket

theorem narrows_of_eq (hrooms : l'.rooms = l.rooms) (hnext : l'.nextTicket = l.nextTicket) :
    Narrows l l' := by
  refine ⟨hrooms ▸ List.Sublist.refl _, fun y hy => ⟨y, ?_, rfl, List.Sublist.refl _⟩, hnext⟩
  rw [← hrooms]
  exact hy

theorem Narrows.refl (l : Lobby σ) : Narrows l l := narrows_of_eq rfl rfl

theorem Narrows.trans {l'' : Lobby σ} (h : Narrows l l') (h' : Narrows l' l'') : Narrows l l'' where
  keys := h'.keys.trans h.keys
  members := by
    intro z hz
    obtain ⟨y, hy, hkey, hsub⟩ := h'.members z hz
    obtain ⟨x, hx, hkey', hsub'⟩ := h.members y hy
    exact ⟨x, hx, hkey'.trans hkey, hsub.trans hsub'⟩
  nextTicket := h'.nextTicket.trans h.nextTicket

theorem Narrows.of_same {l'' : Lobby σ} (h : Narrows l' l'') (hrooms : l'.rooms = l.rooms)
    (hnext : l'.nextTicket = l.nextTicket) : Narrows l l'' :=
  (narrows_of_eq hrooms hnext).trans h

theorem narrows_filter {rooms : List (RoomId × Room σ)} (hs : rooms.Sublist l.rooms)
    (hrooms : l'.rooms = rooms) (hnext : l'.nextTicket = l.nextTicket) : Narrows l l' := by
  subst hrooms
  exact ⟨hs.map _, fun y hy => ⟨y, hs.subset hy, rfl, List.Sublist.refl _⟩, hnext⟩

theorem step_members_sublist {r r' : Room σ} {c : Command}
    (hc : ∀ conn ticket, c ≠ .join conn ticket) (h : (r.step g c).1 = some r') :
    r'.members.Sublist r.members := by
  cases c with
  | join conn ticket => exact absurd rfl (hc conn ticket)
  | leave conn =>
    simp only [Room.step] at h
    split at h
    · cases h
      exact List.Sublist.refl _
    · rw [(Room.settle_some h).2]
      exact List.filter_sublist
  | frame sender bytes =>
    simp only [Room.step] at h
    split at h
    · cases h
      exact List.Sublist.refl _
    · split at h
      · cases h
        exact List.Sublist.refl _
      · rw [(Room.settle_some h).2]
  | close reason => cases h

theorem command_narrows (g : Game σ) (id : RoomId) (c : Command)
    (hc : ∀ conn ticket, c ≠ .join conn ticket) (l : Lobby σ) : Narrows l (command g id c l) := by
  obtain ⟨-, hcommand⟩ | ⟨r, r', ms, hr, hstep, hcommand⟩ | ⟨r, ms, -, -, hcommand⟩ :=
    command_cases g id c l
  · rw [hcommand]
    exact .refl l
  · rw [hcommand]
    refine ⟨?_, ?_, rfl⟩
    · rw [map_fst_set]
    · intro y hy
      obtain ⟨x, hx, rfl⟩ := List.mem_map.mp hy
      split
      · exact ⟨(id, r), mem_of_lookup hr, rfl, step_members_sublist hc hstep⟩
      · exact ⟨x, hx, rfl, List.Sublist.refl _⟩
  · rw [hcommand]
    exact narrows_filter List.filter_sublist rfl rfl

theorem abandonRooms_narrows (l : Lobby σ) : Narrows l l.abandonRooms := by
  obtain ⟨ms, hms⟩ := abandonRooms_eq l
  rw [hms]
  exact narrows_filter List.filter_sublist rfl rfl

theorem narrows_upheld (g : Game σ) (l : Lobby σ) : Upheld g (Narrows l) where
  same := fun h hrooms _ hnext _ => h.trans (narrows_of_eq hrooms hnext)
  command := fun {l'} id {c} hc h => h.trans (command_narrows g id c hc l')
  abandonRooms := fun {l'} h => h.trans (abandonRooms_narrows l')

theorem closeRoom_narrows (g : Game σ) (id : RoomId) (reason : String) (registry : Registry)
    (l : Lobby σ) : Narrows l (command g id (.close reason) { l with registry := registry }) :=
  (narrows_upheld g l).closeRoom id reason registry (.refl l)

theorem expireDue_narrows (g : Game σ) (l : Lobby σ) : Narrows l (expireDue g l) :=
  (narrows_upheld g l).expireDue (.refl l)

theorem closeAll_narrows (g : Game σ) (reason : String) (l : Lobby σ) :
    Narrows l (closeAll g reason l) :=
  (narrows_upheld g l).closeAll reason (.refl l)

theorem release_narrows (g : Game σ) (ticket : Ticket) (l : Lobby σ) :
    Narrows l (l.release g ticket) :=
  (narrows_upheld g l).release ticket (.refl l)

theorem crash_narrows (l : Lobby σ) : Narrows l l.crash :=
  (abandonRooms_narrows { l with
    manager := .crashed
    registry := { l.registry with rooms := [] } }).of_same rfl rfl

/-- Whatever holds of fewer rooms, members and admissions is upheld but for requests. -/
theorem perform_of_narrows {P : Lobby σ → Prop}
    (hP : ∀ {l l' : Lobby σ}, P l → Narrows l l' → (∀ a ∈ l'.held, a ∈ l.held) → P l') (h : P l)
    (op : Operation)
    (hjoin : ∀ conn room buffer, op = .join conn room buffer ∨ op = .joinInVain conn room buffer →
      P (l.join g conn room buffer).2.2) : P (l.perform g op) := by
  have hupheld : Upheld g P :=
    ⟨fun h hrooms _ hnext hheld => hP h (narrows_of_eq hrooms hnext) fun _ ha => hheld.subset ha,
      fun {l} id {c} hc h => hP h (command_narrows g id c hc l) fun _ ha =>
        (command_wanes g id c l).held ▸ ha,
      fun {l} h => hP h (abandonRooms_narrows l) fun _ ha => (abandonRooms_wanes l).held ▸ ha⟩
  have hreceive : ∀ ticket, P (l.receive ticket).2 := fun ticket =>
    hP h (narrows_of_eq (receive_alike ticket l).rooms (receive_wanes ticket l).nextTicket)
      fun _ ha => (receive_wanes ticket l).held ▸ ha
  exact hupheld.perform h op hjoin hreceive fun _ => hP h (narrows_of_eq rfl rfl) fun _ ha => ha

/-! ## Tickets -/

/-- Rooms are told apart by their numbers, the members of a room by theirs, and all members by their
tickets. -/
structure Ticketed (l : Lobby σ) : Prop where
  rooms : (l.rooms.map (·.1)).Nodup
  ascending : ∀ x ∈ l.rooms, x.2.connections.Pairwise (· < ·)
  given : ∀ x ∈ l.rooms, ∀ m ∈ x.2.members, m.2 < l.nextTicket
  told : ∀ x ∈ l.rooms, ∀ y ∈ l.rooms, ∀ m ∈ x.2.members, ∀ n ∈ y.2.members,
    m.2 = n.2 → x.1 = y.1 ∧ m.1 = n.1

theorem ticketed_start (h : start limits = .ok l) : Ticketed l := by
  obtain ⟨rfl, -⟩ := start_eq h
  exact ⟨List.nodup_nil, List.forall_mem_nil _, List.forall_mem_nil _, List.forall_mem_nil _⟩

theorem Ticketed.narrow (h : Ticketed l) (hn : Narrows l l') : Ticketed l' where
  rooms := h.rooms.sublist hn.keys
  ascending := by
    intro y hy
    obtain ⟨x, hx, -, hsub⟩ := hn.members y hy
    exact (h.ascending x hx).sublist (hsub.map _)
  given := by
    intro y hy m hm
    obtain ⟨x, hx, -, hsub⟩ := hn.members y hy
    rw [hn.nextTicket]
    exact h.given x hx m (hsub.subset hm)
  told := by
    intro y hy y' hy' m hm n hn' heq
    obtain ⟨x, hx, hkey, hsub⟩ := hn.members y hy
    obtain ⟨x', hx', hkey', hsub'⟩ := hn.members y' hy'
    rw [← hkey, ← hkey']
    exact h.told x hx x' hx' m (hsub.subset hm) n (hsub'.subset hn') heq

theorem Ticketed.join (h : Ticketed l) {ticket : Ticket}
    (hnew : ∀ x ∈ l.rooms, ∀ m ∈ x.2.members, m.2 < ticket) (hgiven : ticket < l.nextTicket)
    (g : Game σ) (id : RoomId) (conn : ConnId) :
    Ticketed (command g id (.join conn ticket) l) := by
  obtain ⟨-, hcommand⟩ | ⟨r, r', ms, hr, hstep, hcommand⟩ | ⟨r, ms, -, -, hcommand⟩ :=
    command_cases g id (.join conn ticket) l
  · rw [hcommand]
    exact h
  · have hlive := mem_of_lookup hr
    have hmembers : r'.members = Room.insertMember conn ticket r.members :=
      (Room.settle_some hstep).2
    -- who is in a room now was there before or is the one that came
    have hfrom : ∀ y ∈ l.rooms.map (fun x => if x.1 = id then (id, r') else x),
        ∀ m ∈ y.2.members, (∃ x ∈ l.rooms, x.1 = y.1 ∧ m ∈ x.2.members) ∨
          (y.1 = id ∧ m = (conn, ticket)) := by
      intro y hy m hm
      obtain ⟨x, hx, rfl⟩ := List.mem_map.mp hy
      by_cases hid : x.1 = id
      · rw [if_pos hid, hmembers] at hm
        rw [if_pos hid]
        obtain hm | hm := mem_insertMember hm
        · exact .inr ⟨rfl, hm⟩
        · exact .inl ⟨(id, r), hlive, rfl, hm⟩
      · rw [if_neg hid] at hm ⊢
        exact .inl ⟨x, hx, rfl, hm⟩
    rw [hcommand]
    refine ⟨?_, ?_, ?_, ?_⟩
    · rw [map_fst_set]
      exact h.rooms
    · intro y hy
      obtain ⟨x, hx, rfl⟩ := List.mem_map.mp hy
      split
      · rw [Room.connections, hmembers, map_fst_insertMember]
        exact insertConn_ascending (h.ascending (id, r) hlive)
      · exact h.ascending x hx
    · intro y hy m hm
      obtain ⟨x, hx, -, hm⟩ | ⟨-, rfl⟩ := hfrom y hy m hm
      · exact h.given x hx m hm
      · exact hgiven
    · intro y hy z hz m hm n hn heq
      obtain ⟨x, hx, hkey, hm⟩ | ⟨hkey, rfl⟩ := hfrom y hy m hm
      · obtain ⟨x', hx', hkey', hn⟩ | ⟨-, rfl⟩ := hfrom z hz n hn
        · rw [← hkey, ← hkey']
          exact h.told x hx x' hx' m hm n hn heq
        · exact absurd heq (Nat.ne_of_lt (hnew x hx m hm))
      · obtain ⟨x', hx', -, hn⟩ | ⟨hkey', rfl⟩ := hfrom z hz n hn
        · exact absurd heq.symm (Nat.ne_of_lt (hnew x' hx' n hn))
        · exact ⟨hkey.trans hkey'.symm, rfl⟩
  · rw [hcommand]
    exact h.narrow (narrows_filter List.filter_sublist rfl rfl)

theorem Ready.rooms_nodup (h : Ready limits id l) : (l.rooms.map (·.1)).Nodup := by
  have hkeys := congrArg (List.map (·.1)) h.agrees
  rw [Registry.keys_roster, roster, List.map_map] at hkeys
  exact hkeys ▸ h.ordered.nodup

/-- The room that was just made has no members. -/
theorem createRoom_members (hcreate : l.createRoom g = some (id, l')) {x : RoomId × Room σ}
    (hx : x ∈ l'.rooms) {m : ConnId × Ticket} (hm : m ∈ x.2.members) : x ∈ l.rooms := by
  obtain ⟨registry, state, -, -, rfl⟩ := createRoom_eq_some hcreate
  obtain hx | hx := List.mem_append.mp hx
  · exact hx
  · rw [List.mem_singleton.mp hx] at hm
    cases hm

theorem Ticketed.createRoom (h : Ticketed l) (hnodup : (l'.rooms.map (·.1)).Nodup)
    (hcreate : l.createRoom g = some (id, l')) : Ticketed l' := by
  have hold : ∀ x ∈ l'.rooms, ∀ m ∈ x.2.members, x ∈ l.rooms :=
    fun x hx m hm => createRoom_members hcreate hx hm
  obtain ⟨registry, state, -, -, rfl⟩ := createRoom_eq_some hcreate
  refine ⟨hnodup, ?_, ?_, ?_⟩
  · intro x hx
    obtain hx | hx := List.mem_append.mp hx
    · exact h.ascending x hx
    · rw [List.mem_singleton.mp hx]
      exact List.Pairwise.nil
  · exact fun x hx m hm => h.given x (hold x hx m hm) m hm
  · exact fun x hx y hy m hm n hn => h.told x (hold x hx m hm) y (hold y hy n hn) m hm n hn

theorem Bounded.join_ticketed (hb : Bounded limits l) (h : Ticketed l) (g : Game σ) (conn : ConnId)
    (requested : Option RoomId) (buffer : Nat) :
    Ticketed (l.join g conn requested buffer).2.2 := by
  have hopened : Ticketed (l.openMailbox buffer).2 :=
    ⟨h.rooms, h.ascending, fun x hx m hm => Nat.lt_succ_of_lt (h.given x hx m hm), h.told⟩
  obtain ⟨e, hj⟩ | ⟨id, l', hready, hl', hj⟩ | hj := hb.join_cases g conn requested buffer
  · rw [hj]
    exact hopened.narrow (narrows_of_eq rfl rfl)
  · have hplace : Ticketed l' ∧ (∀ x ∈ l'.rooms, ∀ m ∈ x.2.members, m.2 < l.nextTicket) ∧
        l'.nextTicket = l.nextTicket + 1 := by
      obtain rfl | hcreate := hl'
      · exact ⟨hopened, h.given, rfl⟩
      · refine ⟨hopened.createRoom hready.rooms_nodup hcreate, fun x hx m hm => ?_, ?_⟩
        · exact h.given x (createRoom_members hcreate hx hm) m hm
        · obtain ⟨registry, state, -, -, rfl⟩ := createRoom_eq_some hcreate
          rfl
    obtain ⟨hl, hnew, hnext⟩ := hplace
    have hentering : Ticketed { l' with
        registry := l'.registry.addMember id conn
        held := ⟨l.nextTicket, id, conn⟩ :: l'.held } := hl.narrow (narrows_of_eq rfl rfl)
    rw [hj]
    exact hentering.join hnew (hnext ▸ Nat.lt_succ_self _) g id conn
  · rw [hj]
    exact hopened.narrow ((crash_narrows _).trans (narrows_of_eq rfl rfl))

theorem Ticketed.perform (h : Ticketed l) (hb : Bounded limits l) (g : Game σ) (op : Operation) :
    Ticketed (l.perform g op) :=
  perform_of_narrows (fun h hn _ => h.narrow hn) h op fun conn room buffer _ =>
    hb.join_ticketed h g conn room buffer

theorem run_ticketed (h : start limits = .ok l) (g : Game σ) (ops : List Operation) :
    Ticketed (l.run g ops) := by
  induction ops using List.reverseRecOn with
  | nil => exact ticketed_start h
  | append_singleton ops op ih =>
    rw [run_concat]
    exact ih.perform (Bounded.run (.inl (sound_start h)) g ops) g op

end Lobby

end Gamewire
