import Gamewire.Proofs.Room.Membership

/-! The moments of a run. An operation goes through lobbies that nobody sees from outside: a request
whose connection is gone is granted before it is given back, and a room that has just become empty, or
whose time is up, is still there until the timers go off. At the end of each operation those that are
due do. -/
namespace Gamewire
set_option autoImplicit false

/-! ## Changes of the register -/

/-- What becomes of a register at once: rooms are struck off, or a connection comes into a room that
may be new, and the room may be struck off over it. -/
inductive Registry.Change (r : Registry) : Registry → Prop where
  | shrink {r' : Registry} (hs : r.Shrinks r') : Change r r'
  | enter {r₁ r' : Registry} {id : RoomId} {e : Entry} {conn : ConnId}
      (hmade : r₁ = r ∨ r.create = some (id, r₁)) (he : r₁.rooms.lookup id = some e)
      (hsound : (r₁.addMember id conn).Sound) (hs : (r₁.addMember id conn).Shrinks r') : Change r r'

namespace Registry

variable {r r' r'' : Registry} {id : RoomId} {conn : ConnId} {e : Entry}

/-- No number is given out again, and the generation of a room never falls. -/
structure Ages (r r' : Registry) : Prop where
  nextId_le : r.nextId ≤ r'.nextId
  generation_le : ∀ id e', r'.rooms.lookup id = some e' → id.toNat < r.nextId →
    ∃ e, r.rooms.lookup id = some e ∧ e.generation ≤ e'.generation

theorem Ages.trans (h : Ages r r') (h' : Ages r' r'') : Ages r r'' where
  nextId_le := Nat.le_trans h.nextId_le h'.nextId_le
  generation_le := by
    intro id e'' he'' hlt
    obtain ⟨e', he', hle'⟩ := h'.generation_le id e'' he'' (Nat.lt_of_lt_of_le hlt h.nextId_le)
    obtain ⟨e, he, hle⟩ := h.generation_le id e' he' hlt
    exact ⟨e, he, Nat.le_trans hle hle'⟩

theorem Shrinks.ages (hs : Shrinks r r') (h : r.Ordered) : Ages r r' :=
  ⟨Nat.le_of_eq hs.nextId.symm, fun _ e' he' _ => ⟨e', hs.lookup h he', Nat.le_refl _⟩⟩

theorem ages_setEntry {e' : Entry} (he : r.rooms.lookup id = some e)
    (hle : e.generation ≤ e'.generation) : Ages r (r.setEntry id e') := by
  refine ⟨Nat.le_refl _, fun id' f hf _ => ?_⟩
  rw [lookup_setEntry] at hf
  by_cases hid : id' = id
  · rw [if_pos hid, he] at hf
    cases hf
    exact ⟨e, hid ▸ he, hle⟩
  · rw [if_neg hid] at hf
    exact ⟨f, hf, Nat.le_refl _⟩

theorem lookup_create_ne {id' : RoomId} (hc : r.create = some (id, r')) (hne : id' ≠ id) :
    r'.rooms.lookup id' = r.rooms.lookup id' := by
  obtain ⟨-, rfl⟩ := create_eq_some hc
  rw [List.lookup_append, lookup_cons_ne hne, List.lookup_nil, Option.or_none]

theorem ages_create (hc : r.create = some (id, r')) : Ages r r' := by
  obtain ⟨hid, hr'⟩ := create_eq_some hc
  refine ⟨by rw [hr']; exact Nat.le_succ _, fun id' e' he' hlt => ?_⟩
  have hne : id' ≠ id := by
    rintro rfl
    omega
  rw [lookup_create_ne hc hne] at he'
  exact ⟨e', he', Nat.le_refl _⟩

theorem addMember_eq (he : r.rooms.lookup id = some e) (conn : ConnId) :
    r.addMember id conn = r.setEntry id ⟨.ofCount (insertConn conn e.members).length r.capacity,
      insertConn conn e.members,
      if e.state = .closing then e.generation + 1 else e.generation⟩ := by
  unfold addMember
  rw [he]

theorem ages_addMember (he : r.rooms.lookup id = some e) (conn : ConnId) :
    Ages r (r.addMember id conn) := by
  rw [addMember_eq he]
  refine ages_setEntry he ?_
  simp only
  split <;> omega

theorem removeMember_generation {e' : Entry} (h : r.removeMember id conn = some (e', r'))
    (he : r.rooms.lookup id = some e) :
    e'.generation = if e'.state = .closing then e.generation + 1 else e.generation := by
  unfold removeMember at h
  rw [he] at h
  simp only at h
  split at h
  · cases h
    rfl
  · cases h

theorem ages_removeMember {e' : Entry} (h : r.removeMember id conn = some (e', r')) :
    Ages r r' := by
  obtain ⟨e, he, -, rfl, -, -⟩ := removeMember_eq_some h
  refine ages_setEntry he ?_
  rw [removeMember_generation h he]
  split <;> omega

theorem Change.ages (hc : r.Change r') (h : r.Ordered) : Ages r r' := by
  cases hc with
  | shrink hs => exact hs.ages h
  | enter hmade he hsound hs =>
    have hentered := (ages_addMember he _).trans (hs.ages hsound.toOrdered)
    obtain rfl | hcreate := hmade
    · exact hentered
    · exact (ages_create hcreate).trans hentered

theorem Change.sound (hc : r.Change r') (h : r.Sound) : r'.Sound := by
  cases hc with
  | shrink hs => exact h.shrink hs
  | enter _ _ hsound hs => exact hsound.shrink hs

end Registry

/-- An operation that gives no admission back and takes no time. -/
def Operation.Brief : Operation → Prop
  | .joinInVain _ _ _ | .release _ | .advance _ => False
  | _ => True

namespace Lobby

variable {σ : Type} {g : Game σ} {limits : Limits} {l l' : Lobby σ} {id : RoomId}

/-! ## Operations up to the timers -/

/-- A member is taken out of its room, and the timer is set if nobody is left. -/
def vacate (g : Game σ) (a : Admission) (l : Lobby σ) : Lobby σ :=
  match l.registry.removeMember a.room a.conn with
  | none => l
  | some (entry, registry) =>
    let left := command g a.room (.leave a.conn) { l with registry := registry }
    if entry.state = .closing then
      { left with timers := left.timers ++ [⟨l.now + l.limits.grace, a.room, entry.generation⟩] }
    else left

/-- An admission is given back. -/
def giveBack (g : Game σ) (ticket : Ticket) (l : Lobby σ) : Lobby σ :=
  match l.admission? ticket with
  | none => l
  | some a =>
    if l.manager = .running then (l.free ticket).vacate g a else (l.free ticket).abandonRooms

/-- An operation up to the moment at which the timers go off that are due by then. -/
def act (g : Game σ) (l : Lobby σ) : Operation → Lobby σ
  | .joinInVain conn room buffer => (l.join g conn room buffer).2.2.giveBack g l.nextTicket
  | .release ticket => l.giveBack g ticket
  | .advance ms => { l with now := l.now + ms }
  | op => l.perform g op

/-- The lobbies on the way to the end of an operation. -/
def stages (g : Game σ) (l : Lobby σ) : Operation → List (Lobby σ)
  | .joinInVain conn room buffer =>
    [(l.join g conn room buffer).2.2, l.act g (.joinInVain conn room buffer)]
  | op => [l.act g op]

/-- All lobbies that a run goes through. -/
def history (g : Game σ) : Lobby σ → List Operation → List (Lobby σ)
  | _, [] => []
  | l, op :: ops => l.stages g op ++ l.perform g op :: history g (l.perform g op) ops

theorem history_concat (g : Game σ) (l : Lobby σ) (ops : List Operation) (op : Operation) :
    l.history g (ops ++ [op]) =
      l.history g ops ++ ((l.run g ops).stages g op ++ [(l.run g ops).perform g op]) := by
  induction ops generalizing l with
  | nil => simp [history, run]
  | cons first ops ih =>
    have hrun : l.run g (first :: ops) = (l.perform g first).run g ops := rfl
    rw [List.cons_append, history, history, ih, hrun, List.append_assoc, List.cons_append]

/-! ## Timers and clock -/

/-- Timers and clock stand as they were. -/
structure Still (l l' : Lobby σ) : Prop where
  limits : l'.limits = l.limits
  timers : l'.timers = l.timers
  now : l'.now = l.now

theorem Still.refl (l : Lobby σ) : Still l l := ⟨rfl, rfl, rfl⟩

theorem Still.trans {l'' : Lobby σ} (h : Still l l') (h' : Still l' l'') : Still l l'' :=
  ⟨h'.limits.trans h.limits, h'.timers.trans h.timers, h'.now.trans h.now⟩

theorem Still.waits (h : Still l l') (hw : Waits l) : Waits l' := by
  intro t ht
  rw [h.timers] at ht
  rw [h.now]
  exact hw t ht

theorem command_still (g : Game σ) (id : RoomId) (c : Command) (l : Lobby σ) :
    Still l (command g id c l) := by
  obtain ⟨-, hc⟩ | ⟨r, r', ms, -, -, hc⟩ | ⟨r, ms, -, -, hc⟩ := command_cases g id c l
  · rw [hc]
    exact .refl l
  · rw [hc]
    exact ⟨rfl, rfl, rfl⟩
  · rw [hc]
    exact ⟨rfl, rfl, rfl⟩

theorem abandonRooms_still (l : Lobby σ) : Still l l.abandonRooms := by
  obtain ⟨ms, hms⟩ := abandonRooms_eq l
  rw [hms]
  exact ⟨rfl, rfl, rfl⟩

theorem closeAll_still (g : Game σ) (reason : String) (l : Lobby σ) :
    Still l (closeAll g reason l) := by
  have hfold : ∀ (ids : List RoomId) (l : Lobby σ),
      Still l (ids.foldl (fun l id => command g id (.close reason) l) l) := by
    intro ids
    induction ids with
    | nil => exact fun l => .refl l
    | cons id ids ih => exact fun l => (command_still g id (.close reason) l).trans (ih _)
  have hall := hfold (l.registry.rooms.map (·.1)) { l with
    registry := { l.registry with rooms := [] } }
  exact ⟨hall.limits, hall.timers, hall.now⟩

/-! ## Giving back -/

theorem with_timers {ts : List Timer} (h : l.timers = ts) : { l with timers := ts } = l := by
  subst h
  rfl

theorem vacate_eq_self {a : Admission} (g : Game σ)
    (hremove : l.registry.removeMember a.room a.conn = none) : l.vacate g a = l := by
  unfold vacate
  rw [hremove]

theorem vacate_eq {a : Admission} {e : Entry} {registry : Registry} (g : Game σ)
    (hremove : l.registry.removeMember a.room a.conn = some (e, registry)) :
    l.vacate g a = { command g a.room (.leave a.conn) { l with registry := registry } with
      timers := l.timers ++ if e.state = .closing then
        [⟨l.now + l.limits.grace, a.room, e.generation⟩] else [] } := by
  have hstill := command_still g a.room (.leave a.conn) { l with registry := registry }
  unfold vacate
  rw [hremove]
  simp only
  split
  · rw [hstill.timers]
  · rw [List.append_nil, with_timers hstill.timers]

theorem giveBack_cases (g : Game σ) (ticket : Ticket) (l : Lobby σ) :
    (l.admission? ticket = none ∧ l.giveBack g ticket = l) ∨
    ∃ a, l.admission? ticket = some a ∧
      ((l.manager = .running ∧ l.giveBack g ticket = (l.free ticket).vacate g a) ∨
        (l.manager ≠ .running ∧ l.giveBack g ticket = (l.free ticket).abandonRooms)) := by
  unfold giveBack
  split
  · rename_i hnone
    exact .inl ⟨hnone, rfl⟩
  · rename_i a hsome
    refine .inr ⟨a, hsome, ?_⟩
    split
    · rename_i hrunning
      exact .inl ⟨hrunning, rfl⟩
    · rename_i hidle
      exact .inr ⟨hidle, rfl⟩

/-! ## Timers that wait -/

theorem Waits.expireDue_eq (h : Waits l) (g : Game σ) : expireDue g l = l := by
  have hnone : l.timers.filter (·.due ≤ l.now) = [] := by
    apply List.filter_eq_nil_iff.mpr
    intro t ht
    simpa using h t ht
  have hall : (l.timers.filter fun t => ¬ t.due ≤ l.now) = l.timers := by
    apply List.filter_eq_self.mpr
    intro t ht
    simpa using h t ht
  unfold expireDue
  simp only [hnone, hall, List.foldl_nil]

theorem Waits.takeOut_eq (h : Waits l) (g : Game σ) (a : Admission) :
    l.takeOut g a = expireDue g (l.vacate g a) := by
  cases hremove : l.registry.removeMember a.room a.conn with
  | none =>
    rw [takeOut_eq_self g hremove, vacate_eq_self g hremove, h.expireDue_eq g]
  | some p =>
    obtain ⟨e, registry⟩ := p
    have hstill := command_still g a.room (.leave a.conn) { l with registry := registry }
    rw [vacate_eq g hremove]
    obtain ⟨hclosing, ht⟩ | ⟨left, rfl, hclosing, ht⟩ := takeOut_cases g hremove
    · have hleft : Waits (command g a.room (.leave a.conn) { l with registry := registry }) :=
        hstill.waits h
      rw [ht, if_neg hclosing, List.append_nil, with_timers hstill.timers, hleft.expireDue_eq g]
    · rw [ht, if_pos hclosing, hstill.timers]

theorem Waits.release_eq (h : Waits l) (g : Game σ) (ticket : Ticket) :
    l.release g ticket = expireDue g (l.giveBack g ticket) := by
  have hfree : Waits (l.free ticket) := h
  unfold giveBack
  obtain ⟨hnone, hr⟩ | ⟨a, ha, ⟨hrunning, hr⟩ | ⟨hidle, hr⟩⟩ := release_cases g ticket l
  · simp only [hnone]
    rw [hr, h.expireDue_eq g]
  · simp only [ha, if_pos hrunning]
    rw [hr, hfree.takeOut_eq g a]
  · have hafter := hfree.wane (abandonRooms_wanes (l.free ticket))
    simp only [ha, if_neg hidle]
    rw [hr, hafter.expireDue_eq g]

/-! ## From moment to moment -/

theorem Bounded.join_change (h : Bounded limits l) (g : Game σ) (conn : ConnId)
    (requested : Option RoomId) (buffer : Nat) :
    Still l (l.join g conn requested buffer).2.2 ∧
      l.registry.Change (l.join g conn requested buffer).2.2.registry := by
  obtain ⟨e, hj⟩ | ⟨id, l', hready, hl', hj⟩ | hj := h.join_cases g conn requested buffer
  · rw [hj]
    exact ⟨⟨rfl, rfl, rfl⟩, .shrink (.refl _)⟩
  · -- the room is written down before the rules are asked, who may end it
    obtain ⟨e, he, hsorted, hspace⟩ := hready.space
    have hsound := Registry.sound_addMember hready.ordered hready.others he hsorted hspace conn
    have hmade : (l'.registry = l.registry ∨ l.registry.create = some (id, l'.registry)) ∧
        Still l l' := by
      obtain rfl | hcreate := hl'
      · exact ⟨.inl rfl, rfl, rfl, rfl⟩
      · obtain ⟨registry, state, hreg, -, rfl⟩ := createRoom_eq_some hcreate
        exact ⟨.inr hreg, rfl, rfl, rfl⟩
    have hstill := command_still g id (.join conn l.nextTicket) { l' with
      registry := l'.registry.addMember id conn
      held := ⟨l.nextTicket, id, conn⟩ :: l'.held }
    have hw := command_wanes g id (.join conn l.nextTicket) { l' with
      registry := l'.registry.addMember id conn
      held := ⟨l.nextTicket, id, conn⟩ :: l'.held }
    rw [hj]
    exact ⟨hmade.2.trans ⟨hstill.limits, hstill.timers, hstill.now⟩,
      .enter hmade.1 he hsound hw.registry⟩
  · have hstill := abandonRooms_still { (l.openMailbox buffer).2 with
      manager := .crashed
      registry := { l.registry with rooms := [] } }
    have hw := crash_wanes (l.openMailbox buffer).2
    rw [hj]
    exact ⟨⟨hstill.limits, hstill.timers, hstill.now⟩,
      .shrink ((Registry.shrinks_clear l.registry).trans hw.registry)⟩

theorem Wanes.change (h : Wanes l l') : l.registry.Change l'.registry := .shrink h.registry

theorem Outcome.brief {op : Operation} (ho : Outcome g l op l') (h : Bounded limits l)
    (hop : op.Brief) : Still l l' ∧ l.registry.Change l'.registry := by
  cases ho with
  | join conn room buffer => exact h.join_change g conn room buffer
  | joinInVain | release | advance => exact hop.elim
  | frame a sender bytes =>
    exact ⟨command_still g a.room (.frame sender bytes) l,
      (command_wanes g a.room (.frame sender bytes) l).change⟩
  | closeRoom room reason =>
    have hstill := command_still g room (.close reason) { l with
      registry := l.registry.remove room }
    exact ⟨⟨hstill.limits, hstill.timers, hstill.now⟩, (closeRoom_wanes g room reason l).change⟩
  | shutdown reason =>
    have hstill := closeAll_still g reason { l with shuttingDown := true }
    have hw := closeAll_wanes g reason { l with shuttingDown := true }
    exact ⟨⟨hstill.limits, hstill.timers, hstill.now⟩,
      .shrink ((Registry.shrinks_clear l.registry).trans hw.registry)⟩
  | dismiss =>
    have hstill := closeAll_still g "server stopped" l
    have hw := closeAll_wanes g "server stopped" l
    exact ⟨⟨hstill.limits, hstill.timers, hstill.now⟩,
      .shrink ((Registry.shrinks_clear l.registry).trans hw.registry)⟩
  | queues ms => exact ⟨⟨rfl, rfl, rfl⟩, .shrink (.refl _)⟩

/-- What happens from one moment to the next: the register changes, a member leaves its room and the
timer of the room may be set, or time passes. -/
inductive Moves (l : Lobby σ) : Lobby σ → Prop where
  | change {l' : Lobby σ} (hs : Still l l') (hc : l.registry.Change l'.registry) : Moves l l'
  | vacate {l' : Lobby σ} {id : RoomId} {conn : ConnId} {e : Entry} {registry : Registry}
      (hremove : l.registry.removeMember id conn = some (e, registry))
      (hs : registry.Shrinks l'.registry) (hlimits : l'.limits = l.limits)
      (htimers : l'.timers = l.timers ++ if e.state = .closing then
        [⟨l.now + l.limits.grace, id, e.generation⟩] else [])
      (hnow : l'.now = l.now) : Moves l l'
  | pass {l' : Lobby σ} (hregistry : l'.registry = l.registry) (hlimits : l'.limits = l.limits)
      (htimers : l'.timers = l.timers) (hnow : l.now ≤ l'.now) : Moves l l'

theorem moves_self (l : Lobby σ) : Moves l l := .change (.refl l) (.shrink (.refl _))

theorem vacate_moves (g : Game σ) (a : Admission) (l : Lobby σ) : Moves l (l.vacate g a) := by
  cases hremove : l.registry.removeMember a.room a.conn with
  | none =>
    rw [vacate_eq_self g hremove]
    exact moves_self l
  | some p =>
    obtain ⟨e, registry⟩ := p
    have hstill := command_still g a.room (.leave a.conn) { l with registry := registry }
    have hw := command_wanes g a.room (.leave a.conn) { l with registry := registry }
    rw [vacate_eq g hremove]
    exact .vacate hremove hw.registry hstill.limits rfl hstill.now

theorem Moves.of_free {ticket : Ticket} (h : Moves (l.free ticket) l') : Moves l l' := by
  cases h with
  | change hs hc => exact .change ⟨hs.limits, hs.timers, hs.now⟩ hc
  | vacate hremove hs hlimits htimers hnow => exact .vacate hremove hs hlimits htimers hnow
  | pass hregistry hlimits htimers hnow => exact .pass hregistry hlimits htimers hnow

theorem giveBack_moves (g : Game σ) (ticket : Ticket) (l : Lobby σ) :
    Moves l (l.giveBack g ticket) := by
  obtain ⟨-, hg⟩ | ⟨a, -, ⟨-, hg⟩ | ⟨-, hg⟩⟩ := giveBack_cases g ticket l
  · rw [hg]
    exact moves_self l
  · rw [hg]
    exact (vacate_moves g a (l.free ticket)).of_free
  · rw [hg]
    exact Moves.of_free (.change (abandonRooms_still _) (.shrink (abandonRooms_wanes _).registry))

/-- A way through the lobbies `ls`, the last of which is `l'`. -/
inductive Way : Lobby σ → List (Lobby σ) → Lobby σ → Prop where
  | done (l : Lobby σ) : Way l [] l
  | move {l m l' : Lobby σ} {ms : List (Lobby σ)} (h : Moves l m) (hrest : Way m ms l') :
      Way l (m :: ms) l'

theorem Moves.way (h : Moves l l') : Way l [l'] l' := .move h (.done l')

/-- Whatever an operation does, up to the timers it does it in such moves. -/
theorem Bounded.stages_way (h : Bounded limits l) (g : Game σ) (op : Operation) :
    Way l (l.stages g op) (l.act g op) := by
  have hbrief : op.Brief → Moves l (l.perform g op) := by
    intro hop
    obtain ⟨hs, hc⟩ := (perform_outcome g l op).brief h hop
    exact .change hs hc
  cases op with
  | joinInVain conn room buffer =>
    obtain ⟨hs, hc⟩ := h.join_change g conn room buffer
    exact .move (.change hs hc) (giveBack_moves g _ _).way
  | release ticket => exact (giveBack_moves g ticket l).way
  | advance ms =>
    have hmoves : Moves l { l with now := l.now + ms } := .pass rfl rfl rfl (Nat.le_add_right _ _)
    exact hmoves.way
  | join | send | receive | dropMailbox | shutdownRoom | shutdown | dismiss =>
    exact (hbrief trivial).way

/-- At the end of every operation the timers go off that are due. -/
theorem Bounded.perform_eq (h : Bounded limits l) (hw : Waits l) (g : Game σ) (op : Operation) :
    l.perform g op = expireDue g (l.act g op) := by
  have hbrief : op.Brief → l.perform g op = expireDue g (l.perform g op) := fun hop =>
    (Waits.expireDue_eq (((perform_outcome g l op).brief h hop).1.waits hw) g).symm
  cases op with
  | joinInVain conn room buffer =>
    exact Waits.release_eq ((h.join_change g conn room buffer).1.waits hw) g l.nextTicket
  | release ticket => exact hw.release_eq g ticket
  | advance ms => rfl
  | join | send | receive | dropMailbox | shutdownRoom | shutdown | dismiss => exact hbrief trivial

theorem Bounded.perform_waits (h : Bounded limits l) (hw : Waits l) (g : Game σ)
    (op : Operation) : Waits (l.perform g op) := by
  rw [h.perform_eq hw g op]
  exact expireDue_timers g _

end Lobby

end Gamewire
