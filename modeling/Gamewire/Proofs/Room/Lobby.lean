import Gamewire.Proofs.Room.Machine
import Gamewire.Proofs.Room.Registry

/-! What the parts of the lobby's operations leave alone. Effects only fill queues; a command of a
room changes that room or ends it, and the register follows. Everything that happens without a
request is of this kind, and from it come the facts about whole operations. -/
namespace Gamewire
set_option autoImplicit false

namespace Lobby

variable {σ : Type} {g : Game σ} {l l' l'' : Lobby σ}

/-! ## Queues -/

theorem changeMailbox_eq (ticket : Ticket) (f : Mailbox → Mailbox) (l : Lobby σ) :
    ∃ ms, l.changeMailbox ticket f = { l with mailboxes := ms } :=
  ⟨_, rfl⟩

theorem applyEffect_eq (l : Lobby σ) (e : Effect) :
    ∃ ms, l.applyEffect e = { l with mailboxes := ms } := by
  cases e with
  | deliver ticket frame => exact changeMailbox_eq ticket _ l
  | close ticket reason => exact changeMailbox_eq ticket _ l
  | disconnect ticket => exact changeMailbox_eq ticket _ l

theorem applyEffects_eq (l : Lobby σ) (es : List Effect) :
    ∃ ms, l.applyEffects es = { l with mailboxes := ms } := by
  induction es generalizing l with
  | nil => exact ⟨l.mailboxes, rfl⟩
  | cons e es ih =>
    obtain ⟨ms, hms⟩ := applyEffect_eq l e
    obtain ⟨ms', hms'⟩ := ih (l.applyEffect e)
    refine ⟨ms', ?_⟩
    rw [applyEffects, List.foldl_cons]
    rw [applyEffects] at hms'
    rw [hms', hms]

/-! ## Commands -/

/-- A command is lost, or the room goes on, or it ends and is struck off the register. -/
theorem command_cases (g : Game σ) (id : RoomId) (c : Command) (l : Lobby σ) :
    (l.rooms.lookup id = none ∧ command g id c l = l) ∨
      (∃ r r' ms, l.rooms.lookup id = some r ∧ (r.step g c).1 = some r' ∧
        command g id c l = { l with
          rooms := l.rooms.map fun x => if x.1 = id then (id, r') else x
          mailboxes := ms }) ∨
      ∃ r ms, l.rooms.lookup id = some r ∧ (r.step g c).1 = none ∧
        command g id c l = { l with
          rooms := l.rooms.filter (·.1 != id)
          registry := l.registry.remove id
          mailboxes := ms } := by
  cases hr : l.rooms.lookup id with
  | none =>
    refine .inl ⟨rfl, ?_⟩
    unfold command
    rw [hr]
  | some r =>
    have hcommand : command g id c l =
        ((l.setRoom id (r.step g c).1).noteExit id (r.step g c).1).applyEffects
          (r.step g c).2 := by
      unfold command
      rw [hr]
    rw [hcommand]
    cases hstep : (r.step g c).1 with
    | some r' =>
      obtain ⟨ms, hms⟩ := applyEffects_eq ((l.setRoom id (some r')).noteExit id (some r'))
        (r.step g c).2
      exact .inr (.inl ⟨r, r', ms, rfl, hstep, hms⟩)
    | none =>
      obtain ⟨ms, hms⟩ := applyEffects_eq ((l.setRoom id none).noteExit id none) (r.step g c).2
      exact .inr (.inr ⟨r, ms, rfl, hstep, hms⟩)

/-! ## Lobbies where rooms only end -/

/-- Some rooms may have ended and some timers gone off; nobody was admitted or released, and no time
passed. -/
structure Wanes (l l' : Lobby σ) : Prop where
  limits : l'.limits = l.limits
  registry : l.registry.Shrinks l'.registry
  manager : l'.manager = l.manager
  shuttingDown : l'.shuttingDown = l.shuttingDown
  held : l'.held = l.held
  timers : l'.timers.Sublist l.timers
  now : l'.now = l.now
  nextTicket : l'.nextTicket = l.nextTicket

theorem Wanes.refl (l : Lobby σ) : Wanes l l :=
  ⟨rfl, Registry.Shrinks.refl _, rfl, rfl, rfl, List.Sublist.refl _, rfl, rfl⟩

theorem Wanes.trans (h : Wanes l l') (h' : Wanes l' l'') : Wanes l l'' :=
  ⟨h'.limits.trans h.limits, h.registry.trans h'.registry, h'.manager.trans h.manager,
    h'.shuttingDown.trans h.shuttingDown, h'.held.trans h.held, h'.timers.trans h.timers,
    h'.now.trans h.now, h'.nextTicket.trans h.nextTicket⟩

theorem mailboxes_wanes (l : Lobby σ) (ms : List (Ticket × Mailbox)) :
    Wanes l { l with mailboxes := ms } :=
  ⟨rfl, Registry.Shrinks.refl _, rfl, rfl, rfl, List.Sublist.refl _, rfl, rfl⟩

theorem applyEffects_wanes (l : Lobby σ) (es : List Effect) : Wanes l (l.applyEffects es) := by
  obtain ⟨ms, hms⟩ := applyEffects_eq l es
  rw [hms]
  exact mailboxes_wanes l ms

theorem refuse_wanes (ticket : Ticket) (e : AdmissionFault) (l : Lobby σ) :
    Wanes l (l.refuse ticket e).2 :=
  mailboxes_wanes l _

theorem receive_wanes (ticket : Ticket) (l : Lobby σ) : Wanes l (l.receive ticket).2 := by
  unfold receive
  split
  · exact Wanes.refl l
  · exact mailboxes_wanes l _

theorem dropMailbox_wanes (ticket : Ticket) (l : Lobby σ) : Wanes l (l.dropMailbox ticket) :=
  mailboxes_wanes l _

theorem command_wanes (g : Game σ) (id : RoomId) (c : Command) (l : Lobby σ) :
    Wanes l (command g id c l) := by
  obtain ⟨-, hc⟩ | ⟨r, r', ms, -, -, hc⟩ | ⟨r, ms, -, -, hc⟩ := command_cases g id c l
  · rw [hc]
    exact Wanes.refl l
  · rw [hc]
    exact ⟨rfl, Registry.Shrinks.refl _, rfl, rfl, rfl, List.Sublist.refl _, rfl, rfl⟩
  · rw [hc]
    exact ⟨rfl, Registry.shrinks_remove _ _, rfl, rfl, rfl, List.Sublist.refl _, rfl, rfl⟩

theorem abandonRooms_wanes (l : Lobby σ) : Wanes l l.abandonRooms := by
  unfold abandonRooms
  refine Wanes.trans ?_ (applyEffects_wanes _ _)
  exact ⟨rfl, Registry.Shrinks.refl _, rfl, rfl, rfl, List.Sublist.refl _, rfl, rfl⟩

/-- The register goes before the rooms are abandoned. -/
theorem crash_wanes (l : Lobby σ) :
    Wanes { l with manager := .crashed, registry := { l.registry with rooms := [] } } l.crash :=
  abandonRooms_wanes _

theorem expire_wanes (g : Game σ) (l : Lobby σ) (t : Timer) : Wanes l (expire g l t) := by
  unfold expire
  split
  · refine Wanes.trans ?_ (command_wanes g t.room (.close "room closed") _)
    exact ⟨rfl, Registry.shrinks_remove _ _, rfl, rfl, rfl, List.Sublist.refl _, rfl, rfl⟩
  · exact Wanes.refl l

/-- What each step of a fold keeps within, the fold does. -/
theorem foldl_wanes {α : Type} {f : Lobby σ → α → Lobby σ} (hf : ∀ l a, Wanes l (f l a))
    (as : List α) (l : Lobby σ) : Wanes l (as.foldl f l) := by
  induction as generalizing l with
  | nil => exact Wanes.refl l
  | cons a as ih => exact (hf l a).trans (ih (f l a))

theorem expireDue_wanes (g : Game σ) (l : Lobby σ) : Wanes l (expireDue g l) := by
  unfold expireDue
  refine Wanes.trans ?_ (foldl_wanes (expire_wanes g) _ _)
  exact ⟨rfl, Registry.Shrinks.refl _, rfl, rfl, rfl, List.filter_sublist, rfl, rfl⟩

/-- No timer is left that should have gone off. -/
theorem expireDue_timers (g : Game σ) (l : Lobby σ) :
    ∀ t ∈ (expireDue g l).timers, (expireDue g l).now < t.due := by
  unfold expireDue
  have hw := foldl_wanes (expire_wanes g) (l.timers.filter (·.due ≤ l.now))
    { l with timers := l.timers.filter fun t => ¬ t.due ≤ l.now }
  intro t ht
  rw [hw.now]
  have hleft := (List.mem_filter.mp (hw.timers.subset ht)).2
  exact Nat.not_le.mp (of_decide_eq_true hleft)

/-! ## Operations -/

theorem takeOut_eq_self {a : Admission} (g : Game σ)
    (hremove : l.registry.removeMember a.room a.conn = none) : l.takeOut g a = l := by
  unfold takeOut
  rw [hremove]

/-- After the register struck a member off, its room is told, and a timer is set if nobody is left. -/
theorem takeOut_cases {a : Admission} {e : Entry} {registry : Registry} (g : Game σ)
    (hremove : l.registry.removeMember a.room a.conn = some (e, registry)) :
    (e.state ≠ .closing ∧
      l.takeOut g a = command g a.room (.leave a.conn) { l with registry := registry }) ∨
    ∃ left, left = command g a.room (.leave a.conn) { l with registry := registry } ∧
      e.state = .closing ∧
      l.takeOut g a = expireDue g { left with
        timers := left.timers ++ [⟨l.now + l.limits.grace, a.room, e.generation⟩] } := by
  have hw := command_wanes g a.room (.leave a.conn) { l with registry := registry }
  unfold takeOut
  rw [hremove]
  simp only
  by_cases hclosing : e.state = .closing
  · rw [if_pos hclosing]
    refine .inr ⟨_, rfl, hclosing, ?_⟩
    rw [hw.now, hw.limits]
  · rw [if_neg hclosing]
    exact .inl ⟨hclosing, rfl⟩

theorem takeOut_wanes {a : Admission} {e : Entry} {registry : Registry} (g : Game σ)
    (hremove : l.registry.removeMember a.room a.conn = some (e, registry)) :
    Wanes { l with
      registry := registry
      timers := l.timers ++ [⟨l.now + l.limits.grace, a.room, e.generation⟩] }
      (l.takeOut g a) := by
  have hw := command_wanes g a.room (.leave a.conn) { l with registry := registry }
  obtain ⟨-, ht⟩ | ⟨left, rfl, -, ht⟩ := takeOut_cases g hremove
  · rw [ht]
    exact ⟨hw.limits, hw.registry, hw.manager, hw.shuttingDown, hw.held,
      hw.timers.trans (List.sublist_append_left _ _), hw.now, hw.nextTicket⟩
  · rw [ht]
    refine Wanes.trans ?_ (expireDue_wanes g _)
    exact ⟨hw.limits, hw.registry, hw.manager, hw.shuttingDown, hw.held,
      hw.timers.append (List.Sublist.refl _), hw.now, hw.nextTicket⟩

/-- An admission is not held any more. -/
def free (ticket : Ticket) (l : Lobby σ) : Lobby σ :=
  { l with held := l.held.filter (·.ticket != ticket) }

theorem admission?_some {ticket : Ticket} {a : Admission} (h : l.admission? ticket = some a) :
    a ∈ l.held ∧ a.ticket = ticket := by
  have hfound : l.held.find? (·.ticket == ticket) = some a := h
  have htested := List.find?_some hfound
  exact ⟨List.mem_of_find?_eq_some hfound, beq_iff_eq.mp htested⟩

theorem free_of_admission?_none {ticket : Ticket} (h : l.admission? ticket = none) :
    l.free ticket = l := by
  have hnone : l.held.find? (·.ticket == ticket) = none := h
  have hsame : l.held.filter (·.ticket != ticket) = l.held := by
    apply List.filter_eq_self.mpr
    intro a ha
    simpa using List.find?_eq_none.mp hnone a ha
  rw [free, hsame]

theorem release_cases (g : Game σ) (ticket : Ticket) (l : Lobby σ) :
    (l.admission? ticket = none ∧ l.release g ticket = l) ∨
    ∃ a, l.admission? ticket = some a ∧
      ((l.manager = .running ∧ l.release g ticket = (l.free ticket).takeOut g a) ∨
        (l.manager ≠ .running ∧ l.release g ticket = (l.free ticket).abandonRooms)) := by
  unfold release
  split
  · rename_i hnone
    exact .inl ⟨hnone, rfl⟩
  · rename_i a hsome
    refine .inr ⟨a, hsome, ?_⟩
    simp only
    split
    · rename_i hrunning
      exact .inl ⟨hrunning, rfl⟩
    · rename_i hgone
      exact .inr ⟨by simp [hgone], rfl⟩
    · rename_i hcrashed
      exact .inr ⟨by simp [hcrashed], rfl⟩

theorem release_of_some {ticket : Ticket} {a : Admission} (ha : l.admission? ticket = some a)
    (g : Game σ) : l.release g ticket = if l.manager = .running then (l.free ticket).takeOut g a
      else (l.free ticket).abandonRooms := by
  obtain ⟨hnone, -⟩ | ⟨a', ha', ⟨hrunning, hr⟩ | ⟨hgone, hr⟩⟩ := release_cases g ticket l
  · cases ha.symm.trans hnone
  · cases ha.symm.trans ha'
    rw [hr, if_pos hrunning]
  · cases ha.symm.trans ha'
    rw [hr, if_neg hgone]

theorem closeRoom_wanes (g : Game σ) (id : RoomId) (reason : String) (l : Lobby σ) :
    Wanes l (command g id (.close reason) { l with registry := l.registry.remove id }) := by
  refine Wanes.trans ?_ (command_wanes g id (.close reason) _)
  exact ⟨rfl, Registry.shrinks_remove _ _, rfl, rfl, rfl, List.Sublist.refl _, rfl, rfl⟩

/-- The register is cleared before the rooms are told. -/
theorem closeAll_wanes (g : Game σ) (reason : String) (l : Lobby σ) :
    Wanes { l with registry := { l.registry with rooms := [] } } (closeAll g reason l) :=
  foldl_wanes (fun l id => command_wanes g id (.close reason) l) _ _

theorem closeAll_registry (g : Game σ) (reason : String) (l : Lobby σ) :
    (closeAll g reason l).registry.rooms = [] :=
  (closeAll_wanes g reason l).registry.nil rfl

end Lobby

end Gamewire
