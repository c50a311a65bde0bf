import Gamewire.Proofs.Room.Grace
import Gamewire.Proofs.Room.Policy

/-! Runs with empty rooms. A room that stays empty goes at the end of the operation that brings its
time, and no earlier; until it is entered again nothing happens in it, and after that the timers that
were set for it before do nothing. -/
namespace Gamewire
set_option autoImplicit false

theorem lookup_filter_some {α : Type} {id : RoomId} {a : α} {p : RoomId → Bool}
    {xs : List (RoomId × α)} (h : (xs.filter fun x => p x.1).lookup id = some a) :
    xs.lookup id = some a := by
  induction xs with
  | nil => exact h
  | cons x xs ih =>
    obtain ⟨k, b⟩ := x
    by_cases hk : p k
    · rw [List.filter_cons, if_pos hk, List.lookup_cons] at h
      rw [List.lookup_cons]
      split
      · rename_i hid
        rwa [hid] at h
      · rename_i hid
        rw [hid] at h
        exact ih h
    · rw [List.filter_cons, if_neg hk] at h
      -- what is found further back does not have the key that was left out
      have hkey := (List.mem_filter.mp (mem_of_lookup h)).2
      have hne : id ≠ k := by
        rintro rfl
        exact hk hkey
      rw [lookup_cons_ne hne]
      exact ih h

namespace Lobby

variable {σ : Type} {g : Game σ} {limits : Limits} {l l' : Lobby σ} {id : RoomId}

/-! ## Every moment of a run -/

theorem Bounded.manned (h : Bounded limits l) : Manned l := by
  obtain h | h := h
  · cases hmanager : l.manager with
    | running => exact .inl hmanager
    | gone => exact .inr (h.closed (.inr hmanager))
    | crashed => exact absurd hmanager h.manager
  · exact .inr h.registry

theorem Manned.wane (h : Manned l) (hw : Wanes l l') : Manned l' :=
  h.imp hw.manager.trans hw.registry.nil

theorem Manned.giveBack (h : Manned l) (g : Game σ) (ticket : Ticket) :
    Manned (l.giveBack g ticket) := by
  have hfree : Manned (l.free ticket) := h
  obtain ⟨-, hg⟩ | ⟨a, -, ⟨hrunning, hg⟩ | ⟨-, hg⟩⟩ := giveBack_cases g ticket l
  · rw [hg]
    exact h
  · rw [hg]
    cases hremove : (l.free ticket).registry.removeMember a.room a.conn with
    | none =>
      rw [vacate_eq_self g hremove]
      exact hfree
    | some p =>
      rw [vacate_eq g hremove]
      exact .inl ((command_wanes g a.room (.leave a.conn) _).manager.trans hrunning)
  · rw [hg]
    exact hfree.wane (abandonRooms_wanes _)

theorem Bounded.act_manned (h : Bounded limits l) (g : Game σ) (op : Operation) :
    Manned (l.act g op) := by
  cases op with
  | joinInVain conn room buffer => exact (h.join g conn room buffer).manned.giveBack g l.nextTicket
  | release ticket => exact h.manned.giveBack g ticket
  | advance ms => exact h.manned
  | join conn room buffer => exact (h.perform g (.join conn room buffer)).manned
  | send a sender bytes => exact (h.perform g (.send a sender bytes)).manned
  | receive ticket => exact (h.perform g (.receive ticket)).manned
  | dropMailbox ticket => exact (h.perform g (.dropMailbox ticket)).manned
  | shutdownRoom room reason => exact (h.perform g (.shutdownRoom room reason)).manned
  | shutdown reason => exact (h.perform g (.shutdown reason)).manned
  | dismiss => exact (h.perform g .dismiss).manned

theorem timed_start (h : start limits = .ok l) : Timed l fun _ => none := by
  obtain ⟨rfl, -⟩ := start_eq h
  exact ⟨Registry.sound_empty _ _, List.forall_mem_nil _, by rintro _ _ ⟨⟩⟩

theorem Way.limits_eq {ms : List (Lobby σ)} (hw : Way l ms l') : l'.limits = l.limits := by
  induction hw with
  | done => rfl
  | move hm _ ih =>
    refine ih.trans ?_
    cases hm with
    | change hs => exact hs.limits
    | vacate _ _ hlimits => exact hlimits
    | pass _ hlimits => exact hlimits

/-- Timers and clock of a lobby, in terms of what happened before. -/
structure Paced (limits : Limits) (l : Lobby σ) (moments : List (Lobby σ)) : Prop where
  limits : l.limits = limits
  waits : Waits l
  timed : Timed l (emptySince · moments)
  vacant : ∀ id t, emptySince id moments = some t → l.isVacant id = true

theorem Paced.act {moments : List (Lobby σ)} (h : Paced limits l moments)
    (hbounded : Bounded limits l) (g : Game σ) (op : Operation) :
    Timed (l.act g op) (emptySince · (moments ++ l.stages g op)) := by
  have hway := h.timed.way (hbounded.stages_way g op)
  simp only [emptySince_append]
  exact hway

theorem Paced.perform {moments : List (Lobby σ)} (h : Paced limits l moments)
    (hbounded : Bounded limits l) (g : Game σ) (op : Operation) :
    Paced limits (l.perform g op) (moments ++ (l.stages g op ++ [l.perform g op])) := by
  have hring := (h.act hbounded g op).ring (hbounded.act_manned g op) g
  have hlimits := (expireDue_wanes g (l.act g op)).limits.trans (hbounded.stages_way g op).limits_eq
  rw [← hbounded.perform_eq h.waits g op] at hring hlimits
  refine ⟨hlimits.trans h.limits, hbounded.perform_waits h.waits g op, ?_, ?_⟩
  · simp only [← List.append_assoc, emptySince_concat]
    exact hring
  · intro id t hsince
    rw [← List.append_assoc, emptySince_concat, note] at hsince
    split at hsince
    · assumption
    · cases hsince

theorem run_paced (h : start limits = .ok l) (g : Game σ) (ops : List Operation) :
    Paced limits (l.run g ops) (l.history g ops) := by
  induction ops using List.reverseRecOn with
  | nil =>
    refine ⟨?_, waits_start h, timed_start h, by rintro _ _ ⟨⟩⟩
    obtain ⟨rfl, -⟩ := start_eq h
    rfl
  | append_singleton ops op ih =>
    rw [run_concat, history_concat]
    exact ih.perform (Bounded.run (.inl (sound_start h)) g ops) g op

/-! ## Rooms without members -/

theorem step_of_members_nil {r r' : Room σ} {c : Command} (hr : r.members = [])
    (hc : ∀ conn ticket, c ≠ .join conn ticket) (h : (r.step g c).1 = some r') : r' = r := by
  cases c with
  | join conn ticket => exact absurd rfl (hc conn ticket)
  | leave conn =>
    simp only [Room.step, hr, List.lookup_nil] at h
    exact (Option.some.inj h).symm
  | frame sender bytes =>
    simp only [Room.step, hr, List.lookup_nil, Option.isNone_none, if_true] at h
    exact (Option.some.inj h).symm
  | close reason => cases h

/-- The room, as long as it runs, is this one. -/
def Rests (id : RoomId) (r : Room σ) (l : Lobby σ) : Prop :=
  ∀ r', l.rooms.lookup id = some r' → r' = r

variable {r : Room σ}

theorem command_lookup (hr : l.rooms.lookup id = some r) (g : Game σ) (c : Command) :
    (command g id c l).rooms.lookup id = (r.step g c).1 := by
  obtain ⟨hnone, -⟩ | ⟨r₁, r', ms, hr₁, hstep, hc⟩ | ⟨r₁, ms, hr₁, hstep, hc⟩ :=
    command_cases g id c l
  · rw [hr] at hnone
    cases hnone
  · rw [hr] at hr₁
    cases hr₁
    rw [hc, hstep, lookup_set, if_pos rfl, hr]
    rfl
  · rw [hr] at hr₁
    cases hr₁
    rw [hc, hstep, lookup_drop, if_pos rfl]

theorem Rests.command (h : Rests id r l) (hr : r.members = []) (g : Game σ) {room : RoomId}
    {c : Command} (hc : ∀ conn ticket, c = .join conn ticket → room ≠ id) :
    Rests id r (command g room c l) := by
  intro r' hr'
  by_cases hroom : room = id
  · subst hroom
    have hjoin : ∀ conn ticket, c ≠ .join conn ticket :=
      fun conn ticket heq => hc conn ticket heq rfl
    cases hrun : l.rooms.lookup room with
    | none =>
      unfold Lobby.command at hr'
      simp only [hrun] at hr'
      cases hr'
    | some r₀ =>
      obtain rfl := h r₀ hrun
      rw [command_lookup hrun] at hr'
      exact step_of_members_nil hr hjoin hr'
  · rw [(command_elsewhere g room c l).rooms id (Ne.symm hroom)] at hr'
    exact h r' hr'

theorem Rests.abandonRooms (h : Rests id r l) : Rests id r l.abandonRooms := by
  obtain ⟨ms, hms⟩ := abandonRooms_eq l
  intro r' hr'
  rw [hms] at hr'
  exact h r' (lookup_filter_some (p := fun x => l.held.any (·.room == x)) hr')

theorem Rests.expire (h : Rests id r l) (hr : r.members = []) (g : Game σ) (t : Timer) :
    Rests id r (expire g l t) := by
  unfold Lobby.expire
  split
  · exact Rests.command (l := { l with registry := l.registry.remove t.room }) h hr g
      fun _ _ => Command.noConfusion
  · exact h

theorem Rests.expireDue (h : Rests id r l) (hr : r.members = []) (g : Game σ) :
    Rests id r (expireDue g l) := by
  have hwaiting : Rests id r { l with timers := l.timers.filter fun t => ¬ t.due ≤ l.now } := h
  exact List.foldlRecOn _ _ hwaiting fun l h t _ => h.expire hr g t

theorem Rests.giveBack (h : Rests id r l) (hr : r.members = []) (g : Game σ) (ticket : Ticket) :
    Rests id r (l.giveBack g ticket) := by
  have hfree : Rests id r (l.free ticket) := h
  obtain ⟨-, hg⟩ | ⟨a, -, ⟨-, hg⟩ | ⟨-, hg⟩⟩ := giveBack_cases g ticket l
  · rw [hg]
    exact h
  · rw [hg]
    cases hremove : (l.free ticket).registry.removeMember a.room a.conn with
    | none =>
      rw [vacate_eq_self g hremove]
      exact hfree
    | some p =>
      have hstruck : Rests id r { l.free ticket with registry := p.2 } := h
      rw [vacate_eq g hremove]
      exact hstruck.command hr g fun _ _ => Command.noConfusion
  · rw [hg]
    exact hfree.abandonRooms

theorem Rests.closeAll (h : Rests id r l) (hr : r.members = []) (g : Game σ) (reason : String) :
    Rests id r (closeAll g reason l) := by
  have hstruck : Rests id r { l with registry := { l.registry with rooms := [] } } := h
  exact List.foldlRecOn _ _ hstruck fun l h room _ =>
    h.command hr g fun _ _ => Command.noConfusion

/-- The operation lets a connection into the room. -/
def Enters (g : Game σ) (l : Lobby σ) (id : RoomId) : Operation → Prop
  | .join conn room buffer | .joinInVain conn room buffer =>
    (l.join g conn room buffer).2.1 = .ok id
  | _ => False

theorem Bounded.join_rests (h : Bounded limits l) (hr : r.members = []) (hrests : Rests id r l)
    {conn : ConnId} {requested : Option RoomId} {buffer : Nat}
    (hother : (l.join g conn requested buffer).2.1 ≠ .ok id) :
    Rests id r (l.join g conn requested buffer).2.2 := by
  have hopened : Rests id r (l.openMailbox buffer).2 := hrests
  obtain ⟨e, hj⟩ | ⟨room, l', -, hl', hj⟩ | hj := h.join_cases g conn requested buffer
  · rw [hj]
    exact hopened
  · rw [hj] at hother ⊢
    have hne : room ≠ id := by
      rintro rfl
      exact hother rfl
    have hrests' : Rests id r l' := by
      obtain rfl | hcreate := hl'
      · exact hrests
      · obtain ⟨registry, state, -, -, rfl⟩ := createRoom_eq_some hcreate
        intro r' hr'
        rw [List.lookup_append, lookup_cons_ne (Ne.symm hne), List.lookup_nil,
          Option.or_none] at hr'
        exact hrests r' hr'
    exact Rests.command (l := { l' with
      registry := l'.registry.addMember room conn
      held := ⟨l.nextTicket, room, conn⟩ :: l'.held }) hrests' hr g fun _ _ _ => hne
  · rw [hj]
    have hcrash : Rests id r (l.openMailbox buffer).2.crash := Rests.abandonRooms hopened
    exact hcrash

theorem Outcome.rests {op : Operation} (ho : Outcome g l op l') (h : Bounded limits l)
    (hw : Waits l) (hr : r.members = []) (hrests : Rests id r l) (hop : ¬ Enters g l id op) :
    Rests id r l' := by
  cases ho with
  | join conn room buffer => exact h.join_rests hr hrests hop
  | joinInVain conn room buffer =>
    rw [Waits.release_eq ((h.join_change g conn room buffer).1.waits hw)]
    exact ((h.join_rests hr hrests hop).giveBack hr g l.nextTicket).expireDue hr g
  | release ticket =>
    rw [hw.release_eq]
    exact (hrests.giveBack hr g ticket).expireDue hr g
  | frame a sender bytes => exact hrests.command hr g fun _ _ => Command.noConfusion
  | closeRoom room reason =>
    exact Rests.command (l := { l with registry := l.registry.remove room }) hrests hr g
      fun _ _ => Command.noConfusion
  | shutdown reason => exact Rests.closeAll (l := { l with shuttingDown := true }) hrests hr g reason
  | advance ms => exact Rests.expireDue (l := { l with now := l.now + ms }) hrests hr g
  | dismiss => exact hrests.closeAll hr g "server stopped"
  | queues ms => exact hrests

/-- Nobody enters the room in the course of the operations. -/
def Unentered (g : Game σ) (l : Lobby σ) (id : RoomId) (ops : List Operation) : Prop :=
  ∀ before op after, ops = before ++ op :: after → ¬ Enters g (l.run g before) id op

theorem Bounded.run_rests (h : Bounded limits l) (hw : Waits l) (hr : r.members = [])
    (hrests : Rests id r l) {ops : List Operation} (hops : Unentered g l id ops) :
    Rests id r (l.run g ops) := by
  induction ops generalizing l with
  | nil => exact hrests
  | cons op ops ih =>
    refine ih (h.perform g op) (h.perform_waits hw g op) ?_ ?_
    · exact (perform_outcome g l op).rests h hw hr hrests (hops [] op ops rfl)
    · rintro before op' after rfl
      exact hops (op :: before) op' after rfl

/-! ## Timers set before -/

theorem Moves.sound_ages (h : l.registry.Sound) (hm : Moves l l') :
    l'.registry.Sound ∧ l.registry.Ages l'.registry := by
  cases hm with
  | change hs hc => exact ⟨hc.sound h, hc.ages h.toOrdered⟩
  | vacate hremove hs =>
    have hsound := Registry.sound_removeMember h hremove
    exact ⟨hsound.shrink hs, (Registry.ages_removeMember hremove).trans (hs.ages hsound.toOrdered)⟩
  | pass hregistry =>
    rw [hregistry]
    exact ⟨h, (Registry.Shrinks.refl _).ages h.toOrdered⟩

variable {t : Timer}

theorem Outdated.way {ms : List (Lobby σ)} (ho : Outdated t l) (h : l.registry.Sound)
    (hw : Way l ms l') :
    (∀ m ∈ ms, Outdated t m ∧ m.registry.Sound) ∧ Outdated t l' ∧ l'.registry.Sound := by
  induction hw with
  | done l => exact ⟨List.forall_mem_nil _, ho, h⟩
  | move hm _ ih =>
    obtain ⟨hsound, hages⟩ := hm.sound_ages h
    obtain ⟨hall, hlast⟩ := ih (ho.ages hages) hsound
    exact ⟨List.forall_mem_cons.mpr ⟨⟨ho.ages hages, hsound⟩, hall⟩, hlast⟩

theorem Outdated.history (ho : Outdated t l) (hsound : l.registry.Sound) (h : Bounded limits l)
    (hw : Waits l) (g : Game σ) (ops : List Operation) :
    ∀ m ∈ l.history g ops, Outdated t m ∧ m.registry.Sound := by
  induction ops generalizing l with
  | nil => exact List.forall_mem_nil _
  | cons op ops ih =>
    -- through the moves of the operation, and through the timers that go off after them
    obtain ⟨hstages, hact, hsoundAct⟩ := ho.way hsound (h.stages_way g op)
    have hrung := (expireDue_wanes g (l.act g op)).registry
    have hdone : Outdated t (l.perform g op) ∧ (l.perform g op).registry.Sound := by
      rw [h.perform_eq hw g op]
      exact ⟨hact.ages (hrung.ages hsoundAct.toOrdered), hsoundAct.shrink hrung⟩
    have hrest := ih hdone.1 hdone.2 (h.perform g op) (h.perform_waits hw g op)
    rw [Lobby.history]
    exact List.forall_mem_append.mpr ⟨hstages, List.forall_mem_cons.mpr ⟨hdone, hrest⟩⟩

/-- Whichever timers go off first, this one then does nothing. -/
def Spent (g : Game σ) (t : Timer) (l : Lobby σ) : Prop :=
  ∀ (first waiting : List Timer), expire g (first.foldl (expire g) { l with timers := waiting }) t =
    first.foldl (expire g) { l with timers := waiting }

theorem Outdated.spent (ho : Outdated t l) (h : l.registry.Sound) (g : Game σ) :
    Spent g t l := by
  intro first waiting
  have hw := foldl_wanes (expire_wanes g) first { l with timers := waiting }
  have hbefore : Outdated t { l with timers := waiting } := ho
  exact (hbefore.ages (hw.registry.ages h.toOrdered)).expire g

theorem Bounded.join_ok (h : Bounded limits l) {conn : ConnId} {requested : Option RoomId}
    {buffer : Nat} (hok : (l.join g conn requested buffer).2.1 = .ok id) :
    ∃ l', Ready limits id l' ∧
      (l' = (l.openMailbox buffer).2 ∨ (l.openMailbox buffer).2.createRoom g = some (id, l')) ∧
      (l.join g conn requested buffer).2.2 = l'.enter g id conn l.nextTicket := by
  obtain ⟨e, hj⟩ | ⟨room, l', hready, hl', hj⟩ | hj := h.join_cases g conn requested buffer
  · rw [hj] at hok
    cases hok
  · rw [hj] at hok ⊢
    cases hok
    exact ⟨l', hready, hl', rfl⟩
  · rw [hj] at hok
    cases hok

theorem Paced.outdated_join {moments : List (Lobby σ)} (h : Paced limits l moments)
    (hbounded : Bounded limits l) {conn : ConnId} {requested : Option RoomId} {buffer : Nat}
    (hok : (l.join g conn requested buffer).2.1 = .ok id) (ht : t ∈ l.timers)
    (hroom : t.room = id) : Outdated t (l.join g conn requested buffer).2.2 := by
  obtain ⟨hstill, hchange⟩ := hbounded.join_change g conn requested buffer
  obtain ⟨l', hready, -, hjoin⟩ := hbounded.join_ok hok
  have htimed := h.timed.change hstill hchange
  have ht' : t ∈ (l.join g conn requested buffer).2.2.timers := hstill.timers ▸ ht
  obtain ⟨hlt, hle⟩ := htimed.aged t ht'
  refine ⟨hlt, fun e he => Nat.lt_of_le_of_ne (hle e he) fun hgeneration => ?_⟩
  -- the room is not empty now, so no timer of its generation is left
  have hmember : conn ∈ e.members := by
    refine (hready.granted g conn l.nextTicket).member e ?_
    rw [← hjoin, ← hroom, he]
  have hmem := mem_pending.mpr ⟨ht', rfl, hgeneration⟩
  rw [(htimed.entries t.room e he).pending_eq_nil (List.ne_nil_of_mem hmember)] at hmem
  cases hmem

theorem Bounded.join_lookup (h : Bounded limits l) {conn : ConnId} {requested : Option RoomId}
    {buffer : Nat} (hok : (l.join g conn requested buffer).2.1 = .ok id)
    (hr : l.rooms.lookup id = some r) :
    (l.join g conn requested buffer).2.2.rooms.lookup id = (r.step g (.join conn l.nextTicket)).1 := by
  obtain ⟨l', -, hl', hjoin⟩ := h.join_ok hok
  have hr' : l'.rooms.lookup id = some r := by
    obtain rfl | hcreate := hl'
    · exact hr
    · obtain ⟨registry, state, -, -, rfl⟩ := createRoom_eq_some hcreate
      have hopened : (l.openMailbox buffer).2.rooms.lookup id = some r := hr
      rw [List.lookup_append, hopened, Option.some_or]
  rw [hjoin]
  exact command_lookup (l := { l' with
    registry := l'.registry.addMember id conn
    held := ⟨l.nextTicket, id, conn⟩ :: l'.held }) hr' g (.join conn l.nextTicket)

/-! ## Grace periods -/

/-- The timers of every room are set for the end of its grace period. -/
structure Scheduled (grace : Nat) (since : RoomId → Option Nat) (l : Lobby σ) : Prop where
  closing_iff : ∀ id e, l.registry.rooms.lookup id = some e →
    (e.state = .closing ↔ (since id).isSome = true)
  pending : ∀ id e, l.registry.rooms.lookup id = some e →
    l.pending id e.generation = ((since id).map fun t => ⟨t + grace, id, e.generation⟩).toList
  later : ∀ id t, since id = some t → l.now < t + grace

theorem isVacant_iff :
    l.isVacant id = true ↔ ∃ e, l.registry.rooms.lookup id = some e ∧ e.members = [] := by
  unfold isVacant
  split
  · rename_i e he
    simp [he]
  · rename_i hnone
    simp [hnone]

theorem Paced.scheduled {moments : List (Lobby σ)} (h : Paced limits l moments) :
    Scheduled limits.grace (emptySince · moments) l := by
  have hpending : ∀ id e, l.registry.rooms.lookup id = some e → l.pending id e.generation =
      ((emptySince id moments).map fun t => ⟨t + limits.grace, id, e.generation⟩).toList := by
    intro id e he
    rw [(h.timed.entries id e he).pending, h.limits]
  refine ⟨?_, hpending, ?_⟩
  · intro id e he
    rw [closing_iff_nil (h.timed.registry.entry he), (h.timed.entries id e he).empty_iff]
  · intro id t hsince
    obtain ⟨e, he, -⟩ := isVacant_iff.mp (h.vacant id t hsince)
    have hmem : ⟨t + limits.grace, id, e.generation⟩ ∈ l.pending id e.generation := by
      rw [hpending id e he, hsince]
      exact List.mem_singleton_self _
    exact h.waits _ (mem_pending.mp hmem).1

/-- The timers go off at the end of an operation that began at the time `before`. A room goes if it
has been empty for the grace period by then, and no other room does. -/
structure Rings (grace before : Nat) (since : RoomId → Option Nat) (l l' : Lobby σ) : Prop where
  gone_iff : ∀ id e, l.registry.rooms.lookup id = some e →
    (l'.registry.rooms.lookup id = none ↔ ∃ t, since id = some t ∧ t + grace ≤ l.now)
  gone : ∀ id e, l.registry.rooms.lookup id = some e → l'.registry.rooms.lookup id = none →
    l'.rooms.lookup id = none
  stays : ∀ id e, l.registry.rooms.lookup id = some e → l'.registry.rooms.lookup id ≠ none →
    l'.registry.rooms.lookup id = some e ∧ l'.rooms.lookup id = l.rooms.lookup id
  /-- The room became empty just now, or its time had not come before. -/
  in_time : ∀ id t, since id = some t → t = l.now ∨ before < t + grace

theorem foldl_note_some {ms : List (Lobby σ)} {since : Option Nat} {t : Nat}
    (h : ms.foldl (note id) since = some t) : since = some t ∨ ∃ m ∈ ms, t = m.now := by
  induction ms generalizing since with
  | nil => exact .inl h
  | cons m ms ih =>
    obtain hnote | ⟨m', hm', ht⟩ := ih h
    · unfold note at hnote
      split at hnote
      · cases hsince : since with
        | none =>
          rw [hsince] at hnote
          cases hnote
          exact .inr ⟨m, List.mem_cons_self, rfl⟩
        | some t' =>
          rw [hsince] at hnote
          exact .inl hnote
      · cases hnote
    · exact .inr ⟨m', List.mem_cons_of_mem m hm', ht⟩

theorem giveBack_now (g : Game σ) (ticket : Ticket) (l : Lobby σ) :
    (l.giveBack g ticket).now = l.now := by
  obtain ⟨-, hg⟩ | ⟨a, -, ⟨-, hg⟩ | ⟨-, hg⟩⟩ := giveBack_cases g ticket l
  · rw [hg]
  · rw [hg]
    cases hremove : (l.free ticket).registry.removeMember a.room a.conn with
    | none =>
      rw [vacate_eq_self g hremove]
      rfl
    | some p =>
      rw [vacate_eq g hremove]
      exact (command_still g a.room (.leave a.conn) _).now
  · rw [hg]
    exact (abandonRooms_still _).now

theorem stages_now (g : Game σ) (l : Lobby σ) (op : Operation) :
    ∀ m ∈ l.stages g op, m.now = (l.act g op).now := by
  cases op with
  | joinInVain conn room buffer =>
    have hback := giveBack_now g l.nextTicket (l.join g conn room buffer).2.2
    exact List.forall_mem_cons.mpr ⟨hback.symm, List.forall_mem_singleton.mpr rfl⟩
  | _ => exact List.forall_mem_singleton.mpr rfl

theorem Paced.rings {moments : List (Lobby σ)} (h : Paced limits l moments)
    (hbounded : Bounded limits l) (g : Game σ) (op : Operation) :
    Rings limits.grace l.now (emptySince · (moments ++ l.stages g op)) (l.act g op)
      (l.perform g op) := by
  have hact := h.act hbounded g op
  have hlimits := (hbounded.stages_way g op).limits_eq.trans h.limits
  rw [hbounded.perform_eq h.waits g op]
  have hring := fun (id : RoomId) (e : Entry)
      (he : (l.act g op).registry.rooms.lookup id = some e) =>
    hact.ring_lookup (hbounded.act_manned g op) g he
  simp only [IsUp, hlimits, Option.mem_def] at hring
  refine ⟨?_, ?_, ?_, ?_⟩
  · intro id e he
    obtain ⟨hup, hgone, -⟩ | ⟨hlater, hstays, -⟩ := hring id e he
    · exact iff_of_true hgone hup
    · exact iff_of_false (by simp [hstays]) hlater
  · intro id e he hnone
    obtain ⟨-, -, hgone⟩ | ⟨-, hstays, -⟩ := hring id e he
    · exact hgone
    · rw [hstays] at hnone
      cases hnone
  · intro id e he hlive
    obtain ⟨-, hgone, -⟩ | ⟨-, hstays⟩ := hring id e he
    · exact absurd hgone hlive
    · exact hstays
  · intro id t hsince
    rw [emptySince_append] at hsince
    obtain hbefore | ⟨m, hm, hnow⟩ := foldl_note_some hsince
    · exact .inr (h.scheduled.later id t hbefore)
    · exact .inl (hnow.trans (stages_now g l op m hm))

/-- A room that is entered goes on from where it was, and the timers set for it before are spent. -/
structure Reentered (g : Game σ) (conn : ConnId) (id : RoomId) (r : Room σ) (l l' : Lobby σ) :
    Prop where
  room : l'.rooms.lookup id = (r.step g (.join conn l.nextTicket)).1
  spent : ∀ t ∈ l.timers, t.room = id → ∀ ops, ∀ m ∈ l' :: l'.history g ops, Spent g t m

theorem Paced.reentered {moments : List (Lobby σ)} (h : Paced limits l moments)
    (hbounded : Bounded limits l) {conn : ConnId} {requested : Option RoomId} {buffer : Nat}
    (hok : (l.join g conn requested buffer).2.1 = .ok id) (hr : l.rooms.lookup id = some r) :
    Reentered g conn id r l (l.join g conn requested buffer).2.2 := by
  obtain ⟨hstill, hchange⟩ := hbounded.join_change g conn requested buffer
  refine ⟨hbounded.join_lookup hok hr, fun t ht hroom ops => ?_⟩
  have ho := h.outdated_join hbounded hok ht hroom
  have hsound := hchange.sound h.timed.registry
  have hlater := ho.history hsound (hbounded.join g conn requested buffer) (hstill.waits h.waits) g
    ops
  refine List.forall_mem_cons.mpr ⟨ho.spent hsound g, fun m hm => ?_⟩
  obtain ⟨hm, hsoundM⟩ := hlater m hm
  exact hm.spent hsoundM g

/-- Empty rooms go when they have been empty for the grace period, to the operation. Until then one
timer is set for each of them, nothing happens in them, and if they are entered again they go on. -/
theorem run_grace (h : start limits = .ok l) (g : Game σ) (ops : List Operation) :
    Scheduled limits.grace (emptySince · (l.history g ops)) (l.run g ops) ∧
      (∀ op, (l.run g ops).perform g op = expireDue g ((l.run g ops).act g op) ∧
        Rings limits.grace (l.run g ops).now
          (emptySince · (l.history g ops ++ (l.run g ops).stages g op))
          ((l.run g ops).act g op) ((l.run g ops).perform g op)) ∧
      ∀ id r, (l.run g ops).rooms.lookup id = some r →
        ((l.run g ops).isVacant id = true → ∀ later, Unentered g (l.run g ops) id later →
          Rests id r ((l.run g ops).run g later)) ∧
        ∀ conn requested buffer, ((l.run g ops).join g conn requested buffer).2.1 = .ok id →
          Reentered g conn id r (l.run g ops) ((l.run g ops).join g conn requested buffer).2.2 := by
  have hpaced := run_paced h g ops
  have hbounded := Bounded.run (.inl (sound_start h)) g ops
  refine ⟨hpaced.scheduled, fun op => ⟨hbounded.perform_eq hpaced.waits g op,
    hpaced.rings hbounded g op⟩, fun id r hr => ⟨?_, ?_⟩⟩
  · intro hvacant later hlater
    obtain ⟨e, he, hempty⟩ := isVacant_iff.mp hvacant
    have hnobody : r.members = [] := by
      obtain hsound | hcrashed := hbounded
      · obtain ⟨r', hr', hmembers⟩ := hsound.agrees.lookup_some he
        rw [hr] at hr'
        cases hr'
        rw [hempty] at hmembers
        exact List.map_eq_nil_iff.mp hmembers
      · rw [hcrashed.registry] at he
        cases he
    refine hbounded.run_rests hpaced.waits hnobody ?_ hlater
    intro r' hr'
    exact Option.some.inj (hr'.symm.trans hr)
  · exact fun conn requested buffer hok => hpaced.reentered hbounded hok hr

/-! A room that is empty for five milliseconds. -/

def graceLimits : Limits := { maxRooms := 1, maxMembers := 2, grace := 5 }

def graceRun : List Operation := [.join 7 none 4, .release 0, .advance 3]

theorem run_grace_graceRun :
    start graceLimits = .ok (ofLimits (σ := Unit) graceLimits) ∧
      ((ofLimits graceLimits).run quietGame graceRun).pending 1 1 = [⟨5, 1, 1⟩] ∧
      (((ofLimits graceLimits).run quietGame graceRun).perform quietGame
        (.advance 1)).registry.rooms.lookup 1 ≠ none ∧
      (((ofLimits graceLimits).run quietGame graceRun).perform quietGame
        (.advance 2)).registry.rooms.lookup 1 = none := by
  have hstart : start graceLimits = .ok (ofLimits (σ := Unit) graceLimits) := rfl
  obtain ⟨hscheduled, hrings, -⟩ := run_grace hstart quietGame graceRun
  have hentry : ((ofLimits graceLimits).run quietGame graceRun).registry.rooms.lookup 1 =
      some ⟨.closing, [], 1⟩ := by cbv
  have hsince : emptySince 1 ((ofLimits graceLimits).history quietGame graceRun) = some 0 := by cbv
  refine ⟨hstart, ?_, ?_, ?_⟩
  · have hpending := hscheduled.pending 1 _ hentry
    simp only [hsince] at hpending
    exact hpending
  · intro hgone
    obtain ⟨t, ht, hle⟩ := ((hrings (.advance 1)).2.gone_iff 1 ⟨.closing, [], 1⟩ (by cbv)).mp hgone
    have hsince' : emptySince 1 ((ofLimits graceLimits).history quietGame graceRun ++
        stages quietGame ((ofLimits graceLimits).run quietGame graceRun) (.advance 1)) = some 0 := by
      cbv
    have hnow : (act quietGame ((ofLimits graceLimits).run quietGame graceRun)
        (.advance 1)).now = 4 := by cbv
    rw [hnow, ← Option.some.inj (hsince'.symm.trans ht)] at hle
    exact absurd hle (by decide)
  · have hnow : (act quietGame ((ofLimits graceLimits).run quietGame graceRun)
        (.advance 2)).now = 5 := by cbv
    refine ((hrings (.advance 2)).2.gone_iff 1 ⟨.closing, [], 1⟩ (by cbv)).mpr ⟨0, by cbv, ?_⟩
    rw [hnow]
    decide

end Lobby

end Gamewire
