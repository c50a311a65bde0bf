import Gamewire.Proofs.Room.Tickets

/-! What commands do to queues. A room touches the queues of its own members only, and what comes of a
command is up to the rules it was put to: they go on and frames are delivered, they fail and everybody
gets a notice, or they crash and all queues are let go of. -/
namespace Gamewire
set_option autoImplicit false

/-! ## Effects on one queue -/

namespace Effect

def ticket : Effect → Ticket
  | deliver ticket _ | close ticket _ | disconnect ticket => ticket

/-- What an effect makes of the queue it is for. -/
def act : Effect → Mailbox → Mailbox
  | deliver _ frame => Mailbox.deliver frame
  | close _ reason => Mailbox.close reason
  | disconnect _ => Mailbox.disconnect

end Effect

namespace Mailbox

/-- What effects make of the queue of a ticket. -/
def after (ticket : Ticket) (es : List Effect) (q : Mailbox) : Mailbox :=
  es.foldl (fun q e => if e.ticket = ticket then e.act q else q) q

variable {ticket : Ticket} {es : List Effect} {q : Mailbox}

theorem after_cons (ticket : Ticket) (e : Effect) (es : List Effect) (q : Mailbox) :
    after ticket (e :: es) q = after ticket es (if e.ticket = ticket then e.act q else q) := rfl

theorem after_append (ticket : Ticket) (es es' : List Effect) (q : Mailbox) :
    after ticket (es ++ es') q = after ticket es' (after ticket es q) := List.foldl_append

theorem after_of_ne (h : ∀ e ∈ es, e.ticket ≠ ticket) : after ticket es q = q := by
  induction es generalizing q with
  | nil => rfl
  | cons e es ih =>
    rw [after_cons, if_neg (h e List.mem_cons_self)]
    exact ih fun e' he' => h e' (List.mem_cons_of_mem e he')

theorem after_close (ticket : Ticket) (reason : String) (ms : List (ConnId × Ticket))
    (q : Mailbox) : after ticket (ms.map fun m => .close m.2 reason) q =
      if ticket ∈ ms.map (·.2) then q.close reason else q := by
  induction ms generalizing q with
  | nil => rfl
  | cons m ms ih =>
    rw [List.map_cons, after_cons, ih, List.map_cons]
    by_cases hm : m.2 = ticket
    · have hmem : ticket ∈ m.2 :: ms.map (·.2) := by rw [hm]; exact List.mem_cons_self
      rw [if_pos hmem, show (Effect.close m.2 reason).ticket = ticket from hm, if_pos rfl]
      split <;> rfl
    · rw [if_neg (show (Effect.close m.2 reason).ticket ≠ ticket from hm)]
      simp only [List.mem_cons, Ne.symm hm, false_or]

theorem after_disconnect (ticket : Ticket) (tickets : List Ticket) (q : Mailbox) :
    after ticket (tickets.map Effect.disconnect) q =
      if ticket ∈ tickets then q.disconnect else q := by
  induction tickets generalizing q with
  | nil => rfl
  | cons t tickets ih =>
    rw [List.map_cons, after_cons, ih]
    by_cases ht : t = ticket
    · have hmem : ticket ∈ t :: tickets := by rw [ht]; exact List.mem_cons_self
      rw [if_pos (show (Effect.disconnect t).ticket = ticket from ht), if_pos hmem]
      split <;> rfl
    · rw [if_neg (show (Effect.disconnect t).ticket ≠ ticket from ht)]
      simp only [List.mem_cons, Ne.symm ht, false_or]

/-- Only a notice of its own makes a queue tell of a notice. -/
theorem notice_after (h : ∀ reason, .close ticket reason ∉ es) :
    (after ticket es q).notice = q.notice := by
  induction es generalizing q with
  | nil => rfl
  | cons e es ih =>
    rw [after_cons, ih fun reason hmem => h reason (List.mem_cons_of_mem e hmem)]
    split
    · rename_i he
      cases e with
      | deliver t frame =>
        simp only [Effect.act, deliver]
        split <;> rfl
      | close t reason =>
        cases he
        exact absurd List.mem_cons_self (h reason)
      | disconnect t => rfl
    · rfl

/-- A queue that gets nothing but frames stays connected. -/
theorem connected_after (h : ∀ e ∈ es, e.ticket = ticket → ∃ frame, e = .deliver ticket frame) :
    (after ticket es q).connected = q.connected := by
  induction es generalizing q with
  | nil => rfl
  | cons e es ih =>
    rw [after_cons, ih fun e' he' => h e' (List.mem_cons_of_mem e he')]
    split
    · rename_i he
      obtain ⟨frame, rfl⟩ := h e List.mem_cons_self he
      simp only [Effect.act, deliver]
      split <;> rfl
    · rfl

theorem mem_frames_after {frame : List UInt8} (h : frame ∈ (after ticket es q).frames) :
    frame ∈ q.frames ∨ .deliver ticket frame ∈ es := by
  induction es generalizing q with
  | nil => exact .inl h
  | cons e es ih =>
    rw [after_cons] at h
    obtain hfirst | hrest := ih h
    · split at hfirst
      · rename_i he
        cases e with
        | deliver t f =>
          cases he
          simp only [Effect.act, deliver] at hfirst
          split at hfirst
          · obtain hold | hnew := List.mem_append.mp hfirst
            · exact .inl hold
            · rw [List.mem_singleton.mp hnew]
              exact .inr List.mem_cons_self
          · exact .inl hfirst
        | close t reason => exact .inl hfirst
        | disconnect t => exact .inl hfirst
      · exact .inl hfirst
    · exact .inr (List.mem_cons_of_mem e hrest)

end Mailbox

/-! ## What a room does to queues -/

namespace Room

variable {σ : Type} {g : Game σ} {r : Room σ} {c : Command}

/-- A room with the members that the rules see when they are asked about a command. -/
def gathered (r : Room σ) : Command → Room σ
  | .join conn ticket => { r with members := insertMember conn ticket r.members }
  | .leave conn => { r with members := r.members.filter (·.1 != conn) }
  | .frame _ _ | .close _ => r

/-- The tickets of the members that a command takes out of a room. -/
def parting (r : Room σ) : Command → List Ticket
  | .join conn _ | .leave conn => (r.members.lookup conn).toList
  | .frame _ _ | .close _ => []

/-- What the rules say to a command, if they are asked. -/
def verdict? (g : Game σ) (r : Room σ) (c : Command) : Option (Verdict σ) :=
  let view := (r.gathered c).view g
  match c with
  | .join conn _ => some (g.logic.onJoin r.state view conn)
  | .leave conn =>
    if conn ∈ r.connections then some (g.logic.onLeave r.state view conn) else none
  | .frame sender bytes =>
    if sender ∈ r.connections then
      (clientMessage? g.protocol bytes).map (g.logic.onMessage r.state view sender)
    else none
  | .close _ => none

theorem lookup_isSome_of_mem {conn : ConnId} (h : conn ∈ r.connections) :
    ∃ ticket, r.members.lookup conn = some ticket := by
  cases hlookup : r.members.lookup conn with
  | none => exact absurd h (lookup_eq_none_iff.mp hlookup)
  | some ticket => exact ⟨ticket, rfl⟩

/-- Rules that are asked decide what becomes of the room and its queues. -/
theorem step_of_verdict {v : Verdict σ} (hv : r.verdict? g c = some v) :
    r.step g c = (((r.gathered c).settle g v).1,
      (r.parting c).map Effect.disconnect ++ ((r.gathered c).settle g v).2) := by
  cases c with
  | join conn ticket =>
    cases hv
    rfl
  | leave conn =>
    simp only [verdict?] at hv
    split at hv
    · rename_i hmember
      cases hv
      obtain ⟨ticket, hticket⟩ := lookup_isSome_of_mem hmember
      simp only [step, hticket, parting, gathered, view, Option.toList_some, List.map_cons,
        List.map_nil, List.cons_append, List.nil_append]
    · cases hv
  | frame sender bytes =>
    simp only [verdict?] at hv
    split at hv
    · rename_i hmember
      obtain ⟨msg, hmsg, rfl⟩ := Option.map_eq_some_iff.mp hv
      obtain ⟨ticket, hticket⟩ := lookup_isSome_of_mem hmember
      simp only [step, hticket, hmsg, parting, gathered, Option.isNone_some, Bool.false_eq_true,
        if_false, List.map_nil, List.nil_append]
    · cases hv
  | close reason => cases hv

/-- A command that is not put to the rules does nothing, unless it ends the room. -/
theorem step_of_unasked (hc : ∀ reason, c ≠ .close reason) (hv : r.verdict? g c = none) :
    r.step g c = (some r, []) := by
  cases c with
  | join conn ticket => cases hv
  | leave conn =>
    simp only [verdict?] at hv
    split at hv
    · cases hv
    · rename_i hmember
      simp only [step, lookup_eq_none_iff.mpr hmember]
  | frame sender bytes =>
    simp only [verdict?] at hv
    split at hv
    · obtain ⟨ticket, hticket⟩ := lookup_isSome_of_mem ‹sender ∈ r.connections›
      simp only [step, hticket, Option.map_eq_none_iff.mp hv, Option.isNone_some,
        Bool.false_eq_true, if_false]
    · rename_i hmember
      simp only [step, lookup_eq_none_iff.mpr hmember, Option.isNone_none, if_true]
  | close reason => exact absurd rfl (hc reason)

/-- A command that the room survives leaves in it those whom the rules see. -/
theorem members_of_step {r' : Room σ} (hr : (r.step g c).1 = some r') :
    r'.members = (r.gathered c).members := by
  cases hv : r.verdict? g c with
  | some v =>
    rw [step_of_verdict hv] at hr
    exact (settle_some hr).2
  | none =>
    cases c with
    | join conn ticket => cases hv
    | close reason => cases hr
    | frame sender bytes =>
      rw [step_of_unasked (fun _ => Command.noConfusion) hv] at hr
      cases hr
      rfl
    | leave conn =>
      rw [step_of_unasked (fun _ => Command.noConfusion) hv] at hr
      cases hr
      have hstranger : conn ∉ r.connections := fun hmember => by
        rw [verdict?, if_pos hmember] at hv
        cases hv
      refine (List.filter_eq_self.mpr fun m hm => bne_iff_ne.mpr fun heq => hstranger ?_).symm
      exact heq ▸ List.mem_map_of_mem hm

/-- What the rules want sent goes in frames to the members that are meant. -/
theorem mem_dispatch {p : Protocol} {members : List (ConnId × Ticket)} {out : Outbound} {e : Effect}
    (h : e ∈ dispatch p members out) : ∃ m ∈ members, ∃ recipient msg frame,
      (recipient, msg) ∈ out ∧ recipient.includes m.1 = true ∧ frameOf? p msg = some frame ∧
        e = .deliver m.2 frame := by
  induction out with
  | nil => cases h
  | cons first out ih =>
    obtain ⟨recipient, msg⟩ := first
    obtain h | h := List.mem_append.mp h
    · split at h
      · rename_i frame hframe
        obtain ⟨m, hm, rfl⟩ := List.mem_map.mp h
        obtain ⟨hm, hmeant⟩ := List.mem_filter.mp hm
        exact ⟨m, hm, recipient, msg, frame, List.mem_cons_self, hmeant, hframe, rfl⟩
      · cases h
    · obtain ⟨m, hm, recipient, msg, frame, hout, hrest⟩ := ih h
      exact ⟨m, hm, recipient, msg, frame, List.mem_cons_of_mem _ hout, hrest⟩

theorem mem_parting {ticket : Ticket} (h : ticket ∈ r.parting c) :
    ticket ∈ r.members.map (·.2) := by
  have hlookup : ∀ conn, ticket ∈ (r.members.lookup conn).toList →
      ticket ∈ r.members.map (·.2) :=
    fun conn h => List.mem_map_of_mem (mem_of_lookup (Option.mem_toList.mp h))
  cases c with
  | join conn t => exact hlookup conn h
  | leave conn => exact hlookup conn h
  | frame sender bytes => cases h
  | close reason => cases h

theorem mem_gathered {m : ConnId × Ticket} (h : m ∈ (r.gathered c).members) :
    m ∈ r.members ∨ c = .join m.1 m.2 := by
  cases c with
  | join conn ticket =>
    obtain rfl | h := mem_insertMember h
    · exact .inr rfl
    · exact .inl h
  | leave conn => exact .inl (List.mem_of_mem_filter h)
  | frame sender bytes => exact .inl h
  | close reason => exact .inl h

/-- What a command does to queues, one effect at a time. -/
theorem mem_step {e : Effect} (h : e ∈ (r.step g c).2) :
    (∃ t ∈ r.parting c, e = .disconnect t) ∨
      ∃ m ∈ (r.gathered c).members,
        (∃ msg frame, frameOf? g.protocol msg = some frame ∧ e = .deliver m.2 frame) ∨
        (∃ text, r.verdict? g c = some (.fault text) ∧ e = .close m.2 faultReason) ∨
        (∃ reason, c = .close reason ∧ e = .close m.2 reason) ∨
        (r.verdict? g c = some .crash ∧ e = .disconnect m.2) := by
  cases hv : r.verdict? g c with
  | none =>
    by_cases hc : ∃ reason, c = .close reason
    · obtain ⟨reason, rfl⟩ := hc
      obtain ⟨m, hm, rfl⟩ := List.mem_map.mp h
      exact .inr ⟨m, hm, .inr (.inr (.inl ⟨reason, rfl, rfl⟩))⟩
    · rw [step_of_unasked (fun reason heq => hc ⟨reason, heq⟩) hv] at h
      cases h
  | some v =>
    rw [step_of_verdict hv] at h
    obtain h | h := List.mem_append.mp h
    · obtain ⟨t, ht, rfl⟩ := List.mem_map.mp h
      exact .inl ⟨t, ht, rfl⟩
    · cases v with
      | proceed state out =>
        obtain ⟨m, hm, -, msg, frame, -, -, hsent⟩ := mem_dispatch h
        exact .inr ⟨m, hm, .inl ⟨msg, frame, hsent⟩⟩
      | fault text =>
        obtain ⟨m, hm, rfl⟩ := List.mem_map.mp h
        exact .inr ⟨m, hm, .inr (.inl ⟨text, rfl, rfl⟩)⟩
      | crash =>
        obtain ⟨m, hm, rfl⟩ := List.mem_map.mp h
        exact .inr ⟨m, hm, .inr (.inr (.inr ⟨rfl, rfl⟩))⟩

/-- A room touches the queues of its members, with the one that comes. -/
theorem ticket_of_mem_step {e : Effect} (h : e ∈ (r.step g c).2) :
    e.ticket ∈ r.members.map (·.2) ∨ ∃ conn, c = .join conn e.ticket := by
  have hgathered : ∀ m ∈ (r.gathered c).members,
      m.2 ∈ r.members.map (·.2) ∨ ∃ conn, c = .join conn m.2 := by
    intro m hm
    obtain hm | hm := mem_gathered hm
    · exact .inl (List.mem_map_of_mem hm)
    · exact .inr ⟨m.1, hm⟩
  obtain ⟨t, ht, rfl⟩ | ⟨m, hm, ⟨_, _, -, rfl⟩ | ⟨_, -, rfl⟩ | ⟨_, -, rfl⟩ | ⟨-, rfl⟩⟩ := mem_step h
  · exact .inl (mem_parting ht)
  · exact hgathered m hm
  · exact hgathered m hm
  · exact hgathered m hm
  · exact hgathered m hm

end Room

namespace Lobby

variable {σ : Type} {g : Game σ} {limits : Limits} {l l' : Lobby σ} {id : RoomId}

/-! ## Queues in the lobby -/

theorem lookup_change (ticket t : Ticket) (f : Mailbox → Mailbox) (ms : List (Ticket × Mailbox)) :
    (ms.map fun m => if m.1 = ticket then (m.1, f m.2) else m).lookup t =
      if t = ticket then (ms.lookup t).map f else ms.lookup t := by
  induction ms with
  | nil => simp
  | cons m ms ih =>
    obtain ⟨k, b⟩ := m
    rw [List.map_cons, List.lookup_cons, List.lookup_cons, ih]
    by_cases hk : k = ticket
    · simp only [hk, if_true]
      by_cases ht : t = ticket
      · simp [ht]
      · simp [ht, beq_eq_false_iff_ne.mpr ht]
    · simp only [hk, if_false]
      by_cases htk : t = k
      · simp [htk, hk]
      · rw [beq_eq_false_iff_ne.mpr htk]

theorem mailbox?_changeMailbox (ticket t : Ticket) (f : Mailbox → Mailbox) (l : Lobby σ) :
    (l.changeMailbox ticket f).mailbox? t =
      if t = ticket then (l.mailbox? t).map f else l.mailbox? t :=
  lookup_change ticket t f l.mailboxes

theorem mailbox?_applyEffect (l : Lobby σ) (e : Effect) (t : Ticket) :
    (l.applyEffect e).mailbox? t =
      (l.mailbox? t).map fun q => if e.ticket = t then e.act q else q := by
  have hchange : (l.applyEffect e).mailbox? t =
      if t = e.ticket then (l.mailbox? t).map e.act else l.mailbox? t := by
    cases e <;> exact mailbox?_changeMailbox _ t _ l
  rw [hchange]
  by_cases ht : e.ticket = t
  · simp only [ht, if_true]
  · simp only [ht, Ne.symm ht, if_false, Option.map_id']

theorem mailbox?_applyEffects (l : Lobby σ) (es : List Effect) (t : Ticket) :
    (l.applyEffects es).mailbox? t = (l.mailbox? t).map (Mailbox.after t es) := by
  induction es generalizing l with
  | nil =>
    have hnone : (l.mailbox? t).map (Mailbox.after t []) = l.mailbox? t := by
      cases l.mailbox? t <;> rfl
    exact hnone.symm
  | cons e es ih =>
    have hfirst : l.applyEffects (e :: es) = (l.applyEffect e).applyEffects es := rfl
    rw [hfirst, ih, mailbox?_applyEffect, Option.map_map]
    rfl

theorem command_eq {r : Room σ} (g : Game σ) (c : Command) (hr : l.rooms.lookup id = some r) :
    command g id c l =
      ((l.setRoom id (r.step g c).1).noteExit id (r.step g c).1).applyEffects (r.step g c).2 := by
  unfold command
  rw [hr]

theorem command_of_lookup_none (g : Game σ) (c : Command) (hr : l.rooms.lookup id = none) :
    command g id c l = l := by
  unfold command
  rw [hr]

theorem mailbox?_command {r : Room σ} (g : Game σ) (c : Command)
    (hr : l.rooms.lookup id = some r) (t : Ticket) :
    (command g id c l).mailbox? t = (l.mailbox? t).map (Mailbox.after t (r.step g c).2) := by
  have hsame : ((l.setRoom id (r.step g c).1).noteExit id (r.step g c).1).mailbox? t =
      l.mailbox? t := by
    cases (r.step g c).1 <;> rfl
  rw [command_eq g c hr, mailbox?_applyEffects, hsame]

/-- A command leaves the queues alone that belong to nobody in its room. -/
theorem mailbox?_command_of_not_mem {r : Room σ} (g : Game σ) {c : Command}
    (hr : l.rooms.lookup id = some r) {t : Ticket} (ht : t ∉ r.members.map (·.2))
    (hc : ∀ conn, c ≠ .join conn t) : (command g id c l).mailbox? t = l.mailbox? t := by
  have hnone : ∀ e ∈ (r.step g c).2, e.ticket ≠ t := by
    rintro e he rfl
    obtain hmem | ⟨conn, hjoin⟩ := Room.ticket_of_mem_step he
    · exact ht hmem
    · exact hc conn hjoin
  rw [mailbox?_command g c hr]
  cases l.mailbox? t with
  | none => rfl
  | some q =>
    rw [Option.map_some, Mailbox.after_of_ne hnone]

theorem Ticketed.nodup (h : Ticketed l) {r : Room σ} (hr : (id, r) ∈ l.rooms) :
    (r.members.map (·.2)).Nodup := by
  have hconns := ascending_nodup (h.ascending (id, r) hr)
  rw [Room.connections, List.Nodup, List.pairwise_map] at hconns
  rw [List.Nodup, List.pairwise_map]
  refine List.Pairwise.imp_of_mem ?_ hconns
  intro m n hm hn hne heq
  exact hne (h.told (id, r) hr (id, r) hr m hm n hn heq).2

end Lobby

end Gamewire
