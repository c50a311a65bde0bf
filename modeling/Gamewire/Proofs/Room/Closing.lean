import Gamewire.Proofs.Room.Holders
import Gamewire.Proofs.Room.Notices

/-! Notices over whole runs. A member that is told once that its room closes is in no room from then
on, so the notice is the only one that its reader can ever get. -/
namespace Gamewire
set_option autoImplicit false

/-- The reason of a notice. -/
def Delivery.notice? : Delivery → Option String
  | .closed reason => some reason
  | .frame _ => none

namespace Lobby

variable {σ : Type} {g : Game σ} {limits : Limits} {l l' : Lobby σ} {id : RoomId} {r : Room σ}
  {c : Command} {op : Operation} {t ticket : Ticket} {reason : String}

/-! ## Tickets that are out of use -/

/-- A ticket that was handed out and belongs to nobody in a room. -/
def Absent (t : Ticket) (l : Lobby σ) : Prop := t < l.nextTicket ∧ t ∉ l.seated

theorem seated_subset (hn : Narrows l l') (ht : t ∈ l'.seated) : t ∈ l.seated := by
  obtain ⟨y, hy, hmem⟩ := mem_seated.mp ht
  obtain ⟨x, hx, -, hsub⟩ := hn.members y hy
  exact mem_seated.mpr ⟨x, hx, (hsub.map _).subset hmem⟩

theorem Absent.narrow (h : Absent t l) (hn : Narrows l l') : Absent t l' :=
  ⟨hn.nextTicket ▸ h.1, fun ht => h.2 (seated_subset hn ht)⟩

theorem Absent.join (h : Absent t l) (hb : Bounded limits l) (hw : Wired l) (g : Game σ)
    (conn : ConnId) (room : Option RoomId) (buffer : Nat) :
    Absent t (l.join g conn room buffer).2.2 := by
  have hopened : Absent t (l.openMailbox buffer).2 := ⟨Nat.lt_succ_of_lt h.1, h.2⟩
  obtain ⟨e, hj⟩ | ⟨id, l', hready, hl', hj⟩ | hj := hb.join_cases g conn room buffer
  · rw [hj]
    exact hopened.narrow (narrows_of_eq rfl rfl)
  · obtain ⟨-, -, hnext, -, -, -, -, hold⟩ := hw.place hready hl'
    rw [hj, enter_eq]
    refine ⟨?_, fun ht => ?_⟩
    · rw [(command_wanes g id _ _).nextTicket]
      exact Nat.lt_of_lt_of_eq (Nat.lt_succ_of_lt h.1) hnext.symm
    · obtain ⟨x, hx, hmem⟩ := mem_seated.mp ht
      obtain ⟨m, hm, rfl⟩ := List.mem_map.mp hmem
      obtain ⟨y, hy, -, hmember⟩ | ⟨-, hjoin⟩ := mem_command hx hm
      · exact h.2 (mem_seated.mpr ⟨y, hold y hy m hmember, List.mem_map_of_mem hmember⟩)
      · injection hjoin with _ hticket
        exact absurd hticket.symm (Nat.ne_of_lt h.1)
  · rw [hj]
    exact hopened.narrow ((crash_narrows _).trans (narrows_of_eq rfl rfl))

theorem Absent.perform (h : Absent t l) (hb : Bounded limits l) (hw : Wired l) (g : Game σ)
    (op : Operation) : Absent t (l.perform g op) :=
  perform_of_narrows (fun h hn _ => h.narrow hn) h op fun conn room buffer _ =>
    h.join hb hw g conn room buffer

/-- Whoever is ousted is in a room, or was just about to be. -/
theorem Ousted.present (h : Ousted g l op t reason) (hb : Bounded limits l) (hw : Wired l) :
    ¬ Absent t l := by
  induction h with
  | closed _ hr hm => exact fun habsent => habsent.2 (mem_seated_of_lookup hr hm)
  | shutdown _ hr hm => exact fun habsent => habsent.2 (mem_seated_of_lookup hr hm)
  | dismissed _ hr hm => exact fun habsent => habsent.2 (mem_seated_of_lookup hr hm)
  | fault hask hv hm =>
    rintro ⟨hlt, hseated⟩
    obtain hmember | hjoin := Room.mem_gathered hm
    · cases hask with
      | frame hr => exact hseated (mem_seated_of_lookup hr hmember)
      | leave _ _ hr => exact hseated (mem_seated_of_lookup hr hmember)
      | join _ hr => exact hseated (mem_seated_of_lookup hr hmember)
      | first => cases hmember
    · cases hask with
      | frame | leave => cases hjoin
      | join | first =>
        injection hjoin with _ hticket
        exact absurd hticket.symm (Nat.ne_of_lt hlt)
  | request h ih => exact ih hb hw
  | @giveUp l conn room buffer t reason h ih =>
    intro habsent
    exact ih (Bounded.join hb g conn room buffer) (hb.join_wired hw g conn room buffer)
      (habsent.join hb hw g conn room buffer)

theorem Handles.nextTicket {m : Lobby σ} (h : Handles g limits l op id r c m) :
    (l.perform g op).nextTicket = m.nextTicket := by
  have hw := command_wanes g id c m
  obtain hdone | ⟨timer, -, -, hdone⟩ := h.done
  · rw [hdone, hw.nextTicket]
  · rw [hdone, (expireDue_wanes g _).nextTicket]
    exact hw.nextTicket

/-- Whoever is ousted is in no room any more. -/
theorem Ousted.absent (h : Ousted g l op t reason) (hb : Bounded limits l) (hw : Wired l)
    (hwaits : Waits l) : Absent t (l.perform g op) := by
  induction h with
  | @closed l id r m hrunning hr hm reason =>
    have hsound := hb.sound (by simp [hrunning])
    obtain ⟨e, he, -⟩ := hsound.agrees.lookup_live hr
    have hnarrows := closeRoom_narrows g id reason (l.registry.remove id) l
    rw [Lobby.perform, shutdownRoom_of_live g reason hrunning he]
    refine ⟨?_, fun hseated => ?_⟩
    · rw [hnarrows.nextTicket]
      exact hw.given (id, r) (mem_of_lookup hr) m hm
    · obtain ⟨x, hx, hmem⟩ := mem_seated.mp hseated
      rw [command_close_rooms] at hx
      obtain ⟨hx, hne⟩ := List.mem_filter.mp hx
      obtain ⟨n, hn, heq⟩ := List.mem_map.mp hmem
      exact bne_iff_ne.mp hne (hw.told x hx (id, r) (mem_of_lookup hr) n hn m hm heq).1
  | @shutdown l id r m hrunning hr hm reason =>
    have hsound := hb.sound (by simp [hrunning])
    have hagrees : ({ l with shuttingDown := true } : Lobby σ).Agrees := hsound.agrees
    rw [Lobby.perform, shutdown_of_running g reason hrunning]
    refine ⟨?_, fun hseated => ?_⟩
    · rw [(closeAll_narrows g reason _).nextTicket]
      exact hw.given (id, r) (mem_of_lookup hr) m hm
    · obtain ⟨x, hx, -⟩ := mem_seated.mp hseated
      rw [closeAll_rooms hagrees] at hx
      cases hx
  | @dismissed l id r m hrunning hr hm =>
    have hsound := hb.sound (by simp [hrunning])
    rw [Lobby.perform, Lobby.dismiss, if_pos hrunning]
    refine ⟨?_, fun hseated => ?_⟩
    · have hnext := (closeAll_narrows g "server stopped" l).nextTicket
      exact Nat.lt_of_lt_of_eq (hw.given (id, r) (mem_of_lookup hr) m hm) hnext.symm
    · obtain ⟨x, hx, -⟩ := mem_seated.mp hseated
      have hx : x ∈ (Lobby.closeAll g "server stopped" l).rooms := hx
      rw [closeAll_rooms hsound.agrees] at hx
      cases hx
  | @fault l op id r c text m hask hv hm =>
    obtain ⟨l₁, hhandles⟩ := hask.handles hb hw hwaits hv
    have hlive := mem_of_lookup hhandles.room
    have hover : (r.step g c).1 = none := by
      rw [Room.step_of_verdict hv]
      rfl
    obtain ⟨-, hrooms, -⟩ := hhandles.over hover
    refine ⟨?_, fun hseated => ?_⟩
    · rw [hhandles.nextTicket]
      obtain hmember | rfl := Room.mem_gathered hm
      · exact hhandles.wired.given (id, r) hlive m hmember
      · exact hhandles.admissible.2.1
    · obtain ⟨x, hx, hmem⟩ := mem_seated.mp hseated
      rw [hrooms] at hx
      obtain ⟨hx, hne⟩ := List.mem_filter.mp hx
      obtain ⟨n, hn, heq⟩ := List.mem_map.mp hmem
      obtain hmember | rfl := Room.mem_gathered hm
      · exact bne_iff_ne.mp hne (hhandles.wired.told x hx (id, r) hlive n hn m hmember heq).1
      · exact absurd heq (Nat.ne_of_lt (hhandles.admissible.1 x hx n hn))
  | @request l conn room buffer t reason h ih =>
    exact (ih hb hw hwaits).narrow (release_narrows g l.nextTicket _)
  | @giveUp l conn room buffer t reason h ih =>
    exact ih (Bounded.join hb g conn room buffer) (hb.join_wired hw g conn room buffer)
      ((hb.join_change g conn room buffer).1.waits hwaits)

/-! ## What a reader gets -/

/-- What the reader of a queue gets in a run. -/
def readings (g : Game σ) (ticket : Ticket) : Lobby σ → List Operation → List Delivery
  | _, [] => []
  | l, op :: ops =>
    (if op = .receive ticket then (l.receive ticket).1.toList else []) ++
      readings g ticket (l.perform g op) ops

/-- The notice that waits in a queue. -/
def waitingNotice (l : Lobby σ) (ticket : Ticket) : List String :=
  ((l.mailbox? ticket).bind (·.notice)).toList

/-- The notices that the reader of a queue got in a run or can still get. -/
def notices (g : Game σ) (ticket : Ticket) (l : Lobby σ) (ops : List Operation) : List String :=
  (l.readings g ticket ops).filterMap Delivery.notice? ++ (l.run g ops).waitingNotice ticket

theorem readings_concat (g : Game σ) (ticket : Ticket) (l : Lobby σ) (ops : List Operation)
    (op : Operation) : l.readings g ticket (ops ++ [op]) = l.readings g ticket ops ++
      if op = .receive ticket then ((l.run g ops).receive ticket).1.toList else [] := by
  induction ops generalizing l with
  | nil => simp [readings, run]
  | cons first ops ih =>
    have hrun : l.run g (first :: ops) = (l.perform g first).run g ops := rfl
    rw [List.cons_append, readings, ih, readings, hrun, List.append_assoc]

/-- A member was told in a run that its room closes. -/
def WasOusted (g : Game σ) (l : Lobby σ) (ops : List Operation) (t : Ticket) (reason : String) :
    Prop :=
  ∃ before op after, ops = before ++ op :: after ∧ Ousted g (l.run g before) op t reason

theorem wasOusted_concat (g : Game σ) (l : Lobby σ) (ops : List Operation) (op : Operation) :
    l.WasOusted g (ops ++ [op]) t reason ↔
      l.WasOusted g ops t reason ∨ Ousted g (l.run g ops) op t reason := by
  constructor
  · rintro ⟨before, op', after, hops, hout⟩
    induction after using List.reverseRecOn with
    | nil =>
      obtain ⟨rfl, hlast⟩ := List.append_inj' hops rfl
      cases hlast
      exact .inr hout
    | append_singleton after last _ =>
      rw [← List.cons_append, ← List.append_assoc] at hops
      exact .inl ⟨before, op', after, (List.append_inj' hops rfl).1, hout⟩
  · rintro (⟨before, op', after, rfl, hout⟩ | hout)
    · exact ⟨before, op', after ++ [op], by simp, hout⟩
    · exact ⟨ops, op, [], rfl, hout⟩

/-- What is known of the notices for a ticket: there is one at most, it is that of a member that was
ousted, and as long as nobody let go of the queue it is there. -/
structure Informed (g : Game σ) (l : Lobby σ) (ops : List Operation) (t : Ticket) : Prop where
  once : (l.notices g t ops).length ≤ 1
  ousted : ∀ reason ∈ l.notices g t ops, l.WasOusted g ops t reason
  told : ∀ reason, l.WasOusted g ops t reason → ((l.run g ops).mailbox? t).isSome →
    reason ∈ l.notices g t ops
  /-- It comes when the membership is over. -/
  absent : ∀ reason, l.WasOusted g ops t reason → Absent t (l.run g ops)

theorem Informed.nil_of_not_absent {ops : List Operation} (h : Informed g l ops t)
    (hpresent : ¬ Absent t (l.run g ops)) : l.notices g t ops = [] := by
  refine List.eq_nil_iff_forall_not_mem.mpr fun reason hmem => hpresent ?_
  exact h.absent reason (h.ousted reason hmem)

theorem receive_mailbox? {q : Mailbox} (hq : l.mailbox? t = some q) :
    (l.receive t).1 = q.receive.1 ∧ (l.receive t).2.mailbox? t = some q.receive.2 := by
  unfold Lobby.receive
  rw [hq]
  refine ⟨rfl, ?_⟩
  rw [mailbox?_changeMailbox, if_pos rfl, hq]
  rfl

/-- Reading moves a notice from the queue to the reader. -/
theorem notices_receive (g : Game σ) (l : Lobby σ) (ops : List Operation) (t : Ticket) :
    l.notices g t (ops ++ [.receive t]) = l.notices g t ops := by
  unfold notices
  rw [readings_concat, if_pos rfl, run_concat, List.filterMap_append, List.append_assoc]
  congr 1
  show _ ++ waitingNotice ((l.run g ops).receive t).2 t = _
  cases hq : (l.run g ops).mailbox? t with
  | none =>
    unfold Lobby.receive
    simp only [hq, Option.toList_none, List.filterMap_nil, List.nil_append]
  | some q =>
    obtain ⟨hfirst, hafter⟩ := receive_mailbox? hq
    unfold waitingNotice
    rw [hfirst, hafter, hq]
    unfold Mailbox.receive
    cases hnotice : q.notice with
    | some reason => simp [Delivery.notice?, hnotice]
    | none =>
      simp only
      split
      · simp [Delivery.notice?, hnotice]
      · simp [hnotice]

/-- Nobody is ousted by a reader. -/
theorem not_ousted_of_reader (hop : op = .receive ticket ∨ op = .dropMailbox ticket) :
    ¬ Ousted g l op t reason := by
  rintro hout
  obtain rfl | rfl := hop
  · cases hout with
    | fault hask => cases hask
  · cases hout with
    | fault hask => cases hask

theorem notices_concat (g : Game σ) (l : Lobby σ) (ops : List Operation) (op : Operation)
    (hop : op ≠ .receive t) :
    l.notices g t (ops ++ [op]) = (l.readings g t ops).filterMap Delivery.notice? ++
      ((l.run g ops).perform g op).waitingNotice t := by
  unfold notices
  rw [readings_concat, if_neg hop, List.append_nil, run_concat]

/-- What is known of the notices stays true if nobody is ousted and queues get none. -/
theorem Informed.quiet {ops : List Operation} (h : Informed g l ops t)
    (hb : Bounded limits (l.run g ops)) (hw : Wired (l.run g ops))
    (hout : ∀ reason, ¬ Ousted g (l.run g ops) op t reason)
    (hsub : (l.notices g t (ops ++ [op])).Sublist (l.notices g t ops))
    (hkeep : Absent t (l.run g ops) → (((l.run g ops).perform g op).mailbox? t).isSome →
      ((l.run g ops).mailbox? t).isSome ∧ l.notices g t (ops ++ [op]) = l.notices g t ops) :
    Informed g l (ops ++ [op]) t := by
  have hold : ∀ reason, l.WasOusted g (ops ++ [op]) t reason → l.WasOusted g ops t reason :=
    fun reason hwas => ((wasOusted_concat g l ops op).mp hwas).resolve_right (hout reason)
  refine ⟨hsub.length_le.trans h.once, fun reason hmem => ?_, fun reason hwas hsome => ?_,
    fun reason hwas => ?_⟩
  · exact (wasOusted_concat g l ops op).mpr (.inl (h.ousted reason (hsub.subset hmem)))
  · rw [run_concat] at hsome
    obtain ⟨hsome, heq⟩ := hkeep (h.absent reason (hold reason hwas)) hsome
    rw [heq]
    exact h.told reason (hold reason hwas) hsome
  · rw [run_concat]
    exact (h.absent reason (hold reason hwas)).perform hb hw g op

theorem Informed.read {ops : List Operation} (h : Informed g l ops t)
    (hb : Bounded limits (l.run g ops)) (hw : Wired (l.run g ops)) (ticket : Ticket) :
    Informed g l (ops ++ [.receive ticket]) t := by
  have hsame : (((l.run g ops).perform g (.receive ticket)).mailbox? t).isSome =
      ((l.run g ops).mailbox? t).isSome := by
    simp only [Lobby.perform, Lobby.receive]
    split
    · rfl
    · rw [mailbox?_changeMailbox]
      split
      · exact Option.isSome_map
      · rfl
  have hnotices : l.notices g t (ops ++ [.receive ticket]) = l.notices g t ops := by
    by_cases ht : ticket = t
    · rw [ht]
      exact notices_receive g l ops t
    · rw [notices_concat g l ops _ (by simp [ht])]
      refine congrArg (_ ++ ·) ?_
      simp only [Lobby.perform, Lobby.receive, waitingNotice]
      split
      · rfl
      · rw [mailbox?_changeMailbox, if_neg (Ne.symm ht)]
  refine h.quiet hb hw (fun reason => not_ousted_of_reader (.inl rfl)) ?_ fun _ hsome => ?_
  · rw [hnotices]
  · exact ⟨hsame ▸ hsome, hnotices⟩

theorem Informed.drop {ops : List Operation} (h : Informed g l ops t)
    (hb : Bounded limits (l.run g ops)) (hw : Wired (l.run g ops)) (ticket : Ticket) :
    Informed g l (ops ++ [.dropMailbox ticket]) t := by
  have hnotices := notices_concat (t := t) g l ops (.dropMailbox ticket) Operation.noConfusion
  have hqueue := mailbox?_dropMailbox ticket t (l.run g ops)
  refine h.quiet hb hw (fun reason => not_ousted_of_reader (.inr rfl)) ?_ fun _ hsome => ?_
  · rw [hnotices]
    refine List.Sublist.append_left ?_ _
    simp only [Lobby.perform, waitingNotice, hqueue]
    split
    · exact List.nil_sublist _
    · exact List.Sublist.refl _
  · simp only [Lobby.perform, hqueue] at hsome
    split at hsome
    · cases hsome
    · rename_i ht
      refine ⟨hsome, ?_⟩
      rw [hnotices]
      refine congrArg (_ ++ ·) ?_
      simp only [Lobby.perform, waitingNotice, hqueue, if_neg ht]

/-- A queue that an operation opens has no notice, and it is new. -/
theorem Wired.mailbox?_opened (h : Wired l) (op : Operation) (t : Ticket) :
    (l.opened op).mailbox? t = l.mailbox? t ∨
      t = l.nextTicket ∧ l.mailbox? t = none ∧
        ∃ buffer, (l.opened op).mailbox? t = some (.ofBuffer buffer) := by
  have hopen : ∀ buffer, (l.openMailbox buffer).2.mailbox? t = l.mailbox? t ∨
      t = l.nextTicket ∧ l.mailbox? t = none ∧
        ∃ buffer', (l.openMailbox buffer).2.mailbox? t = some (.ofBuffer buffer') := by
    intro buffer
    rw [h.mailbox?_openMailbox]
    split
    · rename_i ht
      refine .inr ⟨ht, ?_, buffer, rfl⟩
      cases hq : l.mailbox? t with
      | none => rfl
      | some q => exact absurd (h.opened t (by rw [hq]; rfl)) (ht ▸ Nat.lt_irrefl _)
    · exact .inl rfl
  cases op with
  | join conn room buffer => exact hopen buffer
  | joinInVain conn room buffer => exact hopen buffer
  | release | send | receive | dropMailbox | shutdownRoom | shutdown | advance | dismiss =>
    exact .inl rfl

theorem Tells.waitingNotice {tickets : List Ticket} (h : Tells reason tickets l l')
    (ht : t ∉ tickets) : l'.waitingNotice t = l.waitingNotice t := by
  have hsame := h t
  rw [if_neg ht] at hsame
  have hbind : ∀ m : Option Mailbox, m.bind (·.notice) = (m.map (·.notice)).join := by
    intro m
    cases m <;> rfl
  rw [Lobby.waitingNotice, Lobby.waitingNotice, hbind, hbind, hsame]

theorem Tells.waitingNotice_of_mem {tickets : List Ticket} (h : Tells reason tickets l l')
    (ht : t ∈ tickets) :
    l'.waitingNotice t = if (l'.mailbox? t).isSome then [reason] else [] := by
  have htold := h t
  rw [if_pos ht] at htold
  unfold Lobby.waitingNotice
  cases hq : l'.mailbox? t with
  | none => rfl
  | some q =>
    rw [hq] at htold
    obtain ⟨-, -, hnotice⟩ := Option.map_eq_some_iff.mp htold.symm
    have hnotice : some reason = q.notice := hnotice
    rw [Option.bind_some, ← hnotice]
    rfl

theorem Informed.declare {ops : List Operation} (h : Informed g l ops t)
    (hb : Bounded limits (l.run g ops)) (hw : Wired (l.run g ops)) (hwaits : Waits (l.run g ops))
    (hop : ∀ ticket, op ≠ .receive ticket ∧ op ≠ .dropMailbox ticket) :
    Informed g l (ops ++ [op]) t := by
  obtain ⟨reason, tickets, htells, housted⟩ := hb.declares hw hwaits g op hop
  have hnotices := notices_concat g l ops op (hop t).1
  by_cases ht : t ∈ tickets
  · -- the first notice: nothing was said before
    have hout := (housted t reason).mpr ⟨ht, rfl⟩
    have hpresent := hout.present hb hw
    have hbefore := h.nil_of_not_absent hpresent
    have hread : (l.readings g t ops).filterMap Delivery.notice? = [] :=
      (List.append_eq_nil_iff.mp hbefore).1
    rw [hread, List.nil_append, htells.waitingNotice_of_mem ht] at hnotices
    have hlast : ∀ reason', l.WasOusted g (ops ++ [op]) t reason' → reason' = reason := by
      intro reason' hwas
      obtain hwas | hwas := (wasOusted_concat g l ops op).mp hwas
      · exact absurd (h.absent reason' hwas) hpresent
      · exact ((housted t reason').mp hwas).2
    refine ⟨?_, fun reason' hmem => ?_, fun reason' hwas hsome => ?_, fun _ _ => ?_⟩
    · rw [hnotices]
      split <;> simp
    · rw [hnotices] at hmem
      split at hmem
      · rw [List.mem_singleton.mp hmem]
        exact (wasOusted_concat g l ops op).mpr (.inr hout)
      · cases hmem
    · rw [run_concat] at hsome
      rw [hnotices, if_pos hsome, hlast reason' hwas]
      exact List.mem_singleton_self reason
    · rw [run_concat]
      exact hout.absent hb hw hwaits
  · have hsame : l.notices g t (ops ++ [op]) = l.notices g t ops := by
      rw [hnotices, htells.waitingNotice ht]
      refine congrArg (_ ++ ·) ?_
      unfold waitingNotice
      obtain heq | ⟨-, hnone, buffer, hnew⟩ := hw.mailbox?_opened op t
      · rw [heq]
      · rw [hnone, hnew]
        rfl
    refine h.quiet hb hw (fun reason' hout => ht ((housted t reason').mp hout).1) ?_
      fun habsent hsome => ⟨?_, hsame⟩
    · rw [hsame]
    · have htold := congrArg Option.isSome (htells t)
      rw [if_neg ht, Option.isSome_map, Option.isSome_map, hsome] at htold
      obtain heq | ⟨hnew, -⟩ := hw.mailbox?_opened op t
      · rw [← heq, ← htold]
      · exact absurd hnew (Nat.ne_of_lt habsent.1)

theorem run_informed (h : start limits = .ok l) (g : Game σ) (ops : List Operation) (t : Ticket) :
    Informed g l ops t := by
  induction ops using List.reverseRecOn with
  | nil =>
    have hnotices : l.notices g t [] = [] := by
      obtain ⟨rfl, -⟩ := start_eq h
      rfl
    have hnobody : ∀ reason, ¬ l.WasOusted g [] t reason := by
      rintro reason ⟨before, op, after, hops, -⟩
      simp at hops
    refine ⟨by rw [hnotices]; exact Nat.zero_le 1, ?_, fun reason hwas => absurd hwas (hnobody reason),
      fun reason hwas => absurd hwas (hnobody reason)⟩
    rw [hnotices]
    exact List.forall_mem_nil _
  | append_singleton ops op ih =>
    have hb := Bounded.run (.inl (sound_start h)) g ops
    have hw := run_wired h g ops
    cases op with
    | receive ticket => exact ih.read hb hw ticket
    | dropMailbox ticket => exact ih.drop hb hw ticket
    | join | joinInVain | release | send | shutdownRoom | shutdown | advance | dismiss =>
      exact ih.declare hb hw (run_paced h g ops).waits fun _ =>
        ⟨Operation.noConfusion, Operation.noConfusion⟩

end Lobby

end Gamewire
