import Gamewire.Proofs.Server.Housing

/-! What the rooms are asked to do in each event of a server, and that they are asked nothing else. A
client asks for a place with its first frame, speaks with the others, and its place is given back when
it goes; whatever else connections go through is of no concern to the rooms. -/
namespace Gamewire
set_option autoImplicit false

/-- The room that a first frame asks for, if it asks for one and knows the protocol. -/
def knock? {σ : Type} (g : Game σ) (bytes : List UInt8) : Option (Option RoomId) :=
  match ControlFrame.decode bytes with
  | .ok (.join wanted fingerprint) =>
    if fingerprint = g.protocol.fingerprint then some wanted else none
  | _ => none

namespace Server

variable {σ : Type} {g : Game σ} {s : Server σ} {n : Nat} {limits : Limits} {line : Line}
  {phase : Phase} {deadline : Nat} {bytes : List UInt8}
  {tales tales' : Nat → Option Admission → Prop} {logs : Nat → List Arrival} {mine : Option Ticket}

open Lobby (Past Calm)

/-- What the rooms are asked to do in an event. -/
def requests (g : Game σ) (s : Server σ) : Event → List Operation
  | .connect _ => []
  | .send number bytes =>
    match s.connection? number with
    | none => []
    | some c =>
      match c.phase with
      | .greeting _ => (knock? g bytes).toList.map fun wanted => .join c.id wanted s.buffer
      | .member ticket _ =>
        if isControlFrame bytes then []
        else (s.lobby.admission? ticket).toList.map fun a => .send a a.conn bytes
      | .refusing _ _ | .joining _ _ _ | .ended => []
  | .close number | .leave number =>
    ((s.connection? number).bind (·.phase.ticket?)).toList.map .release
  | .advance ms => [.advance ms]
  | .shutdownRoom room reason => [.shutdownRoom room reason]
  | .shutdown reason => [.shutdown reason]
  | .stop => if s.ended.isSome then [] else [.shutdown serverShutdownReason]

/-- A line is without faults, and no two open connections have one name. -/
def Proper (s : Server σ) : Event → Prop
  | .connect faults =>
    faults = {} ∧ ∀ c ∈ s.connections, c.phase ≠ .ended → c.id ≠ UInt32.ofNat s.nextConn
  | _ => True

instance (s : Server σ) (e : Event) : Decidable (s.Proper e) :=
  match e with
  | .connect faults => inferInstanceAs (Decidable (faults = {} ∧
      ∀ c ∈ s.connections, c.phase ≠ .ended → c.id ≠ UInt32.ofNat s.nextConn))
  | .send _ _ | .close _ | .leave _ | .advance _ | .shutdownRoom _ _ | .shutdown _ | .stop =>
    isTrue trivial

/-! ## Connections at rest -/

/-- Nothing happens to a connection while it has time left. -/
theorem Housed.proceed_eq (h : Housed g limits tales logs none none s)
    (htime : ∀ line deadline, ⟨n, line, .greeting deadline⟩ ∈ s.connections → s.now < deadline) :
    s.proceed g n = s := by
  unfold Server.proceed
  split
  · rfl
  · rename_i c hc
    obtain ⟨hmem, hnumber⟩ := mem_of_connection? hc
    obtain ⟨n', line, phase⟩ := c
    cases hnumber
    have hstands := h.stands _ hmem (Option.some_ne_none _)
    simp only at hstands ⊢
    cases hstands with
    | greeting hrest hlog htale deadline =>
      have hlt := htime line deadline hmem
      simp only [hrest.read, if_neg (Nat.not_le.mpr hlt)]
    | @member hrest room ticket hheld hlog htale =>
      simp only
      unfold Server.listen
      split
      · rfl
      · rename_i a ha
        simp only [hrest.readAll, Server.forward, Bool.false_eq_true, or_self, if_false]
        exact h.toNumbered.setConnection_self hmem
    | ended => rfl

/-- A client that is refused never was in a room. -/
theorem Housed.refused (h : Housed g limits tales logs (some n) none s)
    (hthere : ∃ x ∈ s.connections, x.number = n) (line : Line)
    (hlog : logs n ++ line.arrivals = []) (refusal : Refusal) :
    Housed g limits tales logs none none
      (s.setConnection ⟨n, refusedLine line refusal, .ended⟩) := by
  refine h.put hthere _ _ (.ended (Line.hangUp_gone _) fun room hfirst => ?_) rfl
  obtain ⟨hlogs, harrivals⟩ := List.append_eq_nil_iff.mp hlog
  obtain ⟨rest, hrest, hrest_sub⟩ := Line.hangUp_prefix
    ((({ line with sends := line.sends + 1 } : Line).deliver
      (ControlFrame.rejected refusal).encode).getD { line with sends := line.sends + 1 })
  rw [refusedLine, hrest, hlogs, List.nil_append] at hfirst
  unfold Line.deliver at hfirst
  split at hfirst
  · rw [Option.getD_some] at hfirst
    simp only [harrivals, List.nil_append, List.cons_append, List.head?_cons, welcome,
      Option.some.injEq, Arrival.frame.injEq, ControlFrame.encode] at hfirst
    cases hfirst
  · rw [Option.getD_none] at hfirst
    simp only [harrivals, List.nil_append] at hfirst
    have hmem := hrest_sub (List.mem_of_head? hfirst)
    cases List.mem_singleton.mp hmem

/-- However far a connection goes that nothing was sent over, no room notices. -/
theorem Housed.proceedFully (h : Housed g limits tales logs none none s) (n : Nat) :
    Housed g limits tales logs none none (s.proceedFully g n) ∧
      (s.proceedFully g n).lobby = s.lobby := by
  unfold Server.proceedFully
  by_cases hdue : ∃ line deadline, ⟨n, line, .greeting deadline⟩ ∈ s.connections ∧ deadline ≤ s.now
  · obtain ⟨line, deadline, hmem, hle⟩ := hdue
    have hthere : ∃ x ∈ s.connections, x.number = n := ⟨_, hmem, rfl⟩
    have hfound : s.connection? n = some ⟨n, line, .greeting deadline⟩ :=
      h.toNumbered.connection?_iff.mpr ⟨hmem, rfl⟩
    have hstands := h.stands _ hmem (Option.some_ne_none _)
    simp only at hstands
    cases hstands with
    | greeting hrest hlog htale =>
      have hfirst : s.proceed g n = s.refuse g ⟨n, line, .greeting deadline⟩ .badHandshake := by
        unfold Server.proceed
        rw [hfound]
        simp only [hrest.read, if_pos hle]
      have hrefused := (h.except hmem Phase.noConfusion).refused hthere line hlog .badHandshake
      rw [hfirst, h.toNumbered.refuse_eq g hrest.faults hthere, hrefused.proceed_eq]
      · exact ⟨hrefused, rfl⟩
      · intro line' deadline' hmem'
        have hsame := hrefused.eq_of_number hmem' (mem_setConnection.mpr (.inr ⟨rfl, hthere⟩)) rfl
        cases hsame
  · have htime : ∀ line deadline, ⟨n, line, .greeting deadline⟩ ∈ s.connections →
        s.now < deadline :=
      fun line deadline hmem => Nat.lt_of_not_le fun hle => hdue ⟨line, deadline, hmem, hle⟩
    rw [h.proceed_eq htime, h.proceed_eq htime, h.proceed_eq htime]
    exact ⟨h, rfl⟩

/-! ## What a client does -/

theorem greet_of_knock {c : Connection} {wanted : Option RoomId}
    (h : knock? g bytes = some wanted) (s : Server σ) :
    s.greet g c bytes = s.enter g c wanted := by
  unfold knock? at h
  unfold Server.greet
  cases hdecode : ControlFrame.decode bytes with
  | error e =>
    rw [hdecode] at h
    cases h
  | ok frame =>
    rw [hdecode] at h
    cases frame with
    | join room fingerprint =>
      by_cases hsame : fingerprint = g.protocol.fingerprint
      · simp only [if_pos hsame, Option.some.injEq] at h ⊢
        rw [h]
      · simp only [if_neg hsame] at h
        cases h
    | joined | rejected | closing => cases h

theorem greet_of_not_knock {c : Connection} (h : knock? g bytes = none) (s : Server σ) :
    ∃ refusal, s.greet g c bytes = s.refuse g c refusal := by
  unfold knock? at h
  unfold Server.greet
  cases hdecode : ControlFrame.decode bytes with
  | error e => exact ⟨_, rfl⟩
  | ok frame =>
    rw [hdecode] at h
    cases frame with
    | join room fingerprint =>
      by_cases hsame : fingerprint = g.protocol.fingerprint
      · simp only [if_pos hsame] at h
        cases h
      · simp only [if_neg hsame]
        exact ⟨_, rfl⟩
    | joined | rejected | closing => exact ⟨_, rfl⟩

/-! ## Events -/

/-- What is told of the connections goes on with an event: of the one that a frame comes from, and of
all others that are open. -/
structure Retells (g : Game σ) (s : Server σ) (e : Event)
    (tales tales' : Nat → Option Admission → Prop) : Prop where
  unknown : ∀ n, n ∉ s.connections.map (·.number) → tales n none → tales' n none
  knocks : ∀ c ∈ s.connections, c.line.AtRest → ∀ deadline, c.phase = .greeting deadline →
    ∀ bytes, e = .send c.number bytes → (knock? g bytes).isSome → tales c.number none →
      ∀ room, tales' c.number (some ⟨s.lobby.nextTicket, room, c.id⟩)
  speaks : ∀ c ∈ s.connections, c.line.AtRest → ∀ a ∈ s.lobby.held,
    c.phase = .member a.ticket none → a.conn = c.id → ∀ bytes, e = .send c.number bytes →
      tales c.number (some a) → tales' c.number (some a)
  others : ∀ c ∈ s.connections, c.phase ≠ .ended → (∀ bytes, e ≠ .send c.number bytes) →
    ∀ a? : Option Admission, (∀ a ∈ a?, a ∈ s.lobby.held ∧ a.conn = c.id) → tales c.number a? →
      tales' c.number a?

/-- The writers go on after what was asked was done. -/
theorem Housed.settled {l : Lobby σ} (h : Housed g limits tales logs none none s)
    (hcalm : Calm l s.lobby) :
    Housed g limits tales logs none none (s.settle g) ∧ Calm l (s.settle g).lobby := by
  obtain ⟨hsettled, hquiet⟩ := h.settle
  exact ⟨hsettled, hcalm.trans hquiet⟩

theorem Housed.wake {l : Lobby σ} (h : Housed g limits tales logs none none s)
    (hcalm : Calm l s.lobby) (n : Nat) :
    Housed g limits tales logs none none (s.wake g n) ∧ Calm l (s.wake g n).lobby := by
  obtain ⟨hproceeded, hlobby⟩ := h.proceedFully n
  exact hproceeded.settled (hlobby ▸ hcalm)

theorem Housed.proceed_set
    (h : Housed g limits tales logs none none (s.setConnection ⟨n, line, phase⟩))
    (hphase : ∀ deadline, phase ≠ .greeting deadline) :
    (s.setConnection ⟨n, line, phase⟩).proceed g n = s.setConnection ⟨n, line, phase⟩ := by
  refine h.proceed_eq fun line' deadline hmem => ?_
  obtain ⟨-, hne⟩ | ⟨hsame, -⟩ := mem_setConnection.mp hmem
  · exact absurd rfl hne
  · cases hsame
    exact absurd rfl (hphase deadline)

/-- One stage or two bring a connection to rest. -/
theorem Housed.wake_of_stages {l : Lobby σ} {s' : Server σ}
    (h : Housed g limits tales logs none none (s'.setConnection ⟨n, line, phase⟩))
    (hphase : ∀ deadline, phase ≠ .greeting deadline) (hcalm : Calm l s'.lobby)
    (hstages : s.proceed g n = s'.setConnection ⟨n, line, phase⟩ ∨
      (s.proceed g n).proceed g n = s'.setConnection ⟨n, line, phase⟩) :
    Housed g limits tales logs none none (s.wake g n) ∧ Calm l (s.wake g n).lobby := by
  have hrest := h.proceed_set hphase
  unfold Server.wake Server.proceedFully
  obtain hstage | hstages := hstages
  · rw [hstage, hrest, hrest]
    exact h.settled hcalm
  · rw [hstages, hrest]
    exact h.settled hcalm

/-- A client asks for a place, or does not and is refused. -/
theorem Housed.greet (h : Housed g limits tales logs (some n) none s)
    (hc : ⟨n, { line with inbox := [bytes] }, .greeting deadline⟩ ∈ s.connections)
    (hrest : line.AtRest) (hlog : logs n ++ line.arrivals = [])
    (htale : (knock? g bytes).isSome → ∀ room,
      tales n (some ⟨s.lobby.nextTicket, room, UInt32.ofNat n⟩)) :
    Housed g limits tales logs none none (s.wake g n) ∧
      Calm (s.lobby.run g ((knock? g bytes).toList.map fun wanted =>
        .join (UInt32.ofNat n) wanted s.buffer)) (s.wake g n).lobby := by
  have hthere : ∃ x ∈ s.connections, x.number = n := ⟨_, hc, rfl⟩
  have hread : ({ line with reads := line.reads + 1 } : Line).AtRest := hrest.withReads _
  have hfirst : s.proceed g n =
      s.greet g ⟨n, { line with reads := line.reads + 1 }, .greeting deadline⟩ bytes := by
    unfold Server.proceed
    rw [h.toNumbered.connection?_iff.mpr ⟨hc, rfl⟩]
    simp only [Line.read_eq (l := { line with inbox := [bytes] }) hrest.faults]
    rw [← hrest.inbox]
  cases hknock : knock? g bytes with
  | none =>
    obtain ⟨refusal, hrefuse⟩ := greet_of_not_knock hknock s
    refine (h.refused hthere { line with reads := line.reads + 1 } hlog refusal).wake_of_stages
      (fun _ => Phase.noConfusion) (.refl _) (.inr ?_)
    rw [hfirst, hrefuse, h.toNumbered.refuse_eq g hread.faults hthere]
  | some wanted =>
    rw [hknock] at htale
    have hjoined := h.join hthere wanted s.buffer
    have hheld := h.tenanted.bounded.join_held g (UInt32.ofNat n) wanted s.buffer h.tenanted.wired
    have hticket : (s.lobby.join g (UInt32.ofNat n) wanted s.buffer).1 = s.lobby.nextTicket := rfl
    have henter := greet_of_knock (c := ⟨n, { line with reads := line.reads + 1 },
      .greeting deadline⟩) hknock s
    have hrun : s.lobby.run g [.join (UInt32.ofNat n) wanted s.buffer] =
        (s.lobby.join g (UInt32.ofNat n) wanted s.buffer).2.2 := rfl
    simp only [Option.toList_some, List.map_cons, List.map_nil, hrun]
    unfold Server.enter at henter
    simp only [Connection.id] at henter
    cases hjoin : s.lobby.join g (UInt32.ofNat n) wanted s.buffer with
    | mk ticket rest =>
      obtain ⟨answer, lobby⟩ := rest
      rw [hjoin] at hjoined hheld hticket henter
      cases hticket
      cases answer with
      | ok room =>
        simp only at hjoined hheld henter ⊢
        have hmember : (⟨s.lobby.nextTicket, room, UInt32.ofNat n⟩ : Admission) ∈ lobby.held := by
          rw [hheld]
          exact List.mem_cons_self
        have hput := hjoined.put hthere (({ line with reads := line.reads + 1 } : Line).sent
          (ControlFrame.joined room (UInt32.ofNat n)).encode) (.member s.lobby.nextTicket none)
          (.member (hread.sent _) hmember ?_ (htale rfl room)) rfl
        · refine hput.wake_of_stages (fun _ => Phase.noConfusion) (.refl _) (.inr ?_)
          rw [hfirst, henter]
          exact hjoined.toNumbered.joined_eq g hread.faults hread.clientPresent hthere _ _
        · rw [Line.sent, ← List.append_assoc]
          rw [show logs n ++ line.arrivals = [] from hlog]
          rfl
      | error e =>
        simp only at hjoined henter ⊢
        have hdropped := hjoined.mere (.dropMailbox s.lobby.nextTicket) trivial
        refine (hdropped.refused hthere { line with reads := line.reads + 1 } hlog
          e.refusal).wake_of_stages (fun _ => Phase.noConfusion) ⟨rfl, rfl, rfl, rfl⟩ (.inr ?_)
        rw [hfirst, henter]
        exact hdropped.toNumbered.refuse_eq g hread.faults hthere _

/-- A member speaks to its room, and control frames are not passed on. -/
theorem Housed.speak {ticket : Ticket} {room : RoomId}
    (h : Housed g limits tales logs (some n) (some ticket) s)
    (hc : ⟨n, { line with inbox := [bytes] }, .member ticket none⟩ ∈ s.connections)
    (hrest : line.AtRest) (ha : ⟨ticket, room, UInt32.ofNat n⟩ ∈ s.lobby.held)
    (hlog : (logs n ++ line.arrivals).head? = some (welcome (UInt32.ofNat n) room))
    (htale : tales n (some ⟨ticket, room, UInt32.ofNat n⟩)) :
    Housed g limits tales logs none none (s.wake g n) ∧
      Calm (s.lobby.run g (if isControlFrame bytes then []
        else [.send ⟨ticket, room, UInt32.ofNat n⟩ (UInt32.ofNat n) bytes])) (s.wake g n).lobby := by
  have hthere : ∃ x ∈ s.connections, x.number = n := ⟨_, hc, rfl⟩
  have hread : ({ line with reads := line.reads + 1 } : Line).AtRest := hrest.withReads _
  have hfirst : s.proceed g n =
      s.listen g ⟨n, { line with inbox := [bytes] }, .member ticket none⟩ ticket := by
    unfold Server.proceed
    rw [h.toNumbered.connection?_iff.mpr ⟨hc, rfl⟩]
  unfold Server.listen at hfirst
  rw [Lobby.admission?_of_nodup h.tenanted.wired.held_nodup ha] at hfirst
  simp only [hrest.readAll_sent, Server.forward, Bool.false_eq_true, false_or] at hfirst
  -- a member whose frame was dealt with is at rest again
  have hstays : ∀ lobby, Housed g limits tales logs (some n) (some ticket) { s with lobby := lobby } →
      ⟨ticket, room, UInt32.ofNat n⟩ ∈ lobby.held → s.proceed g n =
        { s with lobby := lobby }.setConnection
          ⟨n, { line with reads := line.reads + 1 }, .member ticket none⟩ →
      Housed g limits tales logs none none (s.wake g n) ∧ Calm lobby (s.wake g n).lobby := by
    intro lobby hmid hheld hstage
    have hput := hmid.put hthere _ _ (.member hread hheld hlog htale) rfl
    exact hput.wake_of_stages (fun _ => Phase.noConfusion) (.refl _) (.inl hstage)
  by_cases hcontrol : isControlFrame bytes = true
  · rw [if_pos hcontrol] at hfirst ⊢
    exact hstays s.lobby h ha (by simpa using hfirst)
  · rw [if_neg hcontrol] at hfirst ⊢
    have hsent := h.mere (.send ⟨ticket, room, UInt32.ofNat n⟩ (UInt32.ofNat n) bytes) trivial
    have hheld := (Lobby.perform_mere g s.lobby
      (.send ⟨ticket, room, UInt32.ofNat n⟩ (UInt32.ofNat n) bytes) trivial).2.1
    have hrun : s.lobby.run g [.send ⟨ticket, room, UInt32.ofNat n⟩ (UInt32.ofNat n) bytes] =
        (s.lobby.send g ⟨ticket, room, UInt32.ofNat n⟩ (UInt32.ofNat n) bytes).2 := rfl
    simp only [Lobby.perform] at hsent hheld
    rw [hrun]
    cases hroom : s.lobby.rooms.lookup room with
    | some r =>
      have hsend : s.lobby.send g ⟨ticket, room, UInt32.ofNat n⟩ (UInt32.ofNat n) bytes =
          (.ok (), s.lobby.command g room (.frame (UInt32.ofNat n) bytes)) := by
        unfold Lobby.send
        simp only [hroom]
      rw [hsend] at hfirst hsent hheld ⊢
      exact hstays _ hsent (hheld ▸ ha) (by simpa using hfirst)
    | none =>
      have hsend : s.lobby.send g ⟨ticket, room, UInt32.ofNat n⟩ (UInt32.ofNat n) bytes =
          (.error (.unavailable room), s.lobby) := by
        unfold Lobby.send
        simp only [hroom]
      rw [hsend] at hfirst ⊢
      simp only [if_true] at hfirst
      have hleft := h.leave hthere ha { line with reads := line.reads + 1 }
        fun room' hlog' _ => past_of_head? (h.tenanted.past ha hroom) hlog
          { line with reads := line.reads + 1 } ⟨[], (List.append_nil _).symm⟩ hlog'
      have hcalm := h.leave_calm ha hroom { line with reads := line.reads + 1 }
      rw [finish_member g rfl] at hfirst hleft hcalm
      exact hleft.wake_of_stages (fun _ => Phase.noConfusion) hcalm (.inl hfirst)

/-- A client sends nothing more, or it goes. -/
theorem Housed.part (h : Housed g limits tales logs none none s)
    {c : Connection} (hc : c ∈ s.connections) {line' : Line} (hfaults : line'.faults = c.line.faults)
    (hinbox : line'.inbox = c.line.inbox) (hserver : line'.serverPresent = c.line.serverPresent)
    (hclosed : line'.clientSending = false) :
    Housed g limits tales logs none none
        ((s.setConnection ⟨c.number, line', c.phase⟩).wake g c.number) ∧
      Calm (s.lobby.run g (c.phase.ticket?.toList.map .release))
        ((s.setConnection ⟨c.number, line', c.phase⟩).wake g c.number).lobby := by
  obtain ⟨n, line, phase⟩ := c
  have hthere : ∃ x ∈ s.connections, x.number = n := ⟨_, hc, rfl⟩
  have hthere' : ∃ x ∈ (s.setConnection ⟨n, line', phase⟩).connections, x.number = n :=
    ⟨_, mem_setConnection.mpr (.inr ⟨rfl, hthere⟩), rfl⟩
  have hfound := h.toNumbered.connection?_set hthere line' phase
  have hstands := h.stands _ hc (Option.some_ne_none _)
  simp only at hstands hfaults hinbox hserver ⊢
  cases hstands with
  | greeting hrest hlog htale deadline =>
    have hbusy := (h.except hc Phase.noConfusion).touch line' (.greeting deadline)
    have hput := hbusy.put hthere' line'.hangUp .ended
      (.ended (Line.hangUp_gone line') fun room _ hsends => ?_) rfl
    · refine hput.wake_of_stages (fun _ => Phase.noConfusion) (.refl _) (.inl ?_)
      unfold Server.proceed
      rw [hfound]
      have hread : line'.read = (.ended, line') := by
        rw [Line.read_eq (hfaults.trans hrest.faults), hinbox.trans hrest.inbox, hclosed]
        rfl
      simp only [hread]
      exact finish_bare g rfl _
    · rw [Line.hangUp_clientSending, hclosed] at hsends
      cases hsends
  | @member hrest room ticket hheld hlog htale =>
    have hbusy := (h.except hc Phase.noConfusion).touch line' (.member ticket none)
    have hleft := hbusy.leave hthere' hheld line' fun room' _ hsends => by
      rw [hclosed] at hsends
      cases hsends
    rw [finish_member g rfl] at hleft
    refine hleft.wake_of_stages (fun _ => Phase.noConfusion) ⟨rfl, rfl, rfl, rfl⟩ (.inl ?_)
    unfold Server.proceed
    rw [hfound]
    simp only [Server.listen]
    have hfound' : (s.setConnection ⟨n, line', .member ticket none⟩).lobby.admission? ticket =
        some ⟨ticket, room, UInt32.ofNat n⟩ :=
      Lobby.admission?_of_nodup h.tenanted.wired.held_nodup hheld
    rw [hfound']
    simp only [Line.readAll_closed (hfaults.trans hrest.faults) (hinbox.trans hrest.inbox) hclosed,
      Server.forward, true_or, if_true]
    exact finish_member g rfl _
  | ended hgone hpast => exact (h.fade hc (hserver.trans hgone) hclosed).wake (.refl _) n

/-- A client connects that nothing is known of yet. -/
theorem Housed.connect (h : Housed g limits tales logs none none s)
    (hnew : ∀ c ∈ s.connections, c.phase ≠ .ended → c.id ≠ UInt32.ofNat s.nextConn)
    (hlogs : logs s.nextConn = []) (deadline : Nat) :
    Housed g limits tales logs none none { s with
      connections := s.connections ++ [⟨s.nextConn, {}, .greeting deadline⟩]
      nextConn := s.nextConn + 1 } := by
  have hcases : ∀ {x : Connection},
      x ∈ s.connections ++ [⟨s.nextConn, {}, .greeting deadline⟩] →
        x ∈ s.connections ∨ x = ⟨s.nextConn, {}, .greeting deadline⟩ := fun hx =>
    (List.mem_append.mp hx).imp_right List.mem_singleton.mp
  refine ⟨h.toNumbered.connect rfl, h.tenanted, fun x hx hne => ?_, fun a ha => ?_,
    fun x hx y hy hx' hy' hid => ?_, fun m hm => h.unknown m fun hold => hm ?_⟩
  · obtain hx | rfl := hcases hx
    · exact h.stands x hx hne
    · have htale := h.unknown s.nextConn h.toNumbered.nextConn_not_mem
      exact .greeting ⟨rfl, rfl, rfl, rfl, rfl⟩ (by rw [hlogs]; rfl) htale deadline
  · obtain hmine | ⟨x, hx, hne, hticket⟩ := h.owned a ha
    · cases hmine
    · exact .inr ⟨x, List.mem_append_left _ hx, hne, hticket⟩
  · obtain hx | rfl := hcases hx
    · obtain hy | rfl := hcases hy
      · exact h.apart x hx y hy hx' hy' hid
      · exact absurd hid (hnew x hx (hx'.resolve_right (Option.some_ne_none _)))
    · obtain hy | rfl := hcases hy
      · exact absurd hid.symm (hnew y hy (hy'.resolve_right (Option.some_ne_none _)))
      · rfl
  · rw [List.map_append]
    exact List.mem_append_left _ hold

/-- A frame comes from a client. -/
theorem Housed.hear (h : Housed g limits tales logs none none s) (n : Nat) (bytes : List UInt8)
    (hretells : Retells g s (.send n bytes) tales tales') :
    Housed g limits tales' logs none none (s.hear g n bytes).2 ∧
      Calm (s.lobby.run g (s.requests g (.send n bytes))) (s.hear g n bytes).2.lobby := by
  -- all is as before, unless the client is known and its connection is not over
  have hidle : (∀ c ∈ s.connections, c.number = n → c.phase = .ended) →
      Housed g limits tales' logs none none s := by
    intro hended
    refine h.retell hretells.unknown fun c hc _ hopen a? ha? htale => ?_
    refine hretells.others c hc hopen (fun bytes' heq => ?_) a? ha? htale
    cases heq
    exact hopen (hended c hc rfl)
  unfold Server.hear
  simp only [requests]
  cases hfound : s.connection? n with
  | none =>
    refine ⟨hidle fun c hc hnumber => ?_, .refl _⟩
    exact absurd (List.mem_map_of_mem hc) (hnumber ▸ connection?_eq_none.mp hfound)
  | some c =>
    obtain ⟨hmem, hnumber⟩ := mem_of_connection? hfound
    obtain ⟨n', line, phase⟩ := c
    cases hnumber
    have hstands := h.stands _ hmem (Option.some_ne_none _)
    have hothers : ∀ {mine}, Housed g limits tales logs (some n') mine s →
        Housed g limits tales' logs (some n') mine s := by
      intro mine hbusy
      refine hbusy.retell hretells.unknown fun c hc hne hopen a? ha? htale => ?_
      refine hretells.others c hc hopen (fun bytes' heq => ?_) a? ha? htale
      cases heq
      exact hne rfl
    have hmem' : ∀ line' phase', ⟨n', line', phase'⟩ ∈
        (s.setConnection ⟨n', line', phase'⟩).connections :=
      fun _ _ => mem_setConnection.mpr (.inr ⟨rfl, _, hmem, rfl⟩)
    simp only at hstands ⊢
    cases hstands with
    | greeting hrest hlog htale deadline =>
      have hbusy := (hothers (h.except hmem Phase.noConfusion)).touch { line with inbox := [bytes] }
        (.greeting deadline)
      simp only [if_pos hrest.clientPresent, hrest.clientSend]
      refine hbusy.greet (hmem' _ _) hrest hlog fun hknock room => ?_
      exact hretells.knocks _ hmem hrest _ rfl bytes rfl hknock htale room
    | @member hrest room ticket hheld hlog htale =>
      have hbusy := (hothers (h.except hmem Phase.noConfusion)).touch { line with inbox := [bytes] }
        (.member ticket none)
      have hspeak := hbusy.speak (hmem' _ _) hrest hheld hlog
        (hretells.speaks _ hmem hrest _ hheld rfl rfl bytes rfl htale)
      simp only [if_pos hrest.clientPresent, hrest.clientSend,
        Lobby.admission?_of_nodup h.tenanted.wired.held_nodup hheld]
      exact hspeak
    | ended hgone hpast =>
      have hsame := hidle fun c hc hnumber => by rw [h.eq_of_number hc hmem hnumber]
      split
      · obtain ⟨fault, hfails⟩ := Line.clientSend_of_gone hgone bytes
        simp only [hfails]
        exact ⟨hsame, .refl _⟩
      · exact ⟨hsame, .refl _⟩

/-- A member's client is there. -/
theorem Stands.ticket?_eq_none {l : Lobby σ} {tale : Option Admission → Prop} {id : ConnId}
    {log : List Arrival} (h : Stands l tale id line log phase) (habsent : ¬ line.clientPresent = true) :
    phase.ticket? = none := by
  cases h with
  | greeting | ended => rfl
  | member hrest => exact absurd hrest.clientPresent habsent

/-- In every event the rooms do what they are asked, and nothing else happens to them. -/
theorem Housed.event (h : Housed g limits tales logs none none s) {e : Event}
    (hproper : s.Proper e) (hlogs : logs s.nextConn = []) (hretells : Retells g s e tales tales') :
    Housed g limits tales' logs none none (s.perform g e) ∧
      Calm (s.lobby.run g (s.requests g e)) (s.perform g e).lobby := by
  have hothers : (∀ n bytes, e ≠ .send n bytes) → Housed g limits tales' logs none none s :=
    fun he => h.retell hretells.unknown fun c hc _ hopen a? ha? htale =>
      hretells.others c hc hopen (he c.number) a? ha? htale
  have hidle : (∀ n bytes, e ≠ .send n bytes) → Housed g limits tales' logs none none s ∧
      Calm (s.lobby.run g []) s.lobby := fun he => ⟨hothers he, .refl _⟩
  cases e with
  | send n bytes => exact h.hear n bytes hretells
  | connect faults =>
    obtain ⟨rfl, hnew⟩ := hproper
    simp only [perform, requests, Server.connect]
    split
    · exact hidle fun _ _ => Event.noConfusion
    · exact ((hothers fun _ _ => Event.noConfusion).connect hnew hlogs _).wake (.refl _) _
  | close n | leave n =>
    simp only [perform, requests, Server.hearEnd, Server.lose]
    cases hfound : s.connection? n with
    | none => exact hidle fun _ _ => Event.noConfusion
    | some c =>
      obtain ⟨hmem, rfl⟩ := mem_of_connection? hfound
      simp only [Option.bind_some]
      split
      · exact (hothers fun _ _ => Event.noConfusion).part hmem rfl rfl rfl rfl
      · rename_i habsent
        rw [(h.stands c hmem (Option.some_ne_none _)).ticket?_eq_none habsent]
        exact hidle fun _ _ => Event.noConfusion
  | advance ms =>
    have hpassed := (hothers fun _ _ => Event.noConfusion).mere (.advance ms) trivial
    obtain ⟨hgone, hcalm⟩ := List.foldlRecOn (s.connections.map (·.number))
      (fun s n => s.proceedFully g n)
      (motive := fun s' => Housed g limits tales' logs none none s' ∧
        Calm (s.lobby.advance g ms) s'.lobby) ⟨hpassed, .refl _⟩ fun s' hs' n _ => by
          obtain ⟨hproceeded, hlobby⟩ := hs'.1.proceedFully n
          exact ⟨hproceeded, hlobby ▸ hs'.2⟩
    exact hgone.settled hcalm
  | shutdownRoom room reason =>
    have hs := hothers fun _ _ => Event.noConfusion
    exact (hs.mere (.shutdownRoom room reason) trivial).settled (.refl _)
  | shutdown reason =>
    have hs := hothers fun _ _ => Event.noConfusion
    exact (hs.mere (.shutdown reason) trivial).settled (.refl _)
  | stop =>
    simp only [perform, requests, Server.stop]
    split
    · exact hidle fun _ _ => Event.noConfusion
    · have hs := hothers fun _ _ => Event.noConfusion
      obtain ⟨hclosed, hcalm⟩ :=
        (hs.mere (.shutdown serverShutdownReason) trivial).settled (.refl _)
      exact ⟨⟨⟨hclosed.nodup, hclosed.lt⟩, hclosed.tenanted, hclosed.stands, hclosed.owned,
        hclosed.apart, hclosed.unknown⟩, hcalm⟩

end Server

end Gamewire
