import Gamewire.Proofs.Room.Tenancy
import Gamewire.Proofs.Server.Run
import Gamewire.Proofs.Wire.Bytes

/-! Connections and admissions, one by one. On lines without faults a connection holds an admission
from the moment in which it is told that it is in a room, until its client goes or the room does. -/
namespace Gamewire
set_option autoImplicit false

/-! ## Lines without faults -/

namespace Line

variable {l : Line} {bytes : List UInt8}

/-- Both sides are there, and everything was read. -/
structure AtRest (l : Line) : Prop where
  faults : l.faults = {}
  inbox : l.inbox = []
  clientPresent : l.clientPresent = true
  clientSending : l.clientSending = true
  serverPresent : l.serverPresent = true

theorem startSend_eq (h : l.faults = {}) : l.startSend = (.takes 0, { l with sends := l.sends + 1 }) := by
  unfold startSend
  rw [h]
  rfl

theorem read_eq (h : l.faults = {}) : l.read =
    match l.inbox with
    | bytes :: inbox => (.frame bytes, { l with inbox := inbox, reads := l.reads + 1 })
    | [] => (if l.clientSending then .waits else .ended, l) := by
  unfold read
  rw [h]
  rfl

theorem AtRest.withReads (h : l.AtRest) (reads : Nat) : ({ l with reads := reads } : Line).AtRest :=
  ⟨h.faults, h.inbox, h.clientPresent, h.clientSending, h.serverPresent⟩

theorem AtRest.read (h : l.AtRest) : l.read = (.waits, l) := by
  rw [read_eq h.faults, h.inbox]
  simp only [h.clientSending, if_true]

theorem AtRest.readAll (h : l.AtRest) : l.readAll = ([], false, l) := by
  unfold Line.readAll readUpTo
  rw [h.read]

/-- The client sends a frame, and the line is read. -/
theorem AtRest.readAll_sent (h : l.AtRest) (bytes : List UInt8) :
    ({ l with inbox := [bytes] } : Line).readAll = ([bytes], false, { l with reads := l.reads + 1 }) := by
  have hsame : ({ l with inbox := [], reads := l.reads + 1 } : Line) =
      { l with reads := l.reads + 1 } := by rw [← h.inbox]
  unfold Line.readAll readUpTo
  rw [read_eq (l := { l with inbox := [bytes] }) h.faults]
  simp only [List.length_singleton, readUpTo]
  rw [hsame, (h.withReads _).read]

/-- The client is done, and everything was read before. -/
theorem readAll_closed (hfaults : l.faults = {}) (hinbox : l.inbox = [])
    (hclosed : l.clientSending = false) : l.readAll = ([], true, l) := by
  unfold Line.readAll readUpTo
  rw [read_eq hfaults, hinbox]
  simp only [hclosed, Bool.false_eq_true, if_false]

theorem deliver_eq (h : l.clientPresent = true) (bytes : List UInt8) :
    l.deliver bytes = some { l with arrivals := l.arrivals ++ [.frame bytes] } := by
  unfold deliver
  rw [if_pos h]

/-- What is left of a line over which a frame was sent. -/
def sent (bytes : List UInt8) (l : Line) : Line :=
  { l with sends := l.sends + 1, arrivals := l.arrivals ++ [.frame bytes] }

theorem AtRest.sent (h : l.AtRest) (bytes : List UInt8) : (l.sent bytes).AtRest :=
  ⟨h.faults, h.inbox, h.clientPresent, h.clientSending, h.serverPresent⟩

theorem AtRest.clientSend (h : l.AtRest) (bytes : List UInt8) :
    l.clientSend bytes = .ok { l with inbox := [bytes] } := by
  unfold Line.clientSend
  simp only [h.clientSending, h.serverPresent, h.inbox, Bool.not_true, Bool.false_eq_true, if_false,
    List.nil_append]

theorem clientSend_of_gone (h : l.serverPresent = false) (bytes : List UInt8) :
    ∃ fault, l.clientSend bytes = .error fault := by
  unfold Line.clientSend
  rw [h]
  split
  · exact ⟨_, rfl⟩
  · exact ⟨_, rfl⟩

theorem hangUp_gone (l : Line) : l.hangUp.serverPresent = false := by
  unfold hangUp
  split <;> rfl

theorem hangUp_clientSending (l : Line) : l.hangUp.clientSending = l.clientSending := by
  unfold hangUp
  split <;> rfl

/-- Hanging up adds nothing in front. -/
theorem hangUp_prefix (l : Line) : ∃ rest, l.hangUp.arrivals = l.arrivals ++ rest ∧
    rest ⊆ [.hungUp] := by
  unfold hangUp
  split
  · exact ⟨[.hungUp], rfl, List.Subset.refl _⟩
  · exact ⟨[], (List.append_nil _).symm, List.nil_subset _⟩

end Line

theorem ControlFrame.joined_inj {room room' : RoomId} {conn : ConnId}
    (h : (joined room conn).encode = (joined room' conn).encode) : room = room' := by
  simp only [encode, List.cons.injEq, true_and] at h
  have hwords := List.append_inj_left h (by simp only [wordBytes, toLittleEndian_length])
  have hnat := congrArg ofLittleEndian hwords
  have hlt : ∀ n : UInt32, n.toNat < 256 ^ 4 := fun n => n.toNat_lt
  rw [wordBytes, wordBytes, ofLittleEndian_toLittleEndian, ofLittleEndian_toLittleEndian,
    Nat.mod_eq_of_lt (hlt room), Nat.mod_eq_of_lt (hlt room')] at hnat
  exact UInt32.toNat_inj.mp hnat

namespace Server

variable {σ : Type} {g : Game σ} {s : Server σ} {c : Connection} {n : Nat}

/-! ## Connections that are set -/

section

variable {line line' : Line} {phase phase' : Phase}

/-- Of two settings of a connection the last one counts. -/
theorem setConnection_again (s : Server σ) :
    (s.setConnection ⟨n, line', phase'⟩).setConnection ⟨n, line, phase⟩ =
      s.setConnection ⟨n, line, phase⟩ := by
  unfold setConnection
  simp only [List.map_map, mk.injEq, true_and, and_true]
  refine List.map_congr_left fun x _ => ?_
  simp only [Function.comp_apply]
  by_cases hx : x.number = n
  · simp only [hx, if_true]
  · simp only [hx, if_false]

theorem finish_set (g : Game σ) (s : Server σ) :
    (s.setConnection ⟨n, line', phase'⟩).finish g ⟨n, line, phase⟩ = s.finish g ⟨n, line, phase⟩ := by
  unfold finish
  split
  · rename_i ticket _
    exact setConnection_again { s with lobby := (s.lobby.release g ticket).dropMailbox ticket }
  · exact setConnection_again s

end

theorem Numbered.setConnection_self (h : Numbered s) (hc : c ∈ s.connections) :
    s.setConnection c = s := by
  unfold Server.setConnection
  have hsame : (s.connections.map fun x => if x.number = c.number then c else x) = s.connections := by
    refine (List.map_congr_left fun x hx => ?_).trans (List.map_id _)
    split
    · rename_i hnumber
      exact h.eq_of_number hc hx hnumber.symm
    · rfl
  rw [hsame]

theorem Numbered.connection?_set (h : Numbered s) (hthere : ∃ x ∈ s.connections, x.number = n)
    (line : Line) (phase : Phase) :
    (s.setConnection ⟨n, line, phase⟩).connection? n = some ⟨n, line, phase⟩ :=
  (h.setConnection _).connection?_iff.mpr ⟨mem_setConnection.mpr (.inr ⟨rfl, hthere⟩), rfl⟩

/-- Who holds no admission is just hung up on. -/
theorem finish_bare (g : Game σ) (h : c.phase.ticket? = none) (s : Server σ) :
    s.finish g c = s.setConnection { c with phase := .ended, line := c.line.hangUp } := by
  unfold finish
  rw [h]

theorem finish_member (g : Game σ) {ticket : Ticket} (h : c.phase.ticket? = some ticket)
    (s : Server σ) : s.finish g c =
      { s with lobby := (s.lobby.release g ticket).dropMailbox ticket }.setConnection
        { c with phase := .ended, line := c.line.hangUp } := by
  unfold finish
  rw [h]

/-! ## Sending without a limit -/

section

variable {line : Line} {phase : Phase}

theorem startSend_eq (g : Game σ) (h : line.faults = {}) (next : Option Nat → Phase)
    (s : Server σ) : s.startSend g ⟨n, line, phase⟩ next =
      s.setConnection ⟨n, { line with sends := line.sends + 1 }, next (some s.now)⟩ := by
  unfold startSend
  simp only [Line.startSend_eq h, Nat.add_zero]

theorem isDue_now (t : Nat) : isDue t (some t) = true := decide_eq_true (Nat.le_refl t)

/-- What is left of a line over which a client was refused. -/
def refusedLine (line : Line) (refusal : Refusal) : Line :=
  let sent := { line with sends := line.sends + 1 }
  ((sent.deliver (ControlFrame.rejected refusal).encode).getD sent).hangUp

/-- A refusal arrives at once, and the server hangs up. -/
theorem Numbered.refuse_eq (h : Numbered s) (g : Game σ) (hfaults : line.faults = {})
    (hthere : ∃ x ∈ s.connections, x.number = n) (refusal : Refusal) :
    (s.refuse g ⟨n, line, phase⟩ refusal).proceed g n =
      s.setConnection ⟨n, refusedLine line refusal, .ended⟩ := by
  have hnow : ∀ c, (s.setConnection c).now = s.now := fun _ => rfl
  unfold Server.refuse
  rw [startSend_eq g hfaults]
  unfold Server.proceed
  rw [h.connection?_set hthere]
  simp only [hnow, isDue_now, if_true]
  rw [finish_set g s, finish_bare g rfl]
  rfl

/-- That a client is in a room arrives at once. -/
theorem Numbered.joined_eq (h : Numbered s) (g : Game σ) (hfaults : line.faults = {})
    (hpresent : line.clientPresent = true) (hthere : ∃ x ∈ s.connections, x.number = n)
    (ticket : Ticket) (bytes : List UInt8) :
    (s.startSend g ⟨n, line, phase⟩ (.joining ticket bytes)).proceed g n =
      s.setConnection ⟨n, line.sent bytes, .member ticket none⟩ := by
  have hnow : ∀ c, (s.setConnection c).now = s.now := fun _ => rfl
  have hdeliver : ({ line with sends := line.sends + 1 } : Line).deliver bytes =
      some (line.sent bytes) :=
    Line.deliver_eq (l := { line with sends := line.sends + 1 }) hpresent bytes
  rw [startSend_eq g hfaults]
  unfold Server.proceed
  rw [h.connection?_set hthere]
  simp only [hnow, isDue_now, if_true, hdeliver]
  exact setConnection_again s

/-- What a room has for a member arrives at once, and the last of it ends the connection. -/
theorem startTransfer_eq (g : Game σ) (hfaults : line.faults = {})
    (hpresent : line.clientPresent = true) (ticket : Ticket) (bytes : List UInt8) (isLast : Bool)
    (s : Server σ) : s.startTransfer g ⟨n, line, phase⟩ ticket bytes isLast =
      if isLast then s.finish g ⟨n, line.sent bytes, phase⟩
      else s.setConnection ⟨n, line.sent bytes, phase⟩ := by
  have hdeliver : ({ line with sends := line.sends + 1 } : Line).deliver bytes =
      some (line.sent bytes) :=
    Line.deliver_eq (l := { line with sends := line.sends + 1 }) hpresent bytes
  unfold Server.startTransfer
  simp only [Line.startSend_eq hfaults, hdeliver]

end

/-! ## Where a connection stands -/

open Lobby (Past Calm)

/-- What a client gets first when it is let into a room. -/
def welcome (id : ConnId) (room : RoomId) : Arrival := .frame (ControlFrame.joined room id).encode

theorem welcome_inj {id : ConnId} {room room' : RoomId} (h : welcome id room = welcome id room') :
    room = room' :=
  ControlFrame.joined_inj (Arrival.frame.inj h)

/-- Between events a client was not heard of, or is in a room by an admission that it holds, or the
connection is over; if its client did not go, that is because the room did. The tale tells what is
known of the client besides. -/
inductive Stands (l : Lobby σ) (tale : Option Admission → Prop) (id : ConnId) (line : Line)
    (log : List Arrival) : Phase → Prop
  | greeting (hrest : line.AtRest) (hlog : log = []) (htale : tale none) (deadline : Nat) :
      Stands l tale id line log (.greeting deadline)
  | member (hrest : line.AtRest) {room : RoomId} {ticket : Ticket}
      (hheld : ⟨ticket, room, id⟩ ∈ l.held) (hlog : log.head? = some (welcome id room))
      (htale : tale (some ⟨ticket, room, id⟩)) : Stands l tale id line log (.member ticket none)
  | ended (hgone : line.serverPresent = false)
      (hpast : ∀ room, log.head? = some (welcome id room) → line.clientSending = true →
        Past room l) : Stands l tale id line log .ended

variable {l l' : Lobby σ} {tale : Option Admission → Prop} {id : ConnId} {line : Line}
  {log : List Arrival} {phase : Phase} {limits : Limits}

theorem Stands.lobby (h : Stands l tale id line log phase)
    (hheld : ∀ ticket room, phase.ticket? = some ticket → ⟨ticket, room, id⟩ ∈ l.held →
      (⟨ticket, room, id⟩ : Admission) ∈ l'.held)
    (hpast : ∀ room, Past room l → Past room l') : Stands l' tale id line log phase := by
  cases h with
  | greeting hrest hlog htale deadline => exact .greeting hrest hlog htale deadline
  | member hrest hmember hlog htale => exact .member hrest (hheld _ _ rfl hmember) hlog htale
  | ended hgone hended => exact .ended hgone fun room hlog hsends => hpast room (hended room hlog hsends)

/-- Everybody but a connection that is being dealt with, which may hold an admission, stands where it
should, and no admission is held by nobody. -/
structure Housed (g : Game σ) (limits : Limits) (tales : Nat → Option Admission → Prop)
    (logs : Nat → List Arrival) (busy : Option Nat) (mine : Option Ticket) (s : Server σ) : Prop
    extends Numbered s where
  tenanted : Lobby.Tenanted g limits s.lobby
  stands : ∀ c ∈ s.connections, some c.number ≠ busy →
    Stands s.lobby (tales c.number) c.id c.line (logs c.number ++ c.line.arrivals) c.phase
  owned : ∀ a ∈ s.lobby.held, mine = some a.ticket ∨
    ∃ c ∈ s.connections, some c.number ≠ busy ∧ c.phase.ticket? = some a.ticket
  apart : ∀ c ∈ s.connections, ∀ c' ∈ s.connections,
    (c.phase ≠ .ended ∨ some c.number = busy) → (c'.phase ≠ .ended ∨ some c'.number = busy) →
    c.id = c'.id → c.number = c'.number
  unknown : ∀ n, n ∉ s.connections.map (·.number) → tales n none

variable {tales : Nat → Option Admission → Prop} {logs : Nat → List Arrival} {busy : Option Nat}
  {mine : Option Ticket} {ticket : Ticket} {op : Operation}

/-- Whoever has a ticket holds the admission that came with it. -/
theorem Housed.member (h : Housed g limits tales logs busy mine s) (hc : c ∈ s.connections)
    (hne : some c.number ≠ busy) (hticket : c.phase.ticket? = some ticket) :
    c.line.AtRest ∧ ∃ room, ⟨ticket, room, c.id⟩ ∈ s.lobby.held ∧
      (logs c.number ++ c.line.arrivals).head? = some (welcome c.id room) ∧
      tales c.number (some ⟨ticket, room, c.id⟩) := by
  obtain ⟨number, line, phase⟩ := c
  have hstands := h.stands _ hc hne
  simp only at hstands hticket ⊢
  cases hstands with
  | greeting | ended => cases hticket
  | member hrest hheld hlog htale =>
    cases hticket
    exact ⟨hrest, _, hheld, hlog, htale⟩

/-- An admission has one holder. -/
theorem Housed.holder_eq (h : Housed g limits tales logs busy mine s) {c' : Connection}
    (hc : c ∈ s.connections) (hopen : c.phase ≠ .ended ∨ some c.number = busy) {a : Admission}
    (ha : a ∈ s.lobby.held) (hconn : a.conn = c.id) (hc' : c' ∈ s.connections)
    (hne : some c'.number ≠ busy) (hticket : c'.phase.ticket? = some a.ticket) :
    c'.number = c.number := by
  obtain ⟨-, room, hheld, -⟩ := h.member hc' hne hticket
  have hsame := List.inj_on_of_nodup_map h.tenanted.wired.held_nodup hheld ha rfl
  have hopen' : c'.phase ≠ .ended := by
    intro hended
    rw [hended] at hticket
    cases hticket
  exact h.apart c' hc' c hc (.inl hopen') hopen ((congrArg Admission.conn hsame).trans hconn)

theorem Housed.except (h : Housed g limits tales logs none none s) (hc : c ∈ s.connections)
    (hopen : c.phase ≠ .ended) :
    Housed g limits tales logs (some c.number) c.phase.ticket? s := by
  refine ⟨h.toNumbered, h.tenanted, fun x hx _ => h.stands x hx (Option.some_ne_none _),
    fun a ha => ?_, fun x hx y hy hx' hy' => ?_, h.unknown⟩
  · obtain hmine | ⟨x, hx, -, hticket⟩ := h.owned a ha
    · cases hmine
    · by_cases hsame : x.number = c.number
      · rw [h.eq_of_number hx hc hsame] at hticket
        exact .inl hticket
      · exact .inr ⟨x, hx, fun heq => hsame (Option.some.inj heq), hticket⟩
  · have hopened : ∀ z ∈ s.connections, z.phase ≠ .ended ∨ some z.number = some c.number →
        z.phase ≠ .ended ∨ some z.number = none := by
      rintro z hz (hphase | hnumber)
      · exact .inl hphase
      · rw [h.eq_of_number hz hc (Option.some.inj hnumber)]
        exact .inl hopen
    exact h.apart x hx y hy (hopened x hx hx') (hopened y hy hy')

/-- While a connection is dealt with it may be anything. -/
theorem Housed.touch (h : Housed g limits tales logs (some n) mine s) (line : Line) (phase : Phase) :
    Housed g limits tales logs (some n) mine (s.setConnection ⟨n, line, phase⟩) := by
  refine ⟨h.toNumbered.setConnection _, h.tenanted, fun x hx hne => ?_, fun a ha => ?_,
    fun x hx y hy hx' hy' hid => ?_, setConnection_numbers (σ := σ) _ s ▸ h.unknown⟩
  · obtain ⟨hx, -⟩ | ⟨rfl, -⟩ := mem_setConnection.mp hx
    · exact h.stands x hx hne
    · exact absurd rfl hne
  · refine (h.owned a ha).imp_right ?_
    rintro ⟨x, hx, hne, hticket⟩
    exact ⟨x, mem_setConnection.mpr (.inl ⟨hx, fun heq => hne (congrArg some heq)⟩), hne, hticket⟩
  · have hbefore : ∀ z ∈ (s.setConnection ⟨n, line, phase⟩).connections,
        (z.phase ≠ .ended ∨ some z.number = some n) → ∃ z' ∈ s.connections,
          z'.number = z.number ∧ (z'.phase ≠ .ended ∨ some z'.number = some n) := by
      intro z hz hopen
      obtain ⟨hz, -⟩ | ⟨rfl, z', hz', hnumber⟩ := mem_setConnection.mp hz
      · exact ⟨z, hz, rfl, hopen⟩
      · exact ⟨z', hz', hnumber, .inr (congrArg some hnumber)⟩
    obtain ⟨x', hx₀, hxn, hxo⟩ := hbefore x hx hx'
    obtain ⟨y', hy₀, hyn, hyo⟩ := hbefore y hy hy'
    have hsame : x'.id = y'.id := by
      rw [Connection.id, Connection.id, hxn, hyn]
      exact hid
    rw [← hxn, ← hyn]
    exact h.apart x' hx₀ y' hy₀ hxo hyo hsame

/-- The connection that was dealt with stands again. -/
theorem Housed.put (h : Housed g limits tales logs (some n) mine s)
    (hthere : ∃ x ∈ s.connections, x.number = n) (line : Line) (phase : Phase)
    (hstands : Stands s.lobby (tales n) (UInt32.ofNat n) line (logs n ++ line.arrivals) phase)
    (hmine : mine = phase.ticket?) :
    Housed g limits tales logs none none (s.setConnection ⟨n, line, phase⟩) := by
  have htouched := h.touch line phase
  have hmem : ⟨n, line, phase⟩ ∈ (s.setConnection ⟨n, line, phase⟩).connections :=
    mem_setConnection.mpr (.inr ⟨rfl, hthere⟩)
  refine ⟨htouched.toNumbered, h.tenanted, fun x hx _ => ?_, fun a ha => .inr ?_,
    fun x hx y hy hx' hy' => ?_, htouched.unknown⟩
  · by_cases hne : x.number = n
    · rw [htouched.eq_of_number hx hmem hne]
      exact hstands
    · exact htouched.stands x hx fun heq => hne (Option.some.inj heq)
  · obtain hticket | ⟨x, hx, -, hticket⟩ := htouched.owned a ha
    · exact ⟨_, hmem, Option.some_ne_none _, hmine.symm.trans hticket⟩
    · exact ⟨x, hx, Option.some_ne_none _, hticket⟩
  · exact htouched.apart x hx y hy (.inl (hx'.resolve_right (Option.some_ne_none _)))
      (.inl (hy'.resolve_right (Option.some_ne_none _)))

/-- Nothing is known of a client that went after its connection was over. -/
theorem Housed.fade (h : Housed g limits tales logs none none s) {line₀ : Line}
    (hc : ⟨n, line₀, .ended⟩ ∈ s.connections) (hpresent : line.serverPresent = false)
    (hsends : line.clientSending = false) :
    Housed g limits tales logs none none (s.setConnection ⟨n, line, .ended⟩) := by
  have hold : ∀ z ∈ (s.setConnection ⟨n, line, .ended⟩).connections, z.phase ≠ .ended →
      z ∈ s.connections := by
    intro z hz hopen
    obtain ⟨hz, -⟩ | ⟨rfl, -⟩ := mem_setConnection.mp hz
    · exact hz
    · exact absurd rfl hopen
  refine ⟨h.toNumbered.setConnection _, h.tenanted, fun x hx hne => ?_, fun a ha => .inr ?_,
    fun x hx y hy hx' hy' => ?_, setConnection_numbers (σ := σ) _ s ▸ h.unknown⟩
  · obtain ⟨hx, -⟩ | ⟨rfl, -⟩ := mem_setConnection.mp hx
    · exact h.stands x hx hne
    · refine .ended hpresent fun room _ hsending => ?_
      rw [hsends] at hsending
      cases hsending
  · obtain hmine | ⟨x, hx, hne, hticket⟩ := h.owned a ha
    · cases hmine
    · refine ⟨x, mem_setConnection.mpr (.inl ⟨hx, fun heq => ?_⟩), hne, hticket⟩
      rw [h.eq_of_number hx hc heq] at hticket
      cases hticket
  · have hx' := hx'.resolve_right (Option.some_ne_none _)
    have hy' := hy'.resolve_right (Option.some_ne_none _)
    exact h.apart x (hold x hx hx') y (hold y hy hy') (.inl hx') (.inl hy')

/-- Another tale may be told of everybody who is not dealt with. -/
theorem Housed.retell (h : Housed g limits tales logs busy mine s)
    {tales' : Nat → Option Admission → Prop}
    (hunknown : ∀ n, n ∉ s.connections.map (·.number) → tales n none → tales' n none)
    (hmore : ∀ c ∈ s.connections, some c.number ≠ busy → c.phase ≠ .ended →
      ∀ a? : Option Admission, (∀ a ∈ a?, a ∈ s.lobby.held ∧ a.conn = c.id) → tales c.number a? →
        tales' c.number a?) : Housed g limits tales' logs busy mine s := by
  refine ⟨h.toNumbered, h.tenanted, fun c hc hne => ?_, h.owned, h.apart,
    fun n hn => hunknown n hn (h.unknown n hn)⟩
  obtain ⟨n, line, phase⟩ := c
  have hstands := h.stands _ hc hne
  have hmore := hmore _ hc hne
  simp only at hstands hmore ⊢
  cases hstands with
  | greeting hrest hlog htale deadline =>
    have hnobody : ∀ a ∈ none, a ∈ s.lobby.held ∧ a.conn = UInt32.ofNat n := fun a ha =>
      absurd ha (Option.not_mem_none a)
    exact .greeting hrest hlog (hmore Phase.noConfusion none hnobody htale) deadline
  | member hrest hheld hlog htale =>
    refine .member hrest hheld hlog (hmore Phase.noConfusion (some _) ?_ htale)
    intro a ha
    rw [← Option.some.inj ha]
    exact ⟨hheld, rfl⟩
  | ended hgone hpast => exact .ended hgone hpast

/-! ## Operations -/

theorem Housed.mere (h : Housed g limits tales logs busy mine s) (op : Operation) (hop : op.Mere) :
    Housed g limits tales logs busy mine { s with lobby := s.lobby.perform g op } := by
  have hheld := (Lobby.perform_mere g s.lobby op hop).2.1
  have hnot : op ≠ .dismiss := by
    rintro rfl
    exact hop
  refine ⟨⟨h.nodup, h.lt⟩, h.tenanted.mere hop, fun c hc hne => ?_,
    fun a ha => h.owned a (hheld ▸ ha), h.apart, h.unknown⟩
  exact (h.stands c hc hne).lobby (fun _ _ _ ha => hheld.symm ▸ ha) fun room hpast =>
    hpast.perform h.tenanted.bounded g op hnot

/-- The admission of the connection that is dealt with is given back. -/
theorem Housed.release (h : Housed g limits tales logs (some n) (some ticket) s)
    (hthere : ∃ x ∈ s.connections, x.number = n) {room : RoomId}
    (hheld : (⟨ticket, room, UInt32.ofNat n⟩ : Admission) ∈ s.lobby.held) :
    Housed g limits tales logs (some n) none
      { s with lobby := s.lobby.release g ticket } := by
  have hmem : ∀ a, a ∈ (s.lobby.release g ticket).held ↔ a ∈ s.lobby.held ∧ a.ticket ≠ ticket := by
    intro a
    rw [Lobby.release_held, Lobby.free, List.mem_filter, bne_iff_ne]
  refine ⟨⟨h.nodup, h.lt⟩, h.tenanted.release ticket, fun c hc hne => ?_, fun a ha => ?_, h.apart,
    h.unknown⟩
  · refine (h.stands c hc hne).lobby (fun t room' hticket ha => (hmem _).mpr ⟨ha, ?_⟩)
      fun room' hpast => ?_
    · rintro rfl
      obtain ⟨x, hx, rfl⟩ := hthere
      exact hne (congrArg some (h.holder_eq hx (.inr rfl) hheld rfl hc hne hticket))
    · exact hpast.perform h.tenanted.bounded g (.release ticket) Operation.noConfusion
  · obtain ⟨ha, hne⟩ := (hmem a).mp ha
    obtain hmine | hother := h.owned a ha
    · exact absurd (Option.some.inj hmine).symm hne
    · exact .inr hother

theorem Housed.fresh (h : Housed g limits tales logs (some n) none s)
    (hthere : ∃ x ∈ s.connections, x.number = n) :
    ∀ a ∈ s.lobby.held, a.conn ≠ UInt32.ofNat n := by
  intro a ha hconn
  obtain ⟨y, hy, rfl⟩ := hthere
  obtain hmine | ⟨x, hx, hne, hticket⟩ := h.owned a ha
  · cases hmine
  · exact hne (congrArg some (h.holder_eq hy (.inr rfl) ha hconn hx hne hticket))

/-- The connection that is dealt with asks for a place. -/
theorem Housed.join (h : Housed g limits tales logs (some n) none s)
    (hthere : ∃ x ∈ s.connections, x.number = n) (wanted : Option RoomId) (buffer : Nat) :
    Housed g limits tales logs (some n)
      (match (s.lobby.join g (UInt32.ofNat n) wanted buffer).2.1 with
        | .ok _ => some s.lobby.nextTicket
        | .error _ => none)
      { s with lobby := (s.lobby.join g (UInt32.ofNat n) wanted buffer).2.2 } := by
  have hb := h.tenanted.bounded
  have hheld := hb.join_held g (UInt32.ofNat n) wanted buffer h.tenanted.wired
  refine ⟨⟨h.nodup, h.lt⟩, h.tenanted.join (h.fresh hthere) wanted buffer, fun c hc hne => ?_,
    fun a ha => ?_, h.apart, h.unknown⟩
  · refine (h.stands c hc hne).lobby (fun _ _ _ ha => ?_) fun room hpast => ?_
    · rw [hheld]
      exact List.mem_append_right _ ha
    · exact hpast.perform hb g (.join (UInt32.ofNat n) wanted buffer) Operation.noConfusion
  · rw [hheld] at ha
    cases hanswer : (s.lobby.join g (UInt32.ofNat n) wanted buffer).2.1 with
    | ok room =>
      rw [hanswer] at ha
      obtain rfl | ha := List.mem_cons.mp ha
      · exact .inl rfl
      · exact .inr ((h.owned a ha).resolve_left (Option.some_ne_none _).symm)
    | error e =>
      rw [hanswer] at ha
      exact .inr ((h.owned a ha).resolve_left (Option.some_ne_none _).symm)

/-! ## The end of a membership -/

/-- A member's connection ends, because its client or its room is gone. -/
theorem Housed.leave (h : Housed g limits tales logs (some n) (some ticket) s)
    (hthere : ∃ x ∈ s.connections, x.number = n) {room : RoomId}
    (hheld : (⟨ticket, room, UInt32.ofNat n⟩ : Admission) ∈ s.lobby.held) (line : Line)
    (hlast : ∀ room, (logs n ++ line.hangUp.arrivals).head? = some (welcome (UInt32.ofNat n) room) →
      line.clientSending = true → Past room s.lobby) :
    Housed g limits tales logs none none (s.finish g ⟨n, line, .member ticket none⟩) := by
  have hreleased := (h.release hthere hheld).mere (.dropMailbox ticket) trivial
  rw [finish_member g rfl]
  refine hreleased.put hthere _ _ (.ended (Line.hangUp_gone line) fun room hlog hsends => ?_) rfl
  rw [Line.hangUp_clientSending] at hsends
  have hreleased' : Past room (s.lobby.release g ticket) :=
    (hlast room hlog hsends).perform h.tenanted.bounded g (.release ticket) Operation.noConfusion
  exact hreleased'.calm ⟨rfl, rfl, rfl, rfl⟩

/-- If it is the room that is gone, no room notices. -/
theorem Housed.leave_calm (h : Housed g limits tales logs busy mine s) {room : RoomId}
    (hheld : (⟨ticket, room, UInt32.ofNat n⟩ : Admission) ∈ s.lobby.held)
    (hnone : s.lobby.rooms.lookup room = none) (line : Line) :
    Calm s.lobby (s.finish g ⟨n, line, .member ticket none⟩).lobby := by
  have hcalm := h.tenanted.release_calm hheld hnone
  rw [finish_member g rfl]
  exact ⟨hcalm.registry, hcalm.rooms, hcalm.manager, hcalm.nextTicket⟩

theorem head?_append_of_some {α : Type} {x : α} {xs : List α} (h : xs.head? = some x)
    (ys : List α) : (xs ++ ys).head? = some x := by
  rw [List.head?_append, h, Option.some_or]

/-- A client that was let into a room was let into no other, whatever reaches it later. -/
theorem past_of_head? {arrivals : List Arrival} {room : RoomId} (hpast : Past room l)
    (hlog : (log ++ arrivals).head? = some (welcome id room)) (line : Line)
    (hmore : ∃ extra, line.arrivals = arrivals ++ extra) {room' : RoomId}
    (hlog' : (log ++ line.hangUp.arrivals).head? = some (welcome id room')) : Past room' l := by
  obtain ⟨rest, hrest, -⟩ := line.hangUp_prefix
  obtain ⟨extra, hextra⟩ := hmore
  rw [hrest, hextra, List.append_assoc, ← List.append_assoc, head?_append_of_some hlog] at hlog'
  exact welcome_inj (Option.some.inj hlog') ▸ hpast

/-! ## Writers -/

/-- What a writer does to a member: its client gets a frame, or the connection ends because the room
is gone. -/
theorem Housed.write (h : Housed g limits tales logs none none s) (n : Nat) :
    Housed g limits tales logs none none (s.write g n) ∧ Calm s.lobby (s.write g n).lobby := by
  unfold Server.write
  split
  · exact ⟨h, .refl _⟩
  · rename_i c hc
    obtain ⟨hmem, hnumber⟩ := mem_of_connection? hc
    obtain ⟨n', line, phase⟩ := c
    cases hnumber
    have hstands := h.stands _ hmem (Option.some_ne_none _)
    simp only at hstands ⊢
    cases hstands with
    | greeting | ended => exact ⟨h, .refl _⟩
    | @member hrest room ticket hheld hlog htale =>
      simp only
      have hcalm := Lobby.receive_calm ticket s.lobby
      have hreceive := h.mere (.receive ticket) trivial
      have hheld' := (Lobby.perform_mere g s.lobby (.receive ticket) trivial).2.1
      simp only [Lobby.perform] at hreceive hheld'
      cases hrec : s.lobby.receive ticket with
      | mk delivery lobby =>
        rw [hrec] at hcalm hreceive hheld'
        cases delivery with
        | none =>
          simp only
          split
          · rename_i hover
            obtain ⟨q, hq, hover⟩ := (Option.any_eq_true _ _).mp hover
            have hnone := h.tenanted.cut hheld hq fun hlinked => by
              simp [Mailbox.isOver, hlinked.2] at hover
            refine ⟨(h.except hmem Phase.noConfusion).leave ⟨_, hmem, rfl⟩ hheld line
              fun room' hlog' _ => ?_, h.leave_calm hheld hnone line⟩
            exact past_of_head? (h.tenanted.past hheld hnone) hlog _ ⟨[], (List.append_nil _).symm⟩ hlog'
          · exact ⟨h, .refl _⟩
        | some delivery =>
          cases delivery with
          | frame bytes =>
            simp only [startTransfer_eq g hrest.faults hrest.clientPresent]
            refine ⟨(hreceive.except hmem Phase.noConfusion).put ⟨_, hmem, rfl⟩ _ _ ?_ rfl, hcalm⟩
            refine .member (hrest.sent bytes) (hheld' ▸ hheld) ?_ htale
            rw [Line.sent, ← List.append_assoc]
            exact head?_append_of_some hlog _
          | closed reason =>
            have hnone := h.tenanted.cut_of_closed hheld hrec
            simp only [startTransfer_eq g hrest.faults hrest.clientPresent, if_true]
            have hheld'' := hheld' ▸ hheld
            have hnone' : lobby.rooms.lookup room = none := hcalm.rooms ▸ hnone
            refine ⟨(hreceive.except hmem Phase.noConfusion).leave ⟨_, hmem, rfl⟩ hheld'' _
              fun room' hlog' _ => ?_, hcalm.trans (hreceive.leave_calm hheld'' hnone' _)⟩
            exact past_of_head? (hreceive.tenanted.past hheld'' hnone') hlog _ ⟨_, rfl⟩ hlog'

/-- Whatever the writers do, no room notices. -/
theorem Housed.settle (h : Housed g limits tales logs none none s) :
    Housed g limits tales logs none none (s.settle g) ∧ Calm s.lobby (s.settle g).lobby := by
  have hkeeps : ∀ n s', (Housed g limits tales logs none none s' ∧ Calm s.lobby s'.lobby) →
      Housed g limits tales logs none none (s'.write g n) ∧
        Calm s.lobby (s'.write g n).lobby := by
    rintro n s' ⟨h', hcalm⟩
    obtain ⟨hwrite, hwrites⟩ := h'.write n
    exact ⟨hwrite, hcalm.trans hwrites⟩
  exact settle_keeps (P := fun s' => Housed g limits tales logs none none s' ∧
    Calm s.lobby s'.lobby) hkeeps ⟨h, .refl _⟩

end Server

end Gamewire
