import Gamewire.Proofs.Room.Frames
import Gamewire.Proofs.Room.Shutdown
import Gamewire.Proofs.Server.Run

/-! What reaches a client, from its first frame to its last. It is told that it is let in or that it is
not; whoever is let in gets frames of the game and perhaps a notice that the room closes, and a refusal
and a notice are the last that comes before the server hangs up. -/
namespace Gamewire
set_option autoImplicit false

namespace Server

variable {σ : Type} {g : Game σ} {s : Server σ} {c : Connection} {n : Nat} {p : Protocol}
  {granted granted' : RoomId → Prop} {id : ConnId} {log : List Arrival}

/-! ## Words -/

/-- What a client in a room got: that it was let in, and frames of the game. -/
def Playing (p : Protocol) (granted : RoomId → Prop) (id : ConnId) (log : List Arrival) : Prop :=
  ∃ room, ∃ games : List (List UInt8), granted room ∧ (∀ bytes ∈ games, p.ServerFrame bytes) ∧
    log = .frame (ControlFrame.joined room id).encode :: games.map .frame

/-- Everything that a client can get in the end. -/
inductive Word (p : Protocol) (granted : RoomId → Prop) (id : ConnId) : List Arrival → Prop
  | nothing : Word p granted id []
  | cut : Word p granted id [.hungUp]
  | refused (refusal : Refusal) :
      Word p granted id [.frame (ControlFrame.rejected refusal).encode, .hungUp]
  | playing {log : List Arrival} (h : Playing p granted id log) : Word p granted id log
  | played {log : List Arrival} (h : Playing p granted id log) : Word p granted id (log ++ [.hungUp])
  | closed {log : List Arrival} (h : Playing p granted id log) (reason : String) :
      Word p granted id (log ++ [.frame (ControlFrame.closing reason).encode, .hungUp])

theorem Playing.mono (h : Playing p granted id log) (hmono : ∀ room, granted room → granted' room) :
    Playing p granted' id log := by
  obtain ⟨room, games, hgranted, hrest⟩ := h
  exact ⟨room, games, hmono room hgranted, hrest⟩

theorem Playing.snoc (h : Playing p granted id log) {bytes : List UInt8}
    (hbytes : p.ServerFrame bytes) : Playing p granted id (log ++ [.frame bytes]) := by
  obtain ⟨room, games, hgranted, hgames, rfl⟩ := h
  refine ⟨room, games ++ [bytes], hgranted, fun b hb => ?_, by simp⟩
  obtain hb | hb := List.mem_append.mp hb
  · exact hgames b hb
  · rw [List.mem_singleton.mp hb]
    exact hbytes

theorem Word.mono (h : Word p granted id log) (hmono : ∀ room, granted room → granted' room) :
    Word p granted' id log := by
  cases h with
  | nothing => exact .nothing
  | cut => exact .cut
  | refused refusal => exact .refused refusal
  | playing h => exact .playing (h.mono hmono)
  | played h => exact .played (h.mono hmono)
  | closed h reason => exact .closed (h.mono hmono) reason

/-! ## What a connection is about to say -/

/-- A frame under way is one of the game, or the notice after which nothing comes. -/
def Transfer.Proper (p : Protocol) (t : Transfer) : Prop :=
  (t.isLast = false ∧ p.ServerFrame t.bytes) ∨
    (t.isLast = true ∧ ∃ reason, t.bytes = (ControlFrame.closing reason).encode)

/-- How far a connection has come, what its client got and what comes next fit together. -/
inductive Speaks (p : Protocol) (granted : RoomId → Prop) (id : ConnId) (line : Line) :
    List Arrival → Phase → Prop
  | greeting (hpresent : line.serverPresent = true) (hread : line.inbox = []) (deadline : Nat) :
      Speaks p granted id line [] (.greeting deadline)
  | refusing (hpresent : line.serverPresent = true) (refusal : Refusal) (arrives : Option Nat) :
      Speaks p granted id line [] (.refusing (ControlFrame.rejected refusal).encode arrives)
  | joining (hpresent : line.serverPresent = true) {room : RoomId} (hgranted : granted room)
      (ticket : Ticket) (arrives : Option Nat) :
      Speaks p granted id line [] (.joining ticket (ControlFrame.joined room id).encode arrives)
  | member (hpresent : line.serverPresent = true) {log : List Arrival}
      (hlog : Playing p granted id log) (ticket : Ticket) (transfer : Option Transfer)
      (hproper : ∀ t ∈ transfer, Transfer.Proper p t) :
      Speaks p granted id line log (.member ticket transfer)
  | ended {log : List Arrival} (hword : Word p granted id log) : Speaks p granted id line log .ended

variable {line line' : Line} {phase : Phase} {bytes : List UInt8}

theorem Speaks.mono (h : Speaks p granted id line log phase)
    (hmono : ∀ room, granted room → granted' room) : Speaks p granted' id line log phase := by
  cases h with
  | greeting hpresent hread deadline => exact .greeting hpresent hread deadline
  | refusing hpresent refusal arrives => exact .refusing hpresent refusal arrives
  | joining hpresent hgranted ticket arrives =>
    exact .joining hpresent (hmono _ hgranted) ticket arrives
  | member hpresent hlog ticket transfer hproper =>
    exact .member hpresent (hlog.mono hmono) ticket transfer hproper
  | ended hword => exact .ended (hword.mono hmono)

/-- Only that the server is there matters of a line, and that all was read while a greeting is waited
for; later what the client sends does not matter to what it gets. -/
theorem Speaks.relined (h : Speaks p granted id line log phase)
    (hpresent : line.serverPresent = true → line'.serverPresent = true)
    (hread : ∀ deadline, phase = .greeting deadline → line.inbox = [] → line'.inbox = []) :
    Speaks p granted id line' log phase := by
  cases h with
  | greeting h hinbox deadline => exact .greeting (hpresent h) (hread deadline rfl hinbox) deadline
  | refusing h refusal arrives => exact .refusing (hpresent h) refusal arrives
  | joining h hgranted ticket arrives => exact .joining (hpresent h) hgranted ticket arrives
  | member h hlog ticket transfer hproper => exact .member (hpresent h) hlog ticket transfer hproper
  | ended hword => exact .ended hword

theorem Speaks.withLine (h : Speaks p granted id line log phase)
    (hpresent : line.serverPresent = true → line'.serverPresent = true)
    (hread : line.inbox = [] → line'.inbox = []) : Speaks p granted id line' log phase :=
  h.relined hpresent fun _ _ => hread

theorem Speaks.of_greeting {deadline : Nat}
    (h : Speaks p granted id line log (.greeting deadline)) :
    line.serverPresent = true ∧ line.inbox = [] ∧ log = [] := by
  cases h with
  | greeting hpresent hread => exact ⟨hpresent, hread, rfl⟩

theorem Speaks.of_refusing {arrives : Option Nat}
    (h : Speaks p granted id line log (.refusing bytes arrives)) :
    line.serverPresent = true ∧ log = [] ∧
      ∃ refusal, bytes = (ControlFrame.rejected refusal).encode := by
  cases h with
  | refusing hpresent refusal => exact ⟨hpresent, rfl, refusal, rfl⟩

theorem Speaks.of_joining {ticket : Ticket} {arrives : Option Nat}
    (h : Speaks p granted id line log (.joining ticket bytes arrives)) :
    line.serverPresent = true ∧ log = [] ∧
      ∃ room, granted room ∧ bytes = (ControlFrame.joined room id).encode := by
  cases h with
  | joining hpresent hgranted => exact ⟨hpresent, rfl, _, hgranted, rfl⟩

theorem Speaks.of_member {ticket : Ticket} {transfer : Option Transfer}
    (h : Speaks p granted id line log (.member ticket transfer)) :
    line.serverPresent = true ∧ Playing p granted id log ∧
      ∀ t ∈ transfer, Transfer.Proper p t := by
  cases h with
  | member hpresent hlog _ _ hproper => exact ⟨hpresent, hlog, hproper⟩

theorem read_ne_frame (h : line.inbox = []) : line.read ≠ (.frame bytes, line') := by
  unfold Line.read
  rw [h]
  intro hread
  simp only at hread
  split at hread
  · cases hread
  · split at hread
    · cases hread
    · cases hread

theorem deliver_eq_some (h : line.deliver bytes = some line') : line.clientPresent = true ∧
    line' = { line with arrivals := line.arrivals ++ [.frame bytes] } := by
  unfold Line.deliver at h
  split at h
  · rename_i hpresent
    cases h
    exact ⟨hpresent, rfl⟩
  · cases h

theorem clientSend_eq_ok (h : line.clientSend bytes = .ok line') :
    line' = { line with inbox := line.inbox ++ [bytes] } := by
  unfold Line.clientSend at h
  split at h
  · cases h
  · split at h
    · cases h
    · exact (Except.ok.inj h).symm

theorem hangUp_arrivals (line : Line) : line.hangUp.arrivals =
    if line.serverPresent ∧ line.clientPresent then line.arrivals ++ [.hungUp]
    else line.arrivals := by
  unfold Line.hangUp
  split
  · rfl
  · rfl

/-- The server may hang up at any time before the end. -/
theorem Speaks.hangUp (h : Speaks p granted id line (log ++ line.arrivals) phase)
    (hopen : phase ≠ .ended) : Word p granted id (log ++ line.hangUp.arrivals) := by
  have hends : Word p granted id (log ++ line.arrivals) ∧
      Word p granted id (log ++ line.arrivals ++ [.hungUp]) := by
    generalize log ++ line.arrivals = word at h
    cases h with
    | greeting | refusing | joining => exact ⟨.nothing, .cut⟩
    | member _ hlog => exact ⟨.playing hlog, .played hlog⟩
    | ended => exact absurd rfl hopen
  rw [hangUp_arrivals]
  split
  · rw [← List.append_assoc]
    exact hends.2
  · exact hends.1

theorem Speaks.word (h : Speaks p granted id line log phase) : Word p granted id log := by
  cases h with
  | greeting | refusing | joining => exact .nothing
  | member _ hlog => exact .playing hlog
  | ended hword => exact hword

/-! ## The invariant -/

/-- All queues hold frames of the game, and all connections but one that is being dealt with are in
order. -/
structure Orderly (g : Game σ) (granted : Nat → RoomId → Prop) (log : Nat → List Arrival)
    (busy : Option Nat) (s : Server σ) : Prop extends Numbered s where
  /-- Nothing came to those who are not there yet. -/
  fresh : ∀ n, n ∉ s.connections.map (·.number) → log n = []
  bounded : ∃ limits, Lobby.Bounded limits s.lobby
  composed : Lobby.Composed g.protocol s.lobby
  speaks : ∀ c ∈ s.connections, some c.number ≠ busy →
    Speaks g.protocol (granted c.number) c.id c.line (log c.number ++ c.line.arrivals) c.phase

variable {admits : Nat → RoomId → Prop} {logs : Nat → List Arrival} {busy : Option Nat}

theorem Orderly.except (h : Orderly g admits logs none s) (n : Nat) :
    Orderly g admits logs (some n) s :=
  ⟨h.toNumbered, h.fresh, h.bounded, h.composed, fun c hc _ => h.speaks c hc (Option.some_ne_none _)⟩

theorem Orderly.perform (h : Orderly g admits logs busy s) (op : Operation) :
    Orderly g admits logs busy { s with lobby := s.lobby.perform g op } := by
  obtain ⟨limits, hbounded⟩ := h.bounded
  exact ⟨⟨h.nodup, h.lt⟩, h.fresh, ⟨limits, hbounded.perform g op⟩,
    h.composed.perform hbounded op, h.speaks⟩

theorem Orderly.stayBusy (h : Orderly g admits logs (some c.number) s) :
    Orderly g admits logs (some c.number) (s.setConnection c) := by
  refine ⟨h.toNumbered.setConnection c, setConnection_numbers c s ▸ h.fresh, h.bounded, h.composed,
    fun x hx hbusy => ?_⟩
  obtain ⟨hx, -⟩ | ⟨rfl, -⟩ := mem_setConnection.mp hx
  · exact h.speaks x hx hbusy
  · exact absurd rfl hbusy

theorem Orderly.setConnection (h : Orderly g admits logs (some c.number) s)
    (hc : Speaks g.protocol (admits c.number) c.id c.line (logs c.number ++ c.line.arrivals)
      c.phase) : Orderly g admits logs none (s.setConnection c) := by
  refine ⟨h.toNumbered.setConnection c, setConnection_numbers c s ▸ h.fresh, h.bounded, h.composed,
    fun x hx _ => ?_⟩
  obtain ⟨hx, hne⟩ | ⟨rfl, -⟩ := mem_setConnection.mp hx
  · exact h.speaks x hx fun hsame => hne (Option.some.inj hsame)
  · exact hc

theorem Orderly.finish (h : Orderly g admits logs (some c.number) s)
    (hword : Word g.protocol (admits c.number) c.id (logs c.number ++ c.line.hangUp.arrivals)) :
    Orderly g admits logs none (s.finish g c) := by
  unfold Server.finish
  refine Orderly.setConnection (c := { c with phase := .ended, line := c.line.hangUp }) ?_
    (.ended hword)
  split
  · rename_i ticket _
    exact (h.perform (.release ticket)).perform (.dropMailbox ticket)
  · exact h

/-- Before the end, a connection can be finished as it is. -/
theorem Orderly.finish_open (h : Orderly g admits logs (some c.number) s)
    (hc : Speaks g.protocol (admits c.number) c.id c.line (logs c.number ++ c.line.arrivals)
      c.phase) (hopen : c.phase ≠ .ended) : Orderly g admits logs none (s.finish g c) :=
  h.finish (hc.hangUp hopen)

/-! ## Stages -/

theorem Orderly.startSend (h : Orderly g admits logs (some c.number) s) {phase : Option Nat → Phase}
    (hc : ∀ arrives, Speaks g.protocol (admits c.number) c.id c.line
      (logs c.number ++ c.line.arrivals) (phase arrives))
    (hopen : ∀ arrives, phase arrives ≠ .ended) :
    Orderly g admits logs none (s.startSend g c phase) := by
  have hnext : ∀ arrives, Speaks g.protocol (admits c.number) c.id
      { c.line with sends := c.line.sends + 1 } (logs c.number ++ c.line.arrivals)
      (phase arrives) := fun arrives => (hc arrives).withLine (fun h => h) fun h => h
  unfold Server.startSend Line.startSend
  split
  · rename_i line heq
    cases (Prod.mk.inj heq).2
    exact Orderly.finish_open (c := { c with line := _, phase := _ }) h (hnext none) (hopen none)
  · rename_i line heq
    cases (Prod.mk.inj heq).2
    exact Orderly.setConnection (c := { c with line := _, phase := _ }) h (hnext none)
  · rename_i ms line heq
    cases (Prod.mk.inj heq).2
    exact Orderly.setConnection (c := { c with line := _, phase := _ }) h (hnext _)

theorem Orderly.refuse (h : Orderly g admits logs (some c.number) s)
    (hpresent : c.line.serverPresent = true) (hlog : logs c.number ++ c.line.arrivals = [])
    (refusal : Refusal) : Orderly g admits logs none (s.refuse g c refusal) := by
  refine h.startSend (fun arrives => ?_) fun _ => Phase.noConfusion
  rw [hlog]
  exact .refusing hpresent refusal arrives

/-- A refusal arrives, or the client is gone. -/
theorem Orderly.endRefusal (h : Orderly g admits logs (some c.number) s)
    (hpresent : c.line.serverPresent = true) (hlog : logs c.number ++ c.line.arrivals = [])
    (refusal : Refusal) : Orderly g admits logs none (s.finish g { c with
      line := (c.line.deliver (ControlFrame.rejected refusal).encode).getD c.line }) := by
  refine Orderly.finish (c := { c with line := _ }) h ?_
  cases hline : c.line.deliver (ControlFrame.rejected refusal).encode with
  | none =>
    rw [Option.getD_none, hangUp_arrivals]
    split
    · rw [← List.append_assoc, hlog]
      exact .cut
    · rw [hlog]
      exact .nothing
  | some line =>
    obtain ⟨hclient, rfl⟩ := deliver_eq_some hline
    simp only [Option.getD_some, hangUp_arrivals, hpresent, hclient, and_self, if_true]
    rw [← List.append_assoc, ← List.append_assoc, hlog]
    exact .refused refusal

/-- The answer to a client that is let in arrives. -/
theorem Orderly.endWelcome (h : Orderly g admits logs (some c.number) s)
    (hpresent : c.line.serverPresent = true) (hlog : logs c.number ++ c.line.arrivals = [])
    {room : RoomId} (hgranted : admits c.number room)
    (hline : c.line.deliver (ControlFrame.joined room c.id).encode = some line) (ticket : Ticket) :
    Orderly g admits logs none
      (s.setConnection { c with line := line, phase := .member ticket none }) := by
  obtain ⟨-, rfl⟩ := deliver_eq_some hline
  have hmember : Speaks g.protocol (admits c.number) c.id c.line
      [.frame (ControlFrame.joined room c.id).encode] (.member ticket none) :=
    .member hpresent ⟨room, [], hgranted, List.forall_mem_nil _, rfl⟩ ticket none
      fun t ht => absurd ht (Option.not_mem_none t)
  refine Orderly.setConnection (c := { c with line := _, phase := _ }) h ?_
  simp only
  rw [← List.append_assoc, hlog]
  exact hmember.withLine (fun h => h) fun h => h

theorem Orderly.enter (h : Orderly g admits logs (some c.number) s)
    (hpresent : c.line.serverPresent = true) (hlog : logs c.number ++ c.line.arrivals = [])
    {wanted : Option RoomId} (hgrant : ∀ room,
      (s.lobby.join g c.id wanted s.buffer).2.1 = .ok room → admits c.number room) :
    Orderly g admits logs none (s.enter g c wanted) := by
  have hjoin : Orderly g admits logs (some c.number)
      { s with lobby := (s.lobby.join g c.id wanted s.buffer).2.2 } :=
    h.perform (.join c.id wanted s.buffer)
  unfold Server.enter
  split
  · rename_i ticket room lobby heq
    rw [heq] at hjoin hgrant
    refine hjoin.startSend (fun arrives => ?_) fun _ => Phase.noConfusion
    rw [hlog]
    exact .joining hpresent (hgrant room rfl) ticket arrives
  · rename_i ticket e lobby heq
    rw [heq] at hjoin
    exact (hjoin.perform (.dropMailbox ticket)).refuse hpresent hlog e.refusal

theorem Orderly.greet (h : Orderly g admits logs (some c.number) s)
    (hpresent : c.line.serverPresent = true) (hlog : logs c.number ++ c.line.arrivals = [])
    (hgrant : ∀ wanted room,
      ControlFrame.decode bytes = .ok (.join wanted g.protocol.fingerprint) →
      (s.lobby.join g c.id wanted s.buffer).2.1 = .ok room → admits c.number room) :
    Orderly g admits logs none (s.greet g c bytes) := by
  unfold Server.greet
  split
  · rename_i wanted fingerprint hdecode
    split
    · rename_i hsame
      rw [hsame] at hdecode
      exact h.enter hpresent hlog fun room => hgrant wanted room hdecode
    · exact h.refuse hpresent hlog _
  · exact h.refuse hpresent hlog _

theorem Orderly.forward (h : Orderly g admits logs busy s) (a : Admission)
    (frames : List (List UInt8)) :
    Orderly g admits logs busy { s with lobby := (Server.forward g a frames s.lobby).2 } := by
  induction frames generalizing s with
  | nil => exact h
  | cons bytes frames ih =>
    have hsend := h.perform (.send a a.conn bytes)
    unfold Server.forward
    split
    · exact ih h
    · split
      · rename_i lobby heq
        simp only [Lobby.perform, heq] at hsend
        exact ih hsend
      · rename_i e lobby heq
        simp only [Lobby.perform, heq] at hsend
        exact hsend

/-- Reading takes frames of the client, and changes nothing else that matters. -/
theorem readUpTo_line (k : Nat) (line : Line) :
    (line.readUpTo k).2.2.arrivals = line.arrivals ∧
      (line.readUpTo k).2.2.serverPresent = line.serverPresent ∧
      (line.inbox = [] → (line.readUpTo k).2.2.inbox = []) := by
  induction k generalizing line with
  | zero => exact ⟨rfl, rfl, fun h => h⟩
  | succ k ih =>
    unfold Line.readUpTo Line.read
    split
    · rename_i heq
      split at heq
      · cases heq
      · split at heq
        · rename_i inbox hinbox
          cases heq
          obtain ⟨harrivals, hpresent, -⟩ := ih { line with inbox := inbox, reads := line.reads + 1 }
          refine ⟨harrivals, hpresent, fun hnil => ?_⟩
          cases hinbox.symm.trans hnil
        · split at heq <;> cases heq
    · rename_i heq
      split at heq
      · cases heq
        exact ⟨rfl, rfl, fun h => h⟩
      · split at heq
        · cases heq
        · split at heq <;> cases heq
          exact ⟨rfl, rfl, fun h => h⟩
    · rename_i heq
      split at heq
      · cases heq
      · split at heq
        · cases heq
        · split at heq <;> cases heq
          exact ⟨rfl, rfl, fun h => h⟩

theorem Orderly.listen (h : Orderly g admits logs none s) (hc : s.connection? n = some c)
    (hopen : c.phase ≠ .ended) (ticket : Ticket) :
    Orderly g admits logs none (s.listen g c ticket) := by
  obtain ⟨hmem, -⟩ := mem_of_connection? hc
  have hspeaks := h.speaks c hmem (Option.some_ne_none _)
  obtain ⟨harrivals, hpresent, hinbox⟩ := readUpTo_line (c.line.inbox.length + 1) c.line
  have hread : Speaks g.protocol (admits c.number) c.id c.line.readAll.2.2
      (logs c.number ++ c.line.readAll.2.2.arrivals) c.phase := by
    rw [Line.readAll, harrivals]
    exact hspeaks.withLine (fun h => hpresent.trans h) hinbox
  unfold Server.listen
  split
  · exact h
  · rename_i a _
    have hforward := (h.except c.number).forward a c.line.readAll.1
    simp only
    split
    · exact Orderly.finish_open (c := { c with line := c.line.readAll.2.2 }) hforward hread hopen
    · exact Orderly.setConnection (c := { c with line := c.line.readAll.2.2 }) hforward hread

/-- A frame of a member that arrives: the last one ends the connection. -/
theorem Orderly.deliver (h : Orderly g admits logs (some c.number) s) {ticket : Ticket}
    (hpresent : c.line.serverPresent = true)
    (hlog : Playing g.protocol (admits c.number) c.id (logs c.number ++ c.line.arrivals))
    (hphase : c.phase = .member ticket none) {t : Transfer} (hproper : Transfer.Proper g.protocol t)
    (hline : c.line.deliver t.bytes = some line) :
    Orderly g admits logs none (if t.isLast then s.finish g { c with line := line }
      else s.setConnection { c with line := line }) := by
  obtain ⟨hclient, rfl⟩ := deliver_eq_some hline
  obtain ⟨hlast, hframe⟩ | ⟨hlast, reason, hbytes⟩ := hproper
  · rw [hlast, if_neg Bool.false_ne_true]
    refine Orderly.setConnection (c := { c with line := _ }) h ?_
    have hspeaks : Speaks g.protocol (admits c.number) c.id c.line
        (logs c.number ++ c.line.arrivals ++ [.frame t.bytes]) (.member ticket none) :=
      .member hpresent (hlog.snoc hframe) ticket none fun t ht => absurd ht (Option.not_mem_none t)
    simp only [hphase]
    rw [← List.append_assoc]
    exact hspeaks.withLine (fun h => h) fun h => h
  · rw [hlast, if_pos rfl]
    refine Orderly.finish (c := { c with line := _ }) h ?_
    simp only [hangUp_arrivals, hpresent, hclient, and_self, if_true]
    rw [hbytes, List.append_assoc, ← List.append_assoc]
    exact .closed hlog reason

theorem Orderly.endTransfer (h : Orderly g admits logs none s) (hc : s.connection? n = some c)
    {ticket : Ticket} {t : Transfer} (hphase : c.phase = .member ticket (some t)) :
    Orderly g admits logs none (s.endTransfer g c ticket t) := by
  obtain ⟨hmem, -⟩ := mem_of_connection? hc
  have hspeaks := h.speaks c hmem (Option.some_ne_none _)
  have hbusy := h.except c.number
  have hfinish : Orderly g admits logs none (s.finish g c) :=
    hbusy.finish_open hspeaks (by rw [hphase]; exact Phase.noConfusion)
  unfold Server.endTransfer
  split
  · split
    · exact hfinish
    · rename_i line hline
      rw [hphase] at hspeaks
      obtain ⟨hpresent, hlog, hproper⟩ := hspeaks.of_member
      exact Orderly.deliver (c := { c with phase := .member ticket none }) hbusy hpresent hlog rfl
        (hproper t rfl) hline
  · split
    · exact hfinish
    · exact h

theorem Orderly.proceed (h : Orderly g admits logs none s) (n : Nat) :
    Orderly g admits logs none (s.proceed g n) := by
  unfold Server.proceed
  split
  · exact h
  · rename_i c hc
    obtain ⟨hmem, -⟩ := mem_of_connection? hc
    have hspeaks := h.speaks c hmem (Option.some_ne_none _)
    have hbusy := h.except c.number
    have hfinish : c.phase ≠ .ended → Orderly g admits logs none (s.finish g c) :=
      hbusy.finish_open hspeaks
    split
    · rename_i deadline hphase
      have hopen : c.phase ≠ .ended := by rw [hphase]; exact Phase.noConfusion
      rw [hphase] at hspeaks
      obtain ⟨hpresent, hread, hlog⟩ := hspeaks.of_greeting
      split
      · -- everything was read before
        rename_i bytes line hframe
        exact absurd hframe (read_ne_frame hread)
      · exact hfinish hopen
      · split
        · exact hbusy.refuse hpresent hlog _
        · exact h
    · rename_i bytes arrives hphase
      split
      · rw [hphase] at hspeaks
        obtain ⟨hpresent, hlog, refusal, rfl⟩ := hspeaks.of_refusing
        exact hbusy.endRefusal hpresent hlog refusal
      · exact h
    · rename_i ticket bytes arrives hphase
      split
      · split
        · rename_i line hline
          rw [hphase] at hspeaks
          obtain ⟨hpresent, hlog, room, hgranted, rfl⟩ := hspeaks.of_joining
          exact hbusy.endWelcome hpresent hlog hgranted hline ticket
        · exact hfinish (by rw [hphase]; exact Phase.noConfusion)
      · exact h
    · rename_i ticket hphase
      exact h.listen hc (by rw [hphase]; exact Phase.noConfusion) ticket
    · rename_i ticket t hphase
      have hended := h.endTransfer hc hphase
      simp only
      split
      · rename_i c' hc'
        split
        · exact hended
        · rename_i hopen
          refine hended.listen hc' (fun hphase' => hopen ?_) ticket
          rw [Connection.isEnded, hphase', beq_self_eq_true]
      · exact hended
    · exact h

/-! ## Writers -/

theorem Orderly.startTransfer (h : Orderly g admits logs (some c.number) s) {ticket : Ticket}
    (hpresent : c.line.serverPresent = true)
    (hlog : Playing g.protocol (admits c.number) c.id (logs c.number ++ c.line.arrivals))
    (hphase : c.phase = .member ticket none) {isLast : Bool}
    (hproper : ∀ arrives limit, Transfer.Proper g.protocol ⟨bytes, arrives, limit, isLast⟩) :
    Orderly g admits logs none (s.startTransfer g c ticket bytes isLast) := by
  have hfinish : Orderly g admits logs none
      (s.finish g { c with line := { c.line with sends := c.line.sends + 1 } }) := by
    have hspeaks : Speaks g.protocol (admits c.number) c.id c.line
        (logs c.number ++ c.line.arrivals) c.phase := by
      rw [hphase]
      exact .member hpresent hlog ticket none fun t ht => absurd ht (Option.not_mem_none t)
    refine Orderly.finish_open (c := { c with line := _ }) h ?_ ?_
    · exact hspeaks.withLine (fun h => h) fun h => h
    · simp only [hphase, ne_eq, reduceCtorEq, not_false_eq_true]
  have hwait : ∀ arrives, Orderly g admits logs none (s.setConnection { c with
      line := { c.line with sends := c.line.sends + 1 }
      phase := .member ticket (some ⟨bytes, arrives, s.now + s.sendLimit, isLast⟩) }) := by
    intro arrives
    have hmember : Speaks g.protocol (admits c.number) c.id c.line
        (logs c.number ++ c.line.arrivals)
        (.member ticket (some ⟨bytes, arrives, s.now + s.sendLimit, isLast⟩)) := by
      refine .member hpresent hlog ticket _ fun t ht => ?_
      rw [← Option.some.inj ht]
      exact hproper _ _
    refine Orderly.setConnection (c := { c with line := _, phase := _ }) h ?_
    exact hmember.withLine (fun h => h) fun h => h
  unfold Server.startTransfer Line.startSend
  simp only
  split
  · rename_i line heq
    cases (Prod.mk.inj heq).2
    exact hfinish
  · rename_i line heq
    cases (Prod.mk.inj heq).2
    exact hwait none
  · rename_i line heq
    cases (Prod.mk.inj heq).2
    split
    · exact hfinish
    · rename_i line hline
      exact Orderly.deliver (c := { c with line := { c.line with sends := c.line.sends + 1 } })
        (t := ⟨bytes, none, 0, isLast⟩) h hpresent hlog hphase (hproper none 0) hline
  · rename_i ms line _ heq
    cases (Prod.mk.inj heq).2
    exact hwait _

theorem Orderly.write (hp : ∀ msg bytes, Room.frameOf? g.protocol msg = some bytes →
    g.protocol.ServerFrame bytes) (h : Orderly g admits logs none s) (n : Nat) :
    Orderly g admits logs none (s.write g n) := by
  unfold Server.write
  split
  · exact h
  · rename_i c hc
    obtain ⟨hmem, -⟩ := mem_of_connection? hc
    have hspeaks := h.speaks c hmem (Option.some_ne_none _)
    split
    · rename_i ticket hphase
      have hreceive := (h.except c.number).perform (.receive ticket)
      have hfinish : Orderly g admits logs none (s.finish g c) :=
        (h.except c.number).finish_open hspeaks (by rw [hphase]; exact Phase.noConfusion)
      rw [hphase] at hspeaks
      obtain ⟨hpresent, hlog, -⟩ := hspeaks.of_member
      split
      · rename_i bytes lobby heq
        simp only [Lobby.perform, heq] at hreceive
        obtain ⟨msg, hframe⟩ := h.composed.received (congrArg Prod.fst heq)
        exact hreceive.startTransfer hpresent hlog hphase fun _ _ => .inl ⟨rfl, hp msg bytes hframe⟩
      · rename_i reason lobby heq
        simp only [Lobby.perform, heq] at hreceive
        exact hreceive.startTransfer hpresent hlog hphase fun _ _ => .inr ⟨rfl, reason, rfl⟩
      · split
        · exact hfinish
        · exact h
    · exact h

/-! ## Events -/

/-- A client is connected, and the server still waits for its first frame. -/
def Awaits (s : Server σ) (n : Nat) : Prop :=
  ∃ c deadline, s.connection? n = some c ∧ c.phase = .greeting deadline

/-- The first frame of a client is read at once. -/
theorem Orderly.first (h : Orderly g admits logs none s) (hc : c ∈ s.connections) {deadline : Nat}
    (hphase : c.phase = .greeting deadline) (bytes : List UInt8) (hgrant : ∀ wanted room,
      ControlFrame.decode bytes = .ok (.join wanted g.protocol.fingerprint) →
      (s.lobby.join g c.id wanted s.buffer).2.1 = .ok room → admits c.number room) :
    Orderly g admits logs none ((s.setConnection { c with
      line := { c.line with inbox := c.line.inbox ++ [bytes] } }).proceed g c.number) := by
  have hspeaks := h.speaks c hc (Option.some_ne_none _)
  obtain ⟨number, line, phase⟩ := c
  cases hphase
  simp only at hspeaks hgrant ⊢
  generalize hword : logs number ++ line.arrivals = word at hspeaks
  cases hspeaks with
  | greeting hpresent hread =>
    rw [hread, List.nil_append]
    have hput : Orderly g admits logs (some number) (s.setConnection
        ⟨number, { line with inbox := [bytes] }, .greeting deadline⟩) :=
      Orderly.stayBusy (c := ⟨number, _, _⟩) (h.except number)
    have hfound : (s.setConnection ⟨number, { line with inbox := [bytes] },
        .greeting deadline⟩).connection? number =
          some ⟨number, { line with inbox := [bytes] }, .greeting deadline⟩ := by
      refine hput.toNumbered.connection?_iff.mpr ⟨?_, rfl⟩
      exact mem_setConnection.mpr (.inr ⟨rfl, _, hc, rfl⟩)
    unfold Server.proceed
    rw [hfound]
    simp only [Line.read]
    split
    · rename_i heq
      split at heq
      · cases heq
      · cases heq
        exact Orderly.greet (c := ⟨number, _, _⟩) hput hpresent hword hgrant
    · refine Orderly.finish (c := ⟨number, _, _⟩) hput ?_
      have hgreeting : Speaks g.protocol (admits number) (UInt32.ofNat number) line
          (logs number ++ line.arrivals) (.greeting deadline) := by
        rw [hword]
        exact .greeting hpresent hread deadline
      have hend := hgreeting.hangUp Phase.noConfusion
      rw [hangUp_arrivals] at hend ⊢
      exact hend
    · rename_i heq
      split at heq <;> cases heq

/-- What came over the line of a connection leads on. -/
theorem Orderly.wake_line (h : Orderly g admits logs none s) {c : Connection} {line : Line}
    (hspeaks : Speaks g.protocol (admits c.number) c.id line (logs c.number ++ line.arrivals) c.phase)
    (hwrite : ∀ n s, Orderly g admits logs none s → Orderly g admits logs none (s.write g n)) :
    Orderly g admits logs none ((s.setConnection { c with line := line }).wake g c.number) := by
  refine wake_keeps (fun n s h => h.proceed n) hwrite _ ?_
  exact Orderly.setConnection (c := { c with line := line }) (h.except c.number) hspeaks

theorem Orderly.hear (h : Orderly g admits logs none s) (n : Nat) (bytes : List UInt8)
    (hgrant : ∀ wanted room, s.Awaits n →
      ControlFrame.decode bytes = .ok (.join wanted g.protocol.fingerprint) →
      (s.lobby.join g (UInt32.ofNat n) wanted s.buffer).2.1 = .ok room → admits n room)
    (hwrite : ∀ n s, Orderly g admits logs none s → Orderly g admits logs none (s.write g n)) :
    Orderly g admits logs none (s.hear g n bytes).2 := by
  have hproceed := fun n s (h : Orderly g admits logs none s) => h.proceed n
  unfold Server.hear
  split
  · exact h
  · rename_i c hc
    obtain ⟨hmem, rfl⟩ := mem_of_connection? hc
    split
    · split
      · rename_i line hsend
        obtain rfl := clientSend_eq_ok hsend
        by_cases hphase : ∃ deadline, c.phase = .greeting deadline
        · obtain ⟨deadline, hphase⟩ := hphase
          have hfirst := h.first hmem hphase bytes fun wanted room =>
            hgrant wanted room ⟨c, deadline, hc, hphase⟩
          exact settle_keeps hwrite (hproceed _ _ (hproceed _ _ hfirst))
        · refine h.wake_line ?_ hwrite
          exact (h.speaks c hmem (Option.some_ne_none _)).relined (fun h => h)
            fun deadline heq => absurd ⟨deadline, heq⟩ hphase
      · exact h
    · exact h

theorem Orderly.hearEnd (h : Orderly g admits logs none s) (n : Nat)
    (hwrite : ∀ n s, Orderly g admits logs none s → Orderly g admits logs none (s.write g n)) :
    Orderly g admits logs none (s.hearEnd g n).2 := by
  unfold Server.hearEnd
  split
  · exact h
  · rename_i c hc
    obtain ⟨hmem, rfl⟩ := mem_of_connection? hc
    split
    · refine h.wake_line ?_ hwrite
      exact (h.speaks c hmem (Option.some_ne_none _)).withLine (fun h => h) fun h => h
    · exact h

theorem Orderly.lose (h : Orderly g admits logs none s)
    (hseen : ∀ c ∈ s.connections, c.line.arrivals = []) (n : Nat)
    (hwrite : ∀ n s, Orderly g admits logs none s → Orderly g admits logs none (s.write g n)) :
    Orderly g admits logs none (s.lose g n).2 := by
  unfold Server.lose
  split
  · exact h
  · rename_i c hc
    obtain ⟨hmem, rfl⟩ := mem_of_connection? hc
    split
    · have hspeaks := h.speaks c hmem (Option.some_ne_none _)
      rw [hseen c hmem] at hspeaks
      exact h.wake_line (hspeaks.withLine (fun h => h) fun h => h) hwrite
    · exact h

theorem Orderly.connect (h : Orderly g admits logs none s) (faults : LineFaults)
    (hwrite : ∀ n s, Orderly g admits logs none s → Orderly g admits logs none (s.write g n)) :
    Orderly g admits logs none (s.connect g faults).2 := by
  unfold Server.connect
  split
  · exact h
  · refine wake_keeps (fun n s h => h.proceed n) hwrite _ ?_
    refine ⟨h.toNumbered.connect rfl, fun n hn => ?_, h.bounded, h.composed, fun c hc _ => ?_⟩
    · rw [List.map_append] at hn
      exact h.fresh n fun hmem => hn (List.mem_append_left _ hmem)
    · obtain hc | hc := List.mem_append.mp hc
      · exact h.speaks c hc (Option.some_ne_none _)
      · rw [List.mem_singleton.mp hc]
        simp only [h.fresh s.nextConn h.toNumbered.nextConn_not_mem]
        exact .greeting rfl rfl _

theorem Orderly.event (hp : ∀ msg bytes, Room.frameOf? g.protocol msg = some bytes →
      g.protocol.ServerFrame bytes)
    (h : Orderly g admits logs none s) (hseen : ∀ c ∈ s.connections, c.line.arrivals = []) (e : Event)
    (hgrant : ∀ n bytes wanted room, e = .send n bytes → s.Awaits n →
      ControlFrame.decode bytes = .ok (.join wanted g.protocol.fingerprint) →
      (s.lobby.join g (UInt32.ofNat n) wanted s.buffer).2.1 = .ok room → admits n room) :
    Orderly g admits logs none (s.perform g e) := by
  have hwrite := fun n s (h : Orderly g admits logs none s) => Orderly.write hp h n
  cases e with
  | connect faults => exact h.connect faults hwrite
  | send n bytes =>
    exact h.hear n bytes (fun wanted room => hgrant n bytes wanted room rfl) hwrite
  | close n => exact h.hearEnd n hwrite
  | leave n => exact h.lose hseen n hwrite
  | advance ms =>
    exact advance_keeps (fun n s h => h.proceed n) hwrite ms (h.perform (.advance ms))
  | shutdownRoom room reason => exact settle_keeps hwrite (h.perform (.shutdownRoom room reason))
  | shutdown reason => exact settle_keeps hwrite (h.perform (.shutdown reason))
  | stop =>
    simp only [Server.perform, Server.stop]
    split
    · exact h
    · have hshut := settle_keeps (g := g) hwrite (h.perform (.shutdown serverShutdownReason))
      exact ⟨⟨hshut.nodup, hshut.lt⟩, hshut.fresh, hshut.bounded, hshut.composed, hshut.speaks⟩

theorem Orderly.look (h : Orderly g admits logs none s) :
    Orderly g admits (fun n => logs n ++ s.arrivals n) none s.look := by
  refine ⟨h.toNumbered.look, fun n hn => ?_, h.bounded, h.composed, fun x hx _ => ?_⟩
  · rw [look_numbers] at hn
    rw [h.fresh n hn, arrivals_of_none (connection?_eq_none.mpr hn)]
    rfl
  · obtain ⟨c, hc, rfl⟩ := mem_look.mp hx
    have hspeaks := h.speaks c hc (Option.some_ne_none _)
    have hfound := h.toNumbered.connection?_iff.mpr ⟨hc, rfl⟩
    simp only [List.append_nil]
    rw [arrivals_of_connection? hfound]
    exact hspeaks.withLine (fun h => h) fun h => h

/-! ## Runs -/

/-- A client was let into a room in a run: with its first frame it asked for a place, with the
fingerprint of the protocol, and the lobby gave it one in that room. -/
def Granted (g : Game σ) (s : Server σ) (events : List Event) (n : Nat) (room : RoomId) : Prop :=
  ∃ before bytes after wanted, events = before ++ .send n bytes :: after ∧
    (s.run g before).Awaits n ∧
    ControlFrame.decode bytes = .ok (.join wanted g.protocol.fingerprint) ∧
    ((s.run g before).lobby.join g (UInt32.ofNat n) wanted (s.run g before).buffer).2.1 = .ok room

theorem Granted.concat {events : List Event} {room : RoomId} (h : Granted g s events n room)
    (e : Event) : Granted g s (events ++ [e]) n room := by
  obtain ⟨before, bytes, after, wanted, rfl, hrest⟩ := h
  exact ⟨before, bytes, after ++ [e], wanted, by simp, hrest⟩

theorem start_ok {config : ServerConfig} {key : AdminKey}
    (h : Server.start config = .ok (s, key)) :
    s.connections = [] ∧ Lobby.start config.limits = .ok s.lobby := by
  unfold Server.start at h
  split at h
  · cases h
  · split at h
    · cases h
    · cases h
    · rename_i lobby key' hlobby hkey
      cases h
      exact ⟨rfl, hlobby⟩

theorem run_orderly (hp : ∀ msg bytes, Room.frameOf? g.protocol msg = some bytes →
      g.protocol.ServerFrame bytes) {config : ServerConfig} {key : AdminKey}
    (h : Server.start config = .ok (s, key)) (events : List Event) :
    Orderly g (Granted g s events) (fun n => s.stream g n events) none (s.run g events) ∧
      ∀ c ∈ (s.run g events).connections, c.line.arrivals = [] := by
  induction events using List.reverseRecOn with
  | nil =>
    obtain ⟨hnobody, hlobby⟩ := start_ok h
    refine ⟨⟨⟨?_, fun c hc => ?_⟩, fun _ _ => rfl, ⟨_, .inl (Lobby.sound_start hlobby)⟩,
      Lobby.composed_start hlobby _, fun c hc => ?_⟩, fun c hc => ?_⟩
    · rw [run, List.foldl_nil, hnobody]
      exact List.nodup_nil
    all_goals
      rw [run, List.foldl_nil, hnobody] at hc
      cases hc
  | append_singleton events e ih =>
    obtain ⟨horderly, hseen⟩ := ih
    have hmono : Orderly g (Granted g s (events ++ [e])) (fun n => s.stream g n events) none
        (s.run g events) :=
      ⟨horderly.toNumbered, horderly.fresh, horderly.bounded, horderly.composed, fun c hc hb =>
        (horderly.speaks c hc hb).mono fun room hgranted => hgranted.concat e⟩
    have hevent := hmono.event hp hseen e fun n bytes wanted room he hawaits hdecode hok =>
      ⟨events, bytes, [], wanted, by rw [he], hawaits, hdecode, hok⟩
    rw [run_concat]
    refine ⟨?_, fun c hc => ?_⟩
    · simp only [stream_concat]
      exact hevent.look
    · obtain ⟨c, -, rfl⟩ := mem_look.mp hc
      rfl

theorem Orderly.word (h : Orderly g admits logs none s) (hc : c ∈ s.connections)
    (hseen : c.line.arrivals = []) :
    Word g.protocol (admits c.number) c.id (logs c.number) := by
  have hspeaks := h.speaks c hc (Option.some_ne_none _)
  rw [hseen, List.append_nil] at hspeaks
  exact hspeaks.word

/-- In every run of a server, what reaches a client is a word: nothing, or a refusal, or that it was let
into the room that it was given, under its own number, and then frames of the game, which servers may
send, and perhaps that the room closes. A refusal and a closing are the last before the server hangs
up, and then nothing comes. -/
theorem stream_word {schema : Schema} (hp : schema.validate = .ok g.protocol)
    {config : ServerConfig} {key : AdminKey} (h : Server.start config = .ok (s, key))
    (events : List Event) (n : Nat) :
    Word g.protocol (Granted g s events n) (UInt32.ofNat n) (s.stream g n events) := by
  obtain ⟨horderly, hseen⟩ := run_orderly (fun _ _ => Schema.serverFrame_of_frameOf? hp) h events
  cases hc : (s.run g events).connection? n with
  | none =>
    rw [horderly.fresh n (connection?_eq_none.mp hc)]
    exact .nothing
  | some c =>
    obtain ⟨hmem, rfl⟩ := mem_of_connection? hc
    exact horderly.word hmem (hseen c hmem)

/-! Two clients are in a room, the first one speaks, and the room is closed. A third one does not ask
for a room. -/

def chatConfig : ServerConfig := { adminSecret := "open sesame" }

def chatServer : Server Unit where
  lobby := Lobby.ofLimits chatConfig.limits
  buffer := chatConfig.outboundBuffer
  sendLimit := chatConfig.sendLimit
  joinLimit := chatConfig.joinLimit

theorem chatServer_start : ∃ key, Server.start chatConfig = .ok (chatServer, key) := ⟨_, rfl⟩

/-- Any room will do for a client that speaks this protocol. -/
def chatJoin : List UInt8 := [0xf0, 0, 0, 0, 0, 123, 130, 72, 137]

def chatEvents : List Event :=
  [.connect {}, .connect {}, .connect {}, .send 1 chatJoin, .send 2 chatJoin, .send 3 [1, 5],
    .send 1 [1, 5], .shutdownRoom 1 "over"]

theorem stream_word_chatServer :
    Lobby.chatSchema.validate = .ok Lobby.chatGame.protocol ∧
      (∃ key, Server.start chatConfig = .ok (chatServer, key)) ∧
      chatServer.stream Lobby.chatGame 2 chatEvents =
        [.frame (ControlFrame.joined 1 2).encode, .frame [1, 5],
          .frame (ControlFrame.closing "over").encode, .hungUp] ∧
      chatServer.stream Lobby.chatGame 3 chatEvents =
        [.frame (ControlFrame.rejected .badHandshake).encode, .hungUp] ∧
      Word Lobby.chatProtocol (Granted Lobby.chatGame chatServer chatEvents 2) 2
        (chatServer.stream Lobby.chatGame 2 chatEvents) := by
  obtain ⟨key, hstart⟩ := chatServer_start
  refine ⟨Lobby.chatSchema_validate, ⟨key, hstart⟩, by decide +kernel, by decide +kernel, ?_⟩
  exact stream_word (g := Lobby.chatGame) Lobby.chatSchema_validate hstart chatEvents 2

end Server

end Gamewire
