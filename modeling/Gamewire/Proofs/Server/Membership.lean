import Gamewire.Proofs.Server.Requests
import Gamewire.Proofs.Server.Stream

/-! Who is in a room, and what rooms hear. In every run over lines without faults the members of the
live rooms are the clients that were told so and did not go; a client is of no concern to the rooms
before it asks for a place, and then its room gets whatever it says, once and in order. -/
namespace Gamewire
set_option autoImplicit false

namespace Server

variable {σ : Type} {g : Game σ} {s s₀ : Server σ} {n : Nat} {limits : Limits} {e : Event}
  {events : List Event} {a : Admission} {id : ConnId} {room : RoomId}

open Lobby (Past Calm)

/-! ## Histories -/

/-- What the events of a run yield, one after the other. -/
def gather {α : Type} (g : Game σ) (f : Server σ → Event → List α) : Server σ → List Event → List α
  | _, [] => []
  | s, e :: events => f s e ++ gather g f (s.after g e) events

theorem gather_concat {α : Type} (g : Game σ) (f : Server σ → Event → List α) (s : Server σ)
    (events : List Event) (e : Event) :
    s.gather g f (events ++ [e]) = s.gather g f events ++ f (s.run g events) e := by
  induction events generalizing s with
  | nil => simp [gather, run]
  | cons first events ih =>
    have hrun : s.run g (first :: events) = (s.after g first).run g events := rfl
    rw [List.cons_append, gather, ih, gather, hrun, List.append_assoc]

/-- The frame that a client gets across in an event, if it does. -/
def said (g : Game σ) (n : Nat) (s : Server σ) : Event → List (List UInt8)
  | .send number bytes =>
    if number = n then
      match (s.hear g n bytes).1 with
      | some (.ok ()) => [bytes]
      | _ => []
    else []
  | _ => []

/-- Everything that a client gets across in a run. -/
def heard (g : Game σ) (n : Nat) (s : Server σ) (events : List Event) : List (List UInt8) :=
  s.gather g (said g n) events

/-- The frame that a room which runs is given by a member, if there is one. -/
def given? (a : Admission) (l : Lobby σ) : Operation → Option (List UInt8)
  | .send b sender bytes =>
    if b = a ∧ sender = a.conn ∧ (l.rooms.lookup a.room).isSome then some bytes else none
  | _ => none

/-- Everything that a room is given by a member in a run. -/
def given (g : Game σ) (a : Admission) (s : Server σ) (events : List Event) : List (List UInt8) :=
  s.gather g (fun s e => (s.requests g e).filterMap (given? a s.lobby)) events

/-- All lines are without faults, and no two connections that are open at once have one name. -/
def Regular (g : Game σ) : Server σ → List Event → Prop
  | _, [] => True
  | s, e :: events => s.Proper e ∧ Regular g (s.after g e) events

instance decidableRegular (g : Game σ) : (s : Server σ) → (events : List Event) →
    Decidable (Regular g s events)
  | _, [] => isTrue trivial
  | s, e :: events =>
    have := decidableRegular g (s.after g e) events
    inferInstanceAs (Decidable (s.Proper e ∧ Regular g (s.after g e) events))

theorem regular_concat {s : Server σ} :
    Regular g s (events ++ [e]) ↔ Regular g s events ∧ (s.run g events).Proper e := by
  induction events generalizing s with
  | nil => simp [Regular, run]
  | cons first events ih =>
    have hrun : s.run g (first :: events) = (s.after g first).run g events := rfl
    rw [List.cons_append, Regular, ih, Regular, hrun, and_assoc]

/-! ## What rooms are asked to do -/

theorem not_dismiss_of_mem_requests {op : Operation} (h : op ∈ s.requests g e) : op ≠ .dismiss := by
  cases e with
  | connect => cases h
  | send number bytes =>
    simp only [requests] at h
    split at h
    · cases h
    · split at h
      · obtain ⟨wanted, -, rfl⟩ := List.mem_map.mp h
        exact Operation.noConfusion
      · split at h
        · cases h
        · obtain ⟨b, -, rfl⟩ := List.mem_map.mp h
          exact Operation.noConfusion
      all_goals cases h
  | close number | leave number =>
    obtain ⟨ticket, -, rfl⟩ := List.mem_map.mp h
    exact Operation.noConfusion
  | advance | shutdownRoom | shutdown =>
    rw [List.mem_singleton.mp h]
    exact Operation.noConfusion
  | stop =>
    simp only [requests] at h
    split at h
    · cases h
    · rw [List.mem_singleton.mp h]
      exact Operation.noConfusion

/-- A room is spoken to only by a client that holds an admission to it. -/
theorem send_of_mem_requests {b : Admission} {sender : ConnId} {bytes : List UInt8}
    (h : .send b sender bytes ∈ s.requests g e) :
    b ∈ s.lobby.held ∧ ∃ c ∈ s.connections, e = .send c.number bytes ∧
      c.phase.ticket? = some b.ticket := by
  cases e with
  | connect => cases h
  | send number bytes' =>
    simp only [requests] at h
    split at h
    · cases h
    · rename_i c hc
      obtain ⟨hmem, rfl⟩ := mem_of_connection? hc
      split at h
      · obtain ⟨wanted, -, heq⟩ := List.mem_map.mp h
        cases heq
      · rename_i ticket transfer hphase
        split at h
        · cases h
        · obtain ⟨b', hb', heq⟩ := List.mem_map.mp h
          cases heq
          obtain ⟨hheld, rfl⟩ := Lobby.admission?_some (Option.mem_toList.mp hb')
          exact ⟨hheld, c, hmem, rfl, by rw [hphase]; rfl⟩
      all_goals cases h
  | close number | leave number =>
    obtain ⟨ticket, -, heq⟩ := List.mem_map.mp h
    cases heq
  | advance | shutdownRoom | shutdown => cases List.mem_singleton.mp h
  | stop =>
    simp only [requests] at h
    split at h
    · cases h
    · cases List.mem_singleton.mp h

/-- A room is given nothing by a member that does not speak. -/
theorem given?_requests_eq_nil
    (h : ∀ bytes, .send a a.conn bytes ∉ s.requests g e) :
    (s.requests g e).filterMap (given? a s.lobby) = [] := by
  refine List.filterMap_eq_nil_iff.mpr fun op hop => ?_
  cases op with
  | send b sender bytes =>
    refine if_neg ?_
    rintro ⟨rfl, rfl, -⟩
    exact h bytes hop
  | _ => rfl

/-! ## What is known of clients -/

/-- Nothing was heard of a client; or it asked for a place first, and unless its room is gone, the
room was given all that it said since and that is not a control frame. -/
def Tale (g : Game σ) (s₀ : Server σ) (events : List Event) (n : Nat) : Option Admission → Prop
  | none => s₀.heard g n events = []
  | some a => ∃ first rest, s₀.heard g n events = first :: rest ∧ (knock? g first).isSome ∧
      (Past a.room (s₀.run g events).lobby ∨
        s₀.given g a events = rest.filter (!isControlFrame ·))

theorem said_of_ne (h : ∀ bytes, e ≠ .send n bytes) : s.said g n e = [] := by
  cases e with
  | send number bytes => exact if_neg fun hsame => h bytes (congrArg (Event.send · bytes) hsame)
  | _ => rfl

theorem said_of_unknown (h : n ∉ s.connections.map (·.number)) (e : Event) : s.said g n e = [] := by
  cases e with
  | send number bytes =>
    simp only [said]
    split
    · rw [hear, connection?_eq_none.mpr h]
    · rfl
  | _ => rfl

theorem said_of_rest {c : Connection} (hc : s.connection? n = some c) (hrest : c.line.AtRest)
    (bytes : List UInt8) : s.said g n (.send n bytes) = [bytes] := by
  simp only [said, if_true, hear, hc, hrest.clientPresent, hrest.clientSend]

/-- An event carries on what is known of the clients. -/
theorem retells_event {logs : Nat → List Arrival}
    (h : Housed g limits (Tale g s₀ events) logs none none (s₀.run g events))
    (hpast : ∀ room, Past room (s₀.run g events).lobby → Past room (s₀.run g (events ++ [e])).lobby)
    (hnew : ∀ a : Admission, (s₀.run g events).lobby.nextTicket ≤ a.ticket → s₀.given g a events = []) :
    Retells g (s₀.run g events) e (Tale g s₀ events) (Tale g s₀ (events ++ [e])) := by
  have hheard : ∀ n, s₀.heard g n (events ++ [e]) =
      s₀.heard g n events ++ (s₀.run g events).said g n e :=
    fun n => gather_concat g _ s₀ events e
  have hgiven : ∀ a, s₀.given g a (events ++ [e]) = s₀.given g a events ++
      ((s₀.run g events).requests g e).filterMap (given? a (s₀.run g events).lobby) :=
    fun a => gather_concat g _ s₀ events e
  have hfound : ∀ c ∈ (s₀.run g events).connections,
      (s₀.run g events).connection? c.number = some c :=
    fun c hc => h.toNumbered.connection?_iff.mpr ⟨hc, rfl⟩
  refine ⟨fun n hn hnone => ?_, ?_, ?_, ?_⟩
  · rw [Tale] at hnone ⊢
    rw [hheard, hnone, said_of_unknown hn]
    rfl
  · -- the frame asks for a place
    rintro c hc hrest deadline hphase bytes rfl hknock hnone room
    refine ⟨bytes, [], ?_, hknock, .inr ?_⟩
    · rw [Tale] at hnone
      rw [hheard, hnone, said_of_rest (hfound c hc) hrest]
      rfl
    · rw [hgiven, hnew _ (Nat.le_refl _), given?_requests_eq_nil]
      · rfl
      · intro bytes' hmem
        have hheld := (send_of_mem_requests hmem).1
        exact absurd (h.tenanted.wired.held_lt _ hheld) (Nat.lt_irrefl _)
  · -- a member speaks
    rintro c hc hrest a ha hphase hconn bytes rfl ⟨first, rest, hsaid, hknock, htale⟩
    refine ⟨first, rest ++ [bytes], ?_, hknock, ?_⟩
    · rw [hheard, hsaid, said_of_rest (hfound c hc) hrest]
      rfl
    · by_cases hgone : Past a.room (s₀.run g events).lobby
      · exact .inl (hpast _ hgone)
      · have hruns := h.tenanted.runs ha hgone
        have hadmission := Lobby.admission?_of_nodup h.tenanted.wired.held_nodup ha
        refine .inr ?_
        rw [hgiven, htale.resolve_left hgone, List.filter_append]
        simp only [requests, hfound c hc, hphase, hadmission]
        by_cases hcontrol : isControlFrame bytes = true
        · simp [hcontrol]
        · simp [hcontrol, given?, hruns]
  · -- somebody else does something
    rintro c hc hopen hother a? ha? htale
    have hsilent := said_of_ne (g := g) (s := s₀.run g events) hother
    cases a? with
    | none =>
      rw [Tale] at htale ⊢
      rw [hheard, htale, hsilent]
      rfl
    | some a =>
      obtain ⟨hheld, hconn⟩ := ha? a rfl
      obtain ⟨first, rest, hsaid, hknock, hrest⟩ := htale
      refine ⟨first, rest, ?_, hknock, hrest.imp (hpast _) fun hgave => ?_⟩
      · rw [hheard, hsaid, hsilent, List.append_nil]
      · rw [hgiven, hgave, given?_requests_eq_nil, List.append_nil]
        intro bytes hmem
        obtain ⟨-, c', hc', rfl, hticket⟩ := send_of_mem_requests hmem
        refine hother bytes ?_
        rw [h.holder_eq hc (.inl hopen) hheld hconn hc' (Option.some_ne_none _) hticket]

/-! ## Runs -/

theorem Stands.seen {l : Lobby σ} {tale : Option Admission → Prop} {line : Line} {log : List Arrival}
    {phase : Phase} (h : Stands l tale id line log phase) :
    Stands l tale id { line with arrivals := [] } log phase := by
  have hseen : line.AtRest → ({ line with arrivals := [] } : Line).AtRest := fun hrest =>
    ⟨hrest.faults, hrest.inbox, hrest.clientPresent, hrest.clientSending, hrest.serverPresent⟩
  cases h with
  | greeting hrest hlog htale deadline => exact .greeting (hseen hrest) hlog htale deadline
  | member hrest hheld hlog htale => exact .member (hseen hrest) hheld hlog htale
  | ended hgone hpast => exact .ended hgone hpast

theorem Housed.look {tales : Nat → Option Admission → Prop} {logs : Nat → List Arrival}
    (h : Housed g limits tales logs none none s) :
    Housed g limits tales (fun n => logs n ++ s.arrivals n) none none s.look := by
  refine ⟨h.toNumbered.look, h.tenanted, fun x hx _ => ?_, fun a ha => .inr ?_,
    fun x hx y hy hx' hy' => ?_, look_numbers s ▸ h.unknown⟩
  · obtain ⟨c, hc, rfl⟩ := mem_look.mp hx
    have hstands := h.stands c hc (Option.some_ne_none _)
    have hfound := h.toNumbered.connection?_iff.mpr ⟨hc, rfl⟩
    simp only [List.append_nil]
    rw [arrivals_of_connection? hfound]
    exact hstands.seen
  · obtain hmine | ⟨c, hc, hne, hticket⟩ := h.owned a ha
    · cases hmine
    · exact ⟨_, mem_look.mpr ⟨c, hc, rfl⟩, Option.some_ne_none _, hticket⟩
  · obtain ⟨c, hc, rfl⟩ := mem_look.mp hx
    obtain ⟨c', hc', rfl⟩ := mem_look.mp hy
    exact h.apart c hc c' hc' hx' hy'

/-- In every event the rooms do what they are asked; what is told of the clients does not matter. -/
theorem Housed.event_calm {tales : Nat → Option Admission → Prop} {logs : Nat → List Arrival}
    (h : Housed g limits tales logs none none s) (hproper : s.Proper e)
    (hlogs : logs s.nextConn = []) :
    Calm (s.lobby.run g (s.requests g e)) (s.perform g e).lobby := by
  have hsilent : Housed g limits (fun _ _ => True) logs none none s :=
    h.retell (fun _ _ _ => trivial) fun _ _ _ _ _ _ _ => trivial
  have hretells : Retells g s e (fun _ _ => True) fun _ _ => True :=
    ⟨fun _ _ _ => trivial, fun _ _ _ _ _ _ _ _ _ _ => trivial,
      fun _ _ _ _ _ _ _ _ _ _ => trivial, fun _ _ _ _ _ _ _ => trivial⟩
  exact (hsilent.event hproper hlogs hretells).2

/-- What a whole run over lines without faults keeps. -/
theorem run_housed (hp : ∀ msg bytes, Room.frameOf? g.protocol msg = some bytes →
      g.protocol.ServerFrame bytes) {config : ServerConfig} {key : AdminKey}
    (h : Server.start config = .ok (s₀, key)) (hregular : Regular g s₀ events) :
    Housed g config.limits (Tale g s₀ events) (fun n => s₀.stream g n events) none none
        (s₀.run g events) ∧
      ∀ a : Admission, (s₀.run g events).lobby.nextTicket ≤ a.ticket →
        s₀.given g a events = [] := by
  induction events using List.reverseRecOn with
  | nil =>
    obtain ⟨hnobody, hlobby⟩ := start_ok h
    have hreachable : Lobby.Reachable g config.limits s₀.lobby := .start hlobby
    have hheld : s₀.lobby.held = [] := by
      rw [(Lobby.start_eq hlobby).1]
      rfl
    refine ⟨⟨⟨?_, fun c hc => ?_⟩, hreachable.tenanted, fun c hc => ?_, fun a ha => ?_, fun c hc => ?_,
      fun _ _ => rfl⟩, fun _ _ => rfl⟩
    · rw [run, List.foldl_nil, hnobody]
      exact List.nodup_nil
    · rw [run, List.foldl_nil, hnobody] at hc
      cases hc
    · rw [run, List.foldl_nil, hnobody] at hc
      cases hc
    · rw [run, List.foldl_nil, hheld] at ha
      cases ha
    · rw [run, List.foldl_nil, hnobody] at hc
      cases hc
  | append_singleton events e ih =>
    obtain ⟨hbefore, hproper⟩ := regular_concat.mp hregular
    obtain ⟨hhoused, hnew⟩ := ih hbefore
    obtain ⟨horderly, -⟩ := run_orderly hp h events
    have hlogs := horderly.fresh _ hhoused.toNumbered.nextConn_not_mem
    have hcalm := hhoused.event_calm hproper hlogs
    have hops := fun op (hop : op ∈ (s₀.run g events).requests g e) => not_dismiss_of_mem_requests hop
    have hpast : ∀ room, Past room (s₀.run g events).lobby →
        Past room (s₀.run g (events ++ [e])).lobby := by
      intro room hpast
      rw [run_concat]
      exact (hpast.run hhoused.tenanted.bounded g hops).calm hcalm
    obtain ⟨hevent, -⟩ := hhoused.event hproper hlogs (retells_event hhoused hpast hnew)
    refine ⟨?_, fun a ha => ?_⟩
    · rw [run_concat]
      simp only [stream_concat]
      exact hevent.look
    · rw [run_concat] at ha
      have hle := hhoused.tenanted.bounded.run_nextTicket_le hhoused.tenanted.wired g hops
      have hlt : (s₀.run g events).lobby.nextTicket ≤ a.ticket :=
        Nat.le_trans (Nat.le_trans hle hcalm.nextTicket.ge) ha
      rw [given, gather_concat, ← given, hnew a hlt, given?_requests_eq_nil]
      · rfl
      · intro bytes hmem
        have hheld := (send_of_mem_requests hmem).1
        exact absurd (hhoused.tenanted.wired.held_lt a hheld) (Nat.not_lt.mpr hlt)

/-! ## Members -/

/-- Of all that servers may send nothing reads as the frame that lets a client in. -/
theorem Word.head?_of_mem {p : Protocol} {granted : RoomId → Prop} {log : List Arrival}
    (h : Word p granted id log) (hmem : welcome id room ∈ log) :
    log.head? = some (welcome id room) := by
  have hplaying : ∀ {log}, Playing p granted id log → welcome id room ∈ log →
      log.head? = some (welcome id room) := by
    rintro log ⟨room', games, -, hgames, rfl⟩ hmem
    obtain hfirst | hmem := List.mem_cons.mp hmem
    · rw [hfirst, List.head?_cons]
    · obtain ⟨bytes, hbytes, heq⟩ := List.mem_map.mp hmem
      obtain ⟨tag, rest, hframe, htag⟩ := (hgames bytes hbytes).tag
      cases heq
      cases hframe
      exact absurd htag (by decide)
  cases h with
  | nothing => cases hmem
  | cut => cases List.mem_singleton.mp hmem
  | refused refusal =>
    obtain hfirst | hmem := List.mem_cons.mp hmem
    · cases Arrival.frame.inj hfirst
    · cases List.mem_singleton.mp hmem
  | playing h => exact hplaying h hmem
  | played h =>
    obtain hmem | hmem := List.mem_append.mp hmem
    · exact head?_append_of_some (hplaying h hmem) _
    · cases List.mem_singleton.mp hmem
  | closed h reason =>
    obtain hmem | hmem := List.mem_append.mp hmem
    · exact head?_append_of_some (hplaying h hmem) _
    · obtain hfirst | hmem := List.mem_cons.mp hmem
      · cases Arrival.frame.inj hfirst
      · cases List.mem_singleton.mp hmem

/-- A client that was let into a live room and did not go holds an admission to it. -/
theorem Housed.inmate {tales : Nat → Option Admission → Prop} {logs : Nat → List Arrival}
    {p : Protocol} {granted : RoomId → Prop} (h : Housed g limits tales logs none none s)
    {c : Connection} (hc : c ∈ s.connections) (hseen : c.line.arrivals = [])
    (hword : Word p granted c.id (logs c.number)) {entry : Entry}
    (hlive : s.lobby.registry.rooms.lookup room = some entry)
    (hmem : welcome c.id room ∈ logs c.number) (hsends : c.line.clientSending = true) :
    ∃ ticket, ⟨ticket, room, c.id⟩ ∈ s.lobby.held ∧
      tales c.number (some ⟨ticket, room, c.id⟩) := by
  have hfirst := hword.head?_of_mem hmem
  obtain ⟨number, line, phase⟩ := c
  have hstands := h.stands _ hc (Option.some_ne_none _)
  simp only at hstands hseen hfirst hsends ⊢
  rw [hseen, List.append_nil] at hstands
  cases hstands with
  | greeting _ hlog =>
    rw [hlog] at hfirst
    cases hfirst
  | member _ hheld hlog htale =>
    rw [hlog] at hfirst
    cases welcome_inj (Option.some.inj hfirst)
    exact ⟨_, hheld, htale⟩
  | ended _ hpast =>
    rw [(hpast room hfirst hsends).2] at hlive
    cases hlive

/-- The members of a live room are the clients that were let into it and did not go. -/
theorem Housed.mem_members_iff {tales : Nat → Option Admission → Prop} {logs : Nat → List Arrival}
    {p : Protocol} {granted : Nat → RoomId → Prop} (h : Housed g limits tales logs none none s)
    (hseen : ∀ c ∈ s.connections, c.line.arrivals = [])
    (hwords : ∀ c ∈ s.connections, Word p (granted c.number) c.id (logs c.number)) {entry : Entry}
    (hlive : s.lobby.registry.rooms.lookup room = some entry) :
    id ∈ entry.members ↔ ∃ c ∈ s.connections, c.id = id ∧ welcome id room ∈ logs c.number ∧
      c.line.clientSending = true := by
  have hcounted : Lobby.Counted s.lobby := by
    refine (h.tenanted.reachable fun hcrashed => ?_).accounted.counted
    obtain hsound | hcrashed := h.tenanted.bounded
    · exact hsound.manager hcrashed
    · rw [hcrashed.registry] at hlive
      cases hlive
  rw [hcounted.mem_iff room entry hlive id]
  constructor
  · rintro ⟨a, ha, rfl, rfl⟩
    obtain hmine | ⟨c, hc, hne, hticket⟩ := h.owned a ha
    · cases hmine
    · obtain ⟨hrest, room, hheld, hlog, -⟩ := h.member hc hne hticket
      have hsame := List.inj_on_of_nodup_map h.tenanted.wired.held_nodup hheld ha rfl
      rw [hseen c hc, List.append_nil] at hlog
      rw [← hsame]
      exact ⟨c, hc, rfl, List.mem_of_head? hlog, hrest.clientSending⟩
  · rintro ⟨c, hc, rfl, hmem, hsends⟩
    obtain ⟨ticket, hheld, -⟩ := h.inmate hc (hseen c hc) (hwords c hc) hlive hmem hsends
    exact ⟨_, hheld, rfl, rfl⟩

/-! ## The main result -/

/-- The connection that an event is about. -/
def subject? (s : Server σ) : Event → Option Nat
  | .connect _ => some s.nextConn
  | .send number _ | .close number | .leave number => some number
  | .advance _ | .shutdownRoom _ _ | .shutdown _ | .stop => none

/-- The first frame of a client asked for a place and knew the protocol. -/
def Knocked (g : Game σ) (s₀ : Server σ) (events : List Event) (n : Nat) : Prop :=
  ∃ first rest, s₀.heard g n events = first :: rest ∧ (knock? g first).isSome

/-- Of a client that did not ask for a place yet the rooms are asked nothing. -/
theorem Housed.requests_eq_nil {logs : Nat → List Arrival}
    (h : Housed g limits (Tale g s₀ events) logs none none (s₀.run g events))
    (hsubject : (s₀.run g events).subject? e = some n) (hknocked : ¬ Knocked g s₀ (events ++ [e]) n) :
    (s₀.run g events).requests g e = [] := by
  have hheard : s₀.heard g n (events ++ [e]) =
      s₀.heard g n events ++ (s₀.run g events).said g n e := gather_concat g _ s₀ events e
  have hmember : ∀ c ∈ (s₀.run g events).connections, c.number = n → c.phase.ticket? = none := by
    rintro c hc rfl
    cases hticket : c.phase.ticket? with
    | none => rfl
    | some ticket =>
      obtain ⟨-, room, -, -, first, rest, hsaid, hknock, -⟩ :=
        h.member hc (Option.some_ne_none _) hticket
      refine (hknocked ⟨first, rest ++ (s₀.run g events).said g c.number e, ?_, hknock⟩).elim
      rw [hheard, hsaid]
      rfl
  cases e with
  | connect => rfl
  | send number bytes =>
    cases hsubject
    simp only [requests]
    cases hfound : (s₀.run g events).connection? n with
    | none => rfl
    | some c =>
      obtain ⟨hc, rfl⟩ := mem_of_connection? hfound
      have hbare := hmember c hc rfl
      have hsaid := said_of_rest (g := g) hfound
      have hstands := h.stands c hc (Option.some_ne_none _)
      obtain ⟨number, line, phase⟩ := c
      simp only at hstands hbare hsaid hheard hknocked ⊢
      cases hstands with
      | greeting hrest hlog htale deadline =>
        cases hknock : knock? g bytes with
        | none => rfl
        | some wanted =>
          refine (hknocked ⟨bytes, [], ?_, by rw [hknock]; rfl⟩).elim
          rw [hheard, hsaid hrest, show s₀.heard g number events = [] from htale]
          rfl
      | member => cases hbare
      | ended => rfl
  | close number | leave number =>
    cases hsubject
    simp only [requests]
    cases hfound : (s₀.run g events).connection? n with
    | none => rfl
    | some c =>
      obtain ⟨hc, hnumber⟩ := mem_of_connection? hfound
      rw [Option.bind_some, hmember c hc hnumber]
      rfl
  | advance | shutdownRoom | shutdown | stop => cases hsubject

/-- In every run over lines without faults, whether or not the manager of the rooms crashes: the
members of a live room are the clients that were let into it and did not go, and the room was given
all that such a client said after it asked for its place, but for control frames, once and in order.
Whatever happens next, the rooms do what they are asked and nothing else, and a client whose first
frame did not ask for a place leaves them as they are. -/
theorem run_membership {schema : Schema} (hp : schema.validate = .ok g.protocol)
    {config : ServerConfig} {key : AdminKey} (h : Server.start config = .ok (s₀, key))
    (hregular : Regular g s₀ events) :
    (∀ room entry, (s₀.run g events).lobby.registry.rooms.lookup room = some entry →
      (∃ r, (s₀.run g events).lobby.rooms.lookup room = some r ∧ r.connections = entry.members) ∧
      (∀ id, id ∈ entry.members ↔ ∃ c ∈ (s₀.run g events).connections, c.id = id ∧
        welcome id room ∈ s₀.stream g c.number events ∧ c.line.clientSending = true) ∧
      ∀ c ∈ (s₀.run g events).connections, welcome c.id room ∈ s₀.stream g c.number events →
        c.line.clientSending = true → ∃ ticket first rest,
          ⟨ticket, room, c.id⟩ ∈ (s₀.run g events).lobby.held ∧
          s₀.heard g c.number events = first :: rest ∧ (knock? g first).isSome ∧
          s₀.given g ⟨ticket, room, c.id⟩ events = rest.filter (!isControlFrame ·)) ∧
    ∀ e, (s₀.run g events).Proper e →
      Calm ((s₀.run g events).lobby.run g ((s₀.run g events).requests g e))
        (s₀.run g (events ++ [e])).lobby ∧
      ∀ n, (s₀.run g events).subject? e = some n → ¬ Knocked g s₀ (events ++ [e]) n →
        Calm (s₀.run g events).lobby (s₀.run g (events ++ [e])).lobby := by
  have hframes : ∀ msg bytes, Room.frameOf? g.protocol msg = some bytes →
      g.protocol.ServerFrame bytes := fun _ _ => Schema.serverFrame_of_frameOf? hp
  obtain ⟨hhoused, -⟩ := run_housed hframes h hregular
  obtain ⟨horderly, hseen⟩ := run_orderly hframes h events
  have hwords : ∀ c ∈ (s₀.run g events).connections,
      Word g.protocol (Granted g s₀ events c.number) c.id (s₀.stream g c.number events) :=
    fun c hc => horderly.word hc (hseen c hc)
  refine ⟨fun room entry hlive => ⟨?_, fun id => hhoused.mem_members_iff hseen hwords hlive, ?_⟩, ?_⟩
  · obtain hsound | hcrashed := hhoused.tenanted.bounded
    · obtain ⟨r, hr, hmembers⟩ := hsound.agrees.lookup_some hlive
      exact ⟨r, hr, hmembers⟩
    · rw [hcrashed.registry] at hlive
      cases hlive
  · intro c hc hmem hsends
    obtain ⟨ticket, hheld, first, rest, hsaid, hknock, hgiven⟩ :=
      hhoused.inmate hc (hseen c hc) (hwords c hc) hlive hmem hsends
    refine ⟨ticket, first, rest, hheld, hsaid, hknock, hgiven.resolve_left fun hpast => ?_⟩
    rw [hpast.2] at hlive
    cases hlive
  · intro e hproper
    have hlogs := horderly.fresh _ hhoused.toNumbered.nextConn_not_mem
    have hcalm := hhoused.event_calm hproper hlogs
    rw [run_concat]
    refine ⟨hcalm, fun n hsubject hknocked => ?_⟩
    rw [hhoused.requests_eq_nil hsubject hknocked] at hcalm
    exact hcalm

/-! Two clients are in a room and one of them speaks; control frames are not passed on. A third client
did not ask for a place, and a fourth one was let in and went. -/

def chatTalk : List Event :=
  [.connect {}, .connect {}, .connect {}, .connect {}, .send 1 chatJoin, .send 2 chatJoin,
    .send 3 [1, 5], .send 1 [1, 5], .send 1 chatJoin, .send 1 [1, 6], .send 4 chatJoin, .close 4]

theorem run_membership_chatServer :
    Lobby.chatSchema.validate = .ok Lobby.chatGame.protocol ∧
      (∃ key, Server.start chatConfig = .ok (chatServer, key)) ∧
      Regular Lobby.chatGame chatServer chatTalk ∧
      (chatServer.run Lobby.chatGame chatTalk).lobby.registry.rooms.lookup 1 =
        some ⟨.open, [1, 2], 0⟩ ∧
      (∀ id, id ∈ [1, 2] ↔ ∃ c ∈ (chatServer.run Lobby.chatGame chatTalk).connections, c.id = id ∧
        welcome id 1 ∈ chatServer.stream Lobby.chatGame c.number chatTalk ∧
          c.line.clientSending = true) ∧
      chatServer.given Lobby.chatGame ⟨0, 1, 1⟩ chatTalk = [[1, 5], [1, 6]] ∧
      Calm (chatServer.run Lobby.chatGame chatTalk).lobby
        (chatServer.run Lobby.chatGame (chatTalk ++ [.connect {}])).lobby := by
  obtain ⟨key, hstart⟩ := chatServer_start
  have hregular : Regular Lobby.chatGame chatServer chatTalk := by decide +kernel
  have hlive : (chatServer.run Lobby.chatGame chatTalk).lobby.registry.rooms.lookup 1 =
      some ⟨.open, [1, 2], 0⟩ := by decide +kernel
  have hunheard : chatServer.heard Lobby.chatGame 5 (chatTalk ++ [.connect {}]) = [] := by
    decide +kernel
  obtain ⟨hmembers, hcalm⟩ := run_membership (g := Lobby.chatGame) Lobby.chatSchema_validate hstart
    hregular
  refine ⟨Lobby.chatSchema_validate, ⟨key, hstart⟩, hregular, hlive, (hmembers 1 _ hlive).2.1,
    by decide +kernel, (hcalm (.connect {}) (by decide +kernel)).2 5 (by decide +kernel) ?_⟩
  rintro ⟨first, rest, hheard, -⟩
  rw [hunheard] at hheard
  cases hheard

end Server

end Gamewire
