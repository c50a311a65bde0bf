import Gamewire.Proofs.Room.Dispatch
import Gamewire.Proofs.Room.Queues
import Gamewire.Room.Backlog

/-! The last words of a room. Whoever is in it when it is closed, or when its rules fail, gets one
notice, and who left before gets none. A member whom the room has not heard of by then gets none
either, although its admission was granted: its queue is let go of like that of a member who
left. -/
namespace Gamewire
set_option autoImplicit false

def Command.joiner? : Command → Option ConnId
  | .join conn _ => some conn
  | .leave _ | .frame _ _ | .close _ => none

/-- The notice that an effect puts into the queue of a ticket. -/
def Effect.noticeFor? (t : Ticket) : Effect → Option String
  | .close ticket reason => if ticket = t then some reason else none
  | .deliver _ _ | .disconnect _ => none

theorem Mailbox.notice_after_disconnect (ticket : Ticket) (tickets : List Ticket) (q : Mailbox) :
    (after ticket (tickets.map Effect.disconnect) q).notice = q.notice := by
  rw [after_disconnect]
  split <;> rfl

namespace Room

/-- The notices that effects put into the queue of a ticket. -/
def notices (t : Ticket) (es : List Effect) : List String := es.filterMap (Effect.noticeFor? t)

/-- A connection joins with a ticket, and does not leave any more. -/
def Remains (conn : ConnId) (ticket : Ticket) (cs : List Command) : Prop :=
  ∃ before after, cs = before ++ .join conn ticket :: after ∧ .leave conn ∉ after

/-- The last of the commands is the one that closes the room, or the one over which its rules fail. -/
inductive Ending {σ : Type} (g : Game σ) (r : Room σ) : List Command → String → Prop
  | closed {before : List Command} {r' : Room σ} (reason : String)
      (hrun : (run g (some r) before).1 = some r') : Ending g r (before ++ [.close reason]) reason
  | failed {before : List Command} {r' : Room σ} {c : Command} {text : String}
      (hrun : (run g (some r) before).1 = some r') (hfault : r'.verdict? g c = some (.fault text)) :
      Ending g r (before ++ [c]) faultReason

/-- Who is told that a room closes, if it does so at the end of `done` and `later` still waits. -/
structure LastWords (reason : String) (done later : List Command) (es : List Effect) : Prop where
  told : ∀ conn ticket, Remains conn ticket done → notices ticket es = [reason] ∧
    ∀ q, (Mailbox.after ticket es q).notice = some reason
  left : ∀ conn ticket, .join conn ticket ∈ done → ¬ Remains conn ticket done →
    notices ticket es = []
  late : ∀ conn ticket, .join conn ticket ∈ later → notices ticket es = [] ∧
    ∀ q, Mailbox.after ticket es q = q.disconnect

variable {σ : Type} {g : Game σ} {r r' : Room σ} {c : Command} {cs cs' : List Command}
  {conn : ConnId} {ticket t : Ticket}

/-! ## Who remains -/

theorem Remains.mem (h : Remains conn ticket cs) : .join conn ticket ∈ cs := by
  obtain ⟨before, after, rfl, -⟩ := h
  exact List.mem_append_right before List.mem_cons_self

theorem remains_concat : Remains conn ticket (cs ++ [c]) ↔
    c = .join conn ticket ∨ (Remains conn ticket cs ∧ c ≠ .leave conn) := by
  constructor
  · rintro ⟨before, after, heq, hstays⟩
    obtain rfl | ⟨after, last, rfl⟩ := List.eq_nil_or_concat' after
    · obtain ⟨-, hlast⟩ := List.append_inj' heq rfl
      exact .inl (List.singleton_inj.mp hlast)
    · rw [← List.cons_append, ← List.append_assoc] at heq
      obtain ⟨hcs, hlast⟩ := List.append_inj' heq rfl
      have hc : c = last := List.singleton_inj.mp hlast
      obtain ⟨hafter, hleave⟩ := not_or.mp (List.mem_append.not.mp hstays)
      refine .inr ⟨⟨before, after, hcs, hafter⟩, ?_⟩
      rintro rfl
      exact hleave (List.mem_singleton.mpr hc)
  · rintro (rfl | ⟨⟨before, after, rfl, hstays⟩, hne⟩)
    · exact ⟨cs, [], rfl, List.not_mem_nil⟩
    · refine ⟨before, after ++ [c], by simp, ?_⟩
      rw [List.mem_append, List.mem_singleton]
      rintro (hmem | heq)
      · exact hstays hmem
      · exact hne heq.symm

/-- If the members of a room are those who remain, then so are those whom its rules see next. -/
theorem mem_gathered_iff (h : ∀ conn ticket, (conn, ticket) ∈ r.members ↔ Remains conn ticket cs)
    (hconns : ((cs ++ [c]).filterMap Command.joiner?).Nodup) (conn : ConnId) (ticket : Ticket) :
    (conn, ticket) ∈ (r.gathered c).members ↔ Remains conn ticket (cs ++ [c]) := by
  rw [remains_concat, ← h conn ticket]
  cases c with
  | join conn' ticket' =>
    have hnew : conn' ∉ r.members.map (·.1) := by
      intro hmember
      obtain ⟨m, hm, rfl⟩ := List.mem_map.mp hmember
      rw [List.filterMap_append] at hconns
      have hjoined : m.1 ∈ cs.filterMap Command.joiner? :=
        List.mem_filterMap.mpr ⟨_, ((h m.1 m.2).mp hm).mem, rfl⟩
      exact (List.nodup_append.mp hconns).2.2 m.1 hjoined m.1 (List.mem_singleton_self m.1) rfl
    constructor
    · intro hm
      obtain heq | hm := mem_insertMember hm
      · cases heq
        exact .inl rfl
      · exact .inr ⟨hm, Command.noConfusion⟩
    · rintro (heq | ⟨hm, -⟩)
      · cases heq
        exact mem_insertMember_self conn ticket r.members
      · exact mem_insertMember_of_mem hnew ticket' hm
  | leave conn' =>
    have hne : Command.leave conn' ≠ .leave conn ↔ conn ≠ conn' := by
      rw [ne_eq, Command.leave.injEq, eq_comm]
    simp [gathered, hne]
  | frame sender bytes => simp [gathered]
  | close reason => simp [gathered]

/-! ## Runs that go on -/

theorem run_append (g : Game σ) (r? : Option (Room σ)) (cs cs' : List Command) :
    run g r? (cs ++ cs') =
      ((run g (run g r? cs).1 cs').1, (run g r? cs).2 ++ (run g (run g r? cs).1 cs').2) := by
  induction cs generalizing r? with
  | nil => cases r? <;> rfl
  | cons c cs ih => cases r? <;> simp only [List.cons_append, run, ih, List.append_assoc]

theorem run_none_fst (g : Game σ) (cs : List Command) : (run g none cs).1 = none := by
  induction cs with
  | nil => rfl
  | cons c cs ih => exact ih

theorem run_singleton (g : Game σ) (r : Room σ) (c : Command) :
    run g (some r) [c] = r.step g c := by
  simp only [run, List.append_nil]

/-- A room that is still there after some commands was there before the last of them. -/
theorem run_concat_some (h : (run g (some r) (cs ++ [c])).1 = some r') :
    ∃ r₁, (run g (some r) cs).1 = some r₁ ∧ (r₁.step g c).1 = some r' := by
  rw [run_append] at h
  cases hr : (run g (some r) cs).1 with
  | none =>
    rw [hr, run_none_fst] at h
    cases h
  | some r₁ =>
    rw [hr, run_singleton] at h
    exact ⟨r₁, rfl, h⟩

/-- The members of a room that goes on are those who remain. -/
theorem mem_members_iff {id : RoomId} {state : σ}
    (hconns : (cs.filterMap Command.joiner?).Nodup)
    (hrun : (run g (some ⟨id, state, []⟩) cs).1 = some r') (conn : ConnId) (ticket : Ticket) :
    (conn, ticket) ∈ r'.members ↔ Remains conn ticket cs := by
  induction cs using List.reverseRecOn generalizing r' conn ticket with
  | nil =>
    cases hrun
    refine iff_of_false List.not_mem_nil ?_
    intro hremains
    cases hremains.mem
  | append_singleton cs c ih =>
    obtain ⟨r₁, hr₁, hstep⟩ := run_concat_some hrun
    have hbefore : (cs.filterMap Command.joiner?).Nodup :=
      hconns.sublist ((List.sublist_append_left cs [c]).filterMap _)
    rw [members_of_step hstep]
    exact mem_gathered_iff (fun conn ticket => ih hbefore hr₁ conn ticket) hconns conn ticket

theorem Separate.run (h : Separate r (cs ++ cs')) (hrun : (run g (some r) cs).1 = some r') :
    Separate r' cs' := by
  induction cs generalizing r with
  | nil =>
    cases hrun
    exact h
  | cons c cs ih =>
    cases hstep : (r.step g c).1 with
    | none =>
      simp only [Room.run, hstep, run_none_fst] at hrun
      cases hrun
    | some r₁ =>
      simp only [Room.run, hstep] at hrun
      exact ih (h.step hstep) hrun

/-! ## Notices -/

theorem notices_append (t : Ticket) (es es' : List Effect) :
    notices t (es ++ es') = notices t es ++ notices t es' := List.filterMap_append

theorem notices_disconnect (t : Ticket) (tickets : List Ticket) :
    notices t (tickets.map Effect.disconnect) = [] := by
  refine List.filterMap_eq_nil_iff.mpr fun e he => ?_
  obtain ⟨ticket, -, rfl⟩ := List.mem_map.mp he
  rfl

theorem notices_close {members : List (ConnId × Ticket)} (hn : (members.map (·.2)).Nodup) (t : Ticket)
    (reason : String) : notices t (members.map fun m => .close m.2 reason) =
      if t ∈ members.map (·.2) then [reason] else [] := by
  have hclose : (members.map fun m => Effect.close m.2 reason) =
      (members.map (·.2)).map (.close · reason) := by
    rw [List.map_map]
    rfl
  rw [hclose, notices, List.filterMap_map]
  exact filterMap_of_nodup hn fun _ => rfl

theorem notices_step_of_some (h : (r.step g c).1 = some r') (t : Ticket) :
    notices t (r.step g c).2 = [] := by
  refine List.filterMap_eq_nil_iff.mpr fun e he => ?_
  obtain ⟨ticket, -, rfl⟩ | ⟨frame, hframe⟩ := mem_step_of_some h he
  · rfl
  · rw [hframe]
    rfl

/-- Nobody gets a notice as long as the room goes on. -/
theorem notices_run_of_some (h : (run g (some r) cs).1 = some r') (t : Ticket) :
    notices t (run g (some r) cs).2 = [] := by
  induction cs using List.reverseRecOn generalizing r' with
  | nil => rfl
  | append_singleton cs c ih =>
    obtain ⟨r₁, hr₁, hstep⟩ := run_concat_some h
    rw [run_append, notices_append, hr₁, run_singleton, ih hr₁, notices_step_of_some hstep]
    rfl

/-! ## The end -/

theorem Ending.last {done : List Command} {reason : String} (h : Ending g r done reason) :
    ∃ before r' c, done = before ++ [c] ∧ (run g (some r) before).1 = some r' ∧
      r'.step g c = (none, (r'.parting c).map Effect.disconnect ++ (r'.gathered c).closeAll reason) := by
  cases h with
  | closed reason hrun => exact ⟨_, _, _, rfl, hrun, rfl⟩
  | failed hrun hfault => exact ⟨_, _, _, rfl, hrun, step_of_verdict hfault⟩

theorem Ending.run_append {done : List Command} {reason : String} (h : Ending g r done reason)
    (later : List Command) : run g (some r) (done ++ later) =
      (none, (run g (some r) done).2 ++ (later.filterMap Command.ticket?).map Effect.disconnect) := by
  obtain ⟨before, r', c, rfl, hrun, hstep⟩ := h.last
  have hends : (run g (some r) (before ++ [c])).1 = none := by
    rw [Room.run_append, hrun, run_singleton, hstep]
  rw [Room.run_append, hends, run_none_fst, run_none]

/-- The last thing that a room does is to tell those who remain. -/
theorem Ending.tells {id : RoomId} {state : σ} {done : List Command} {reason : String}
    (h : Ending g ⟨id, state, []⟩ done reason) (hconns : (done.filterMap Command.joiner?).Nodup)
    (htickets : (done.filterMap Command.ticket?).Nodup) :
    ∃ (es : List Effect) (members : List (ConnId × Ticket)),
      (run g (some ⟨id, state, []⟩) done).2 = es ++ members.map (fun m => .close m.2 reason) ∧
      (∀ t, notices t es = []) ∧ (members.map (·.2)).Nodup ∧
      ∀ conn ticket, (conn, ticket) ∈ members ↔ Remains conn ticket done := by
  obtain ⟨before, r', c, rfl, hrun, hstep⟩ := h.last
  have hbefore : (before.filterMap Command.joiner?).Nodup :=
    hconns.sublist ((List.sublist_append_left before [c]).filterMap _)
  have hsep : Separate r' [c] := (separate_new id state htickets).run hrun
  refine ⟨(run g (some ⟨id, state, []⟩) before).2 ++ (r'.parting c).map Effect.disconnect,
    (r'.gathered c).members, ?_, fun t => ?_, hsep.gathered.nodup_tickets,
    mem_gathered_iff (mem_members_iff hbefore hrun) hconns⟩
  · rw [Room.run_append, hrun, run_singleton, hstep, List.append_assoc]
    rfl
  · rw [notices_append, notices_run_of_some hrun, notices_disconnect, List.append_nil]

/-- A ticket tells whose it is. -/
theorem eq_of_ticket (hn : (cs.filterMap Command.ticket?).Nodup) {c' : Command} (h : c ∈ cs)
    (h' : c' ∈ cs) (hc : c.ticket? = some t) (hc' : c'.ticket? = some t) : c = c' := by
  have hsymm : Std.Symm fun c c' : Command =>
      ∀ t, c.ticket? = some t → ∀ t', c'.ticket? = some t' → t ≠ t' :=
    ⟨fun _ _ h t ht t' ht' => (h t' ht' t ht).symm⟩
  refine Classical.byContradiction fun hne => ?_
  exact (List.pairwise_filterMap.mp hn).forall h h' hne t hc t hc' rfl

/-- A room that was new is handed commands in which no connection joins twice. When it is closed or
its rules fail, all who are in it get one notice, whatever the rules did before. Nobody else gets one, and
the queues of those whose join waits behind the end are let go of. -/
theorem run_last_words (g : Game σ) (id : RoomId) (state : σ) {done later : List Command}
    {reason : String} (hend : Ending g ⟨id, state, []⟩ done reason)
    (hconns : ((done ++ later).filterMap Command.joiner?).Nodup)
    (htickets : ((done ++ later).filterMap Command.ticket?).Nodup) :
    (run g (some ⟨id, state, []⟩) (done ++ later)).1 = none ∧
      LastWords reason done later (run g (some ⟨id, state, []⟩) (done ++ later)).2 := by
  rw [hend.run_append later]
  rw [List.filterMap_append] at hconns
  have hapart := htickets
  rw [List.filterMap_append, List.nodup_append] at hapart
  obtain ⟨hdone, -, hapart⟩ := hapart
  obtain ⟨es, members, hes, hquiet, hnodup, hmembers⟩ := hend.tells hconns.of_append_left hdone
  have hnotices : ∀ t, notices t ((run g (some ⟨id, state, []⟩) done).2 ++
      (later.filterMap Command.ticket?).map Effect.disconnect) =
      if t ∈ members.map (·.2) then [reason] else [] := by
    intro t
    rw [notices_append, notices_disconnect, List.append_nil, hes, notices_append, hquiet,
      List.nil_append, notices_close hnodup]
  have hseated : ∀ conn ticket, .join conn ticket ∈ done ++ later →
      (ticket ∈ members.map (·.2) ↔ Remains conn ticket done) := by
    intro conn ticket hjoin
    constructor
    · intro hticket
      obtain ⟨m, hm, rfl⟩ := List.mem_map.mp hticket
      have hremains := (hmembers m.1 m.2).mp hm
      cases eq_of_ticket htickets hjoin (List.mem_append_left later hremains.mem) rfl rfl
      exact hremains
    · intro hremains
      exact List.mem_map_of_mem ((hmembers conn ticket).mpr hremains)
  refine ⟨rfl, ?_, ?_, ?_⟩
  · intro conn ticket hremains
    have hticket := (hseated conn ticket (List.mem_append_left later hremains.mem)).mpr hremains
    refine ⟨by rw [hnotices, if_pos hticket], fun q => ?_⟩
    rw [Mailbox.after_append, Mailbox.notice_after_disconnect, hes, Mailbox.after_append,
      Mailbox.after_close, if_pos hticket]
    rfl
  · intro conn ticket hjoin hgone
    rw [hnotices, if_neg]
    exact mt (hseated conn ticket (List.mem_append_left later hjoin)).mp hgone
  · intro conn ticket hjoin
    have hlate : ticket ∈ later.filterMap Command.ticket? := List.mem_filterMap.mpr ⟨_, hjoin, rfl⟩
    refine ⟨?_, fun q => ?_⟩
    · rw [hnotices, if_neg]
      intro hticket
      have hremains := (hseated conn ticket (List.mem_append_right done hjoin)).mp hticket
      exact hapart ticket (List.mem_filterMap.mpr ⟨_, hremains.mem, rfl⟩) ticket hlate rfl
    · rw [Mailbox.after_append, Mailbox.after_disconnect, if_pos hlate, Mailbox.after_of_ne]
      rintro e he rfl
      obtain hnobody | hdone := ticket_of_mem_run he
      · cases hnobody
      · exact hapart e.ticket hdone e.ticket hlate rfl

/-! Rules that let nobody leave. The first member stays, the second wants to leave, and the third comes
too late to hear of it. -/

def clingingGame : Game Unit :=
  ⟨⟨[]⟩, { Logic.relay with onLeave := fun _ _ _ => .fault "nobody leaves" }⟩

def farewell : List Command := [.join 7 0, .join 8 1, .leave 8]

theorem run_last_words_farewell :
    Ending clingingGame ⟨1, (), []⟩ farewell faultReason ∧ Remains 7 0 farewell ∧
      notices 0 (run clingingGame (some ⟨1, (), []⟩) (farewell ++ [.join 9 2])).2 = [faultReason] ∧
      ¬ Remains 8 1 farewell ∧
      notices 1 (run clingingGame (some ⟨1, (), []⟩) (farewell ++ [.join 9 2])).2 = [] ∧
      notices 2 (run clingingGame (some ⟨1, (), []⟩) (farewell ++ [.join 9 2])).2 = [] := by
  have hrun : (run clingingGame (some ⟨1, (), []⟩) [.join 7 0, .join 8 1]).1 =
      some ⟨1, (), [(7, 0), (8, 1)]⟩ := rfl
  have hend : Ending clingingGame ⟨1, (), []⟩ farewell faultReason := .failed hrun rfl
  have hstays : Remains 7 0 farewell := ⟨[], _, rfl, by decide⟩
  have hleaves : ¬ Remains 8 1 ([.join 7 0, .join 8 1] ++ [.leave 8]) := by
    rw [remains_concat]
    rintro (hjoin | ⟨-, hne⟩)
    · cases hjoin
    · exact hne rfl
  have hwords : LastWords faultReason farewell [.join 9 2]
      (run clingingGame (some ⟨1, (), []⟩) (farewell ++ [.join 9 2])).2 :=
    (run_last_words clingingGame 1 () hend (by decide) (by decide)).2
  exact ⟨hend, hstays, (hwords.told 7 0 hstays).1, hleaves, hwords.left 8 1 (by decide) hleaves,
    (hwords.late 9 2 List.mem_cons_self).1⟩

/-! Rules that let nobody in. Two connections ask at once and are granted places in the same room. It
ends over the first of them, and the second is never told. -/

def closedGame : Game Unit :=
  ⟨⟨[]⟩, { Logic.relay with onJoin := fun _ _ _ => .fault "nobody enters" }⟩

def rush : List JoinRequest := [⟨1, none, 16⟩, ⟨2, none, 16⟩]

theorem late_join_untold :
    Ending closedGame ⟨1, (), []⟩ [.join 1 0] faultReason ∧
      ([.join 1 0, .join 2 1].filterMap Command.joiner?).Nodup ∧
      notices 0 (run closedGame (some ⟨1, (), []⟩) ([.join 1 0] ++ [.join 2 1])).2 = [faultReason] ∧
      notices 1 (run closedGame (some ⟨1, (), []⟩) ([.join 1 0] ++ [.join 2 1])).2 = [] ∧
      ((Lobby.ofLimits {}).joinAll closedGame rush).1 = [(0, .ok 1), (1, .ok 1)] ∧
      ((Lobby.ofLimits {}).joinAll closedGame rush).2.mailbox? 1 =
        some { bound := 16, connected := false } := by
  have hrun : (run closedGame (some ⟨1, (), []⟩) []).1 = some ⟨1, (), []⟩ := rfl
  have hend : Ending closedGame ⟨1, (), []⟩ ([] ++ [.join 1 0]) faultReason := .failed hrun rfl
  exact ⟨hend, by decide, by decide, by decide, by cbv, by cbv⟩

end Room

end Gamewire
