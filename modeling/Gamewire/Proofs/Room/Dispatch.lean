import Gamewire.Proofs.Room.Effects

/-! The order in which a room dispatches. There is one list of all that a room sends, and what it does to
the queue of a member can be read off that list. Each member has one queue, and a queue that was closed or
let go of is not touched again. -/
namespace Gamewire
set_option autoImplicit false

/-- A frame that a room sends, with the tickets of the members it is for. -/
structure Dispatch where
  frame : List UInt8
  tickets : List Ticket
deriving Repr, DecidableEq

namespace Dispatch

def effects (d : Dispatch) : List Effect := d.tickets.map fun t => .deliver t d.frame

def frameFor? (t : Ticket) (d : Dispatch) : Option (List UInt8) :=
  if t ∈ d.tickets then some d.frame else none

end Dispatch

/-- The frame that an effect is to put into the queue of a ticket. -/
def Effect.frameFor? (t : Ticket) : Effect → Option (List UInt8)
  | .deliver ticket frame => if ticket = t then some frame else none
  | .close _ _ | .disconnect _ => none

/-- Of different tickets one at most is the one that is looked for. -/
theorem filterMap_of_nodup {α : Type} {tickets : List Ticket} (hn : tickets.Nodup) {t : Ticket} {a : α}
    {f : Ticket → Option α} (hf : ∀ ticket, f ticket = if ticket = t then some a else none) :
    tickets.filterMap f = if t ∈ tickets then [a] else [] := by
  induction tickets with
  | nil => rfl
  | cons first tickets ih =>
    obtain ⟨hfirst, hrest⟩ := List.nodup_cons.mp hn
    have ih := ih hrest
    by_cases heq : first = t
    · subst heq
      rw [if_neg hfirst] at ih
      rw [if_pos List.mem_cons_self, List.filterMap_cons_some (b := a) (by rw [hf, if_pos rfl]), ih]
    · have hmem : t ∈ first :: tickets ↔ t ∈ tickets := by simp [Ne.symm heq]
      rw [List.filterMap_cons_none (by rw [hf, if_neg heq]), ih]
      simp only [hmem]

theorem Dispatch.effects_frames {d : Dispatch} (h : d.tickets.Nodup) (t : Ticket) :
    d.effects.filterMap (Effect.frameFor? t) = (d.frameFor? t).toList := by
  have hframes : (d.effects.filterMap (Effect.frameFor? t)) =
      if t ∈ d.tickets then [d.frame] else [] := by
    rw [effects, List.filterMap_map]
    exact filterMap_of_nodup h fun _ => rfl
  rw [hframes, frameFor?]
  split <;> rfl

/-! ## Numbers of dispatches -/

/-- The dispatches for a ticket, each with its number in the order of all. -/
def addressed (t : Ticket) (log : List Dispatch) : List (Nat × List UInt8) :=
  log.zipIdx.filterMap fun x => (x.1.frameFor? t).map (x.2, ·)

theorem mem_addressed {t : Ticket} {log : List Dispatch} {k : Nat} {frame : List UInt8} :
    (k, frame) ∈ addressed t log ↔ ∃ d, log[k]? = some d ∧ t ∈ d.tickets ∧ d.frame = frame := by
  unfold addressed
  rw [List.mem_filterMap]
  constructor
  · rintro ⟨⟨d, k'⟩, hmem, hx⟩
    obtain ⟨frame', hframe, heq⟩ := Option.map_eq_some_iff.mp hx
    cases heq
    unfold Dispatch.frameFor? at hframe
    split at hframe
    · rename_i ht
      cases hframe
      exact ⟨d, List.mem_zipIdx_iff_getElem?.mp hmem, ht, rfl⟩
    · cases hframe
  · rintro ⟨d, hd, ht, rfl⟩
    refine ⟨(d, k), List.mem_zipIdx_iff_getElem?.mpr hd, ?_⟩
    simp [Dispatch.frameFor?, ht]

theorem addressed_ascending (t : Ticket) (log : List Dispatch) :
    (addressed t log).Pairwise fun x y => x.1 < y.1 := by
  have hnumbers : log.zipIdx.Pairwise fun x y => x.2 < y.2 := by
    rw [← List.pairwise_map (f := Prod.snd) (R := fun m n : Nat => m < n), List.zipIdx_map_snd]
    exact List.pairwise_lt_range'
  refine hnumbers.filterMap _ fun x y hlt a ha b hb => ?_
  obtain ⟨_, -, rfl⟩ := Option.map_eq_some_iff.mp ha
  obtain ⟨_, -, rfl⟩ := Option.map_eq_some_iff.mp hb
  exact hlt

theorem addressed_frames (t : Ticket) (log : List Dispatch) :
    (addressed t log).map (·.2) = log.filterMap (Dispatch.frameFor? t) := by
  unfold addressed
  rw [List.map_filterMap]
  conv_rhs => rw [← List.zipIdx_map_fst 0 log, List.filterMap_map]
  refine congrArg (fun f => List.filterMap f _) (funext fun x => ?_)
  simp

theorem frames_sublist (t : Ticket) (log : List Dispatch) :
    (log.filterMap (Dispatch.frameFor? t)).Sublist (log.map (·.frame)) := by
  induction log with
  | nil => exact .slnil
  | cons d log ih =>
    rw [List.filterMap_cons]
    by_cases ht : t ∈ d.tickets
    · rw [Dispatch.frameFor?, if_pos ht]
      exact ih.cons_cons d.frame
    · rw [Dispatch.frameFor?, if_neg ht]
      exact ih.cons d.frame

namespace Room

variable {σ : Type} {g : Game σ} {r r' : Room σ} {c : Command} {cs : List Command} {t : Ticket}

/-! ## The list of dispatches -/

def dispatch? (p : Protocol) (members : List (ConnId × Ticket)) (sent : Recipient × Message) :
    Option Dispatch :=
  (frameOf? p sent.2).map fun frame =>
    ⟨frame, (members.filter fun m => sent.1.includes m.1).map (·.2)⟩

theorem dispatch_eq_flatMap (p : Protocol) (members : List (ConnId × Ticket)) (out : Outbound) :
    dispatch p members out = (out.filterMap (dispatch? p members)).flatMap Dispatch.effects := by
  induction out with
  | nil => rfl
  | cons sent out ih =>
    obtain ⟨recipient, msg⟩ := sent
    rw [dispatch, ih]
    cases hframe : frameOf? p msg with
    | none =>
      rw [List.filterMap_cons_none (by simp [dispatch?, hframe])]
      rfl
    | some frame =>
      rw [List.filterMap_cons_some (by simp [dispatch?, hframe]; rfl), List.flatMap_cons,
        Dispatch.effects, List.map_map]
      rfl

/-- What a room dispatches at a command: what the rules want sent and can be. -/
def dispatches (g : Game σ) (r : Room σ) (c : Command) : List Dispatch :=
  match r.verdict? g c with
  | some (.proceed _ out) => out.filterMap (dispatch? g.protocol (r.gathered c).members)
  | _ => []

/-- All that a room dispatches while it handles commands. -/
def log (g : Game σ) : Option (Room σ) → List Command → List Dispatch
  | none, _ | some _, [] => []
  | some r, c :: cs => r.dispatches g c ++ log g (r.step g c).1 cs

theorem dispatch_frames {p : Protocol} {members : List (ConnId × Ticket)}
    (hn : (members.map (·.2)).Nodup) (out : Outbound) (t : Ticket) :
    (dispatch p members out).filterMap (Effect.frameFor? t) =
      (out.filterMap (dispatch? p members)).filterMap (Dispatch.frameFor? t) := by
  have hnodup : ∀ d ∈ out.filterMap (dispatch? p members), d.tickets.Nodup := by
    intro d hd
    obtain ⟨sent, -, hsent⟩ := List.mem_filterMap.mp hd
    obtain ⟨frame, -, rfl⟩ := Option.map_eq_some_iff.mp hsent
    exact hn.sublist (List.filter_sublist.map _)
  rw [dispatch_eq_flatMap]
  generalize out.filterMap (dispatch? p members) = ds at hnodup
  induction ds with
  | nil => rfl
  | cons d ds ih =>
    have hrest := ih fun d' hd' => hnodup d' (List.mem_cons_of_mem d hd')
    rw [List.flatMap_cons, List.filterMap_append, hrest,
      Dispatch.effects_frames (hnodup d List.mem_cons_self), List.filterMap_cons]
    cases d.frameFor? t <;> rfl

theorem no_frames {es : List Effect} (h : ∀ e ∈ es, e.frameFor? t = none) :
    es.filterMap (Effect.frameFor? t) = [] := List.filterMap_eq_nil_iff.mpr h

theorem step_frames (hn : ((r.gathered c).members.map (·.2)).Nodup) (g : Game σ) (t : Ticket) :
    (r.step g c).2.filterMap (Effect.frameFor? t) =
      (r.dispatches g c).filterMap (Dispatch.frameFor? t) := by
  have hmembers : ∀ (ms : List (ConnId × Ticket)) (f : ConnId × Ticket → Effect),
      (∀ m, (f m).frameFor? t = none) → (ms.map f).filterMap (Effect.frameFor? t) = [] := by
    intro ms f hf
    refine no_frames fun e he => ?_
    obtain ⟨m, -, rfl⟩ := List.mem_map.mp he
    exact hf m
  unfold dispatches
  cases hv : r.verdict? g c with
  | none =>
    cases c with
    | close reason => exact hmembers r.members _ fun _ => rfl
    | join | leave | frame =>
      rw [step_of_unasked (fun _ => Command.noConfusion) hv]
      rfl
  | some v =>
    have hparting : ((r.parting c).map Effect.disconnect).filterMap (Effect.frameFor? t) = [] := by
      refine no_frames fun e he => ?_
      obtain ⟨t', -, rfl⟩ := List.mem_map.mp he
      rfl
    rw [step_of_verdict hv, List.filterMap_append, hparting, List.nil_append]
    cases v with
    | proceed state out => exact dispatch_frames hn out t
    | fault text => exact hmembers _ _ fun _ => rfl
    | crash => exact hmembers _ _ fun _ => rfl

/-! ## Queues of their own -/

def tickets (r : Room σ) : List Ticket := r.members.map (·.2)

end Room

def Command.ticket? : Command → Option Ticket
  | .join _ ticket => some ticket
  | .leave _ | .frame _ _ | .close _ => none

namespace Room

variable {σ : Type} {g : Game σ} {r r' : Room σ} {c : Command} {cs : List Command} {t : Ticket}

/-- Nobody is in a room twice, and no ticket is given to two members, be they in the room or to come. -/
structure Separate (r : Room σ) (cs : List Command) : Prop where
  ascending : r.connections.Pairwise (· < ·)
  nodup : (r.tickets ++ cs.filterMap Command.ticket?).Nodup

theorem separate_new (id : RoomId) (state : σ) (h : (cs.filterMap Command.ticket?).Nodup) :
    Separate ⟨id, state, []⟩ cs := ⟨List.Pairwise.nil, h⟩

theorem insertMember_split (conn : ConnId) (ticket : Ticket) (ms : List (ConnId × Ticket)) :
    ∃ before after, insertMember conn ticket ms = before ++ (conn, ticket) :: after ∧
      (before ++ after).Sublist ms := by
  induction ms with
  | nil => exact ⟨[], [], rfl, .slnil⟩
  | cons m ms ih =>
    obtain ⟨before, after, hsplit, hsub⟩ := ih
    unfold insertMember
    split
    · exact ⟨[], m :: ms, rfl, .refl _⟩
    · split
      · exact ⟨[], ms, rfl, .cons _ (.refl _)⟩
      · refine ⟨m :: before, after, ?_, hsub.cons_cons m⟩
        rw [hsplit]
        rfl

theorem Separate.weaken (h : Separate r (c :: cs)) : Separate r cs where
  ascending := h.ascending
  nodup := h.nodup.sublist (((List.sublist_cons_self c cs).filterMap _).append_left r.tickets)

theorem Separate.gathered (h : Separate r (c :: cs)) : Separate (r.gathered c) cs := by
  cases c with
  | join conn ticket =>
    refine ⟨?_, ?_⟩
    · rw [connections, gathered, map_fst_insertMember]
      exact insertConn_ascending h.ascending
    · obtain ⟨before, after, hsplit, hsub⟩ := insertMember_split conn ticket r.members
      have hless : ((before ++ after).map (·.2) ++ ticket :: cs.filterMap Command.ticket?).Nodup :=
        h.nodup.sublist ((hsub.map _).append_right _)
      rw [tickets, gathered, hsplit]
      refine hless.perm ?_
      simp only [List.map_append, List.map_cons, List.append_assoc, List.cons_append]
      refine List.Perm.append_left _ ?_
      exact List.perm_middle
  | leave conn =>
    have hsub : (r.gathered (.leave conn)).members.Sublist r.members := List.filter_sublist
    exact ⟨h.ascending.sublist (hsub.map _), h.nodup.sublist ((hsub.map _).append_right _)⟩
  | frame sender bytes => exact h.weaken
  | close reason => exact h.weaken

theorem Separate.nodup_tickets (h : Separate r cs) : r.tickets.Nodup := h.nodup.of_append_left

theorem Separate.not_joins (h : Separate r cs) (ht : t ∈ r.tickets) :
    t ∉ cs.filterMap Command.ticket? :=
  fun hjoin => (List.nodup_append.mp h.nodup).2.2 t ht t hjoin rfl

/-- The ticket of a member that goes is not in use any more. -/
theorem Separate.parting (h : Separate r (c :: cs)) (ht : t ∈ r.parting c) :
    t ∉ (r.gathered c).tickets ∧ t ∉ cs.filterMap Command.ticket? := by
  have hold : t ∈ r.tickets := mem_parting ht
  have hmember : ∀ conn, t ∈ (r.members.lookup conn).toList → (conn, t) ∈ r.members :=
    fun conn hlookup => mem_of_lookup (Option.mem_toList.mp hlookup)
  have hsame : ∀ conn, (conn, t) ∈ r.members → ∀ m ∈ r.members, m.2 = t → m.1 = conn := by
    intro conn hconn m hm heq
    have hinj := List.inj_on_of_nodup_map h.nodup_tickets hm hconn heq
    rw [hinj]
  refine ⟨fun hnew => ?_, h.weaken.not_joins hold⟩
  obtain ⟨m, hm, heq⟩ := List.mem_map.mp hnew
  cases c with
  | join conn ticket =>
    obtain rfl | hmem := mem_insertMember hm
    · exact h.not_joins hold (heq ▸ List.mem_cons_self)
    · -- a former member of the same number has been replaced
      have hnodup := ascending_nodup h.gathered.ascending
      have hin : (conn, ticket) ∈ (r.gathered (.join conn ticket)).members :=
        mem_insertMember_self conn ticket r.members
      have hconn := hsame conn (hmember conn ht) m hmem heq
      have hinj := List.inj_on_of_nodup_map hnodup hm hin hconn
      refine h.not_joins hold ?_
      rw [← heq, hinj]
      exact List.mem_cons_self
  | leave conn =>
    obtain ⟨hmem, hne⟩ := List.mem_filter.mp hm
    exact bne_iff_ne.mp hne (hsame conn (hmember conn ht) m hmem heq)
  | frame sender bytes => cases ht
  | close reason => cases ht

theorem Separate.step (h : Separate r (c :: cs)) (hr : (r.step g c).1 = some r') :
    Separate r' cs := by
  have hmembers := members_of_step hr
  obtain ⟨hascending, hnodup⟩ := h.gathered
  refine ⟨?_, ?_⟩
  · rw [connections, hmembers]
    exact hascending
  · rw [tickets, hmembers]
    exact hnodup

/-! ## Whole runs -/

theorem run_none (g : Game σ) (cs : List Command) :
    (run g none cs).2 = (cs.filterMap Command.ticket?).map Effect.disconnect := by
  induction cs with
  | nil => rfl
  | cons c cs ih =>
    have hfirst : (run g none (c :: cs)).2 = abandon c ++ (run g none cs).2 := rfl
    rw [hfirst, ih]
    cases c <;> rfl

theorem run_cons (g : Game σ) (r : Room σ) (c : Command) (cs : List Command) :
    (run g (some r) (c :: cs)).2 = (r.step g c).2 ++ (run g (r.step g c).1 cs).2 := rfl

theorem run_frames (h : Separate r cs) (g : Game σ) (t : Ticket) :
    (run g (some r) cs).2.filterMap (Effect.frameFor? t) =
      (log g (some r) cs).filterMap (Dispatch.frameFor? t) := by
  induction cs generalizing r with
  | nil => rfl
  | cons c cs ih =>
    rw [run_cons, log, List.filterMap_append, List.filterMap_append,
      step_frames h.gathered.nodup_tickets g t]
    refine congrArg (_ ++ ·) ?_
    cases hr : (r.step g c).1 with
    | some r' => exact ih (h.step hr)
    | none =>
      rw [run_none, no_frames fun e he => ?_]
      · cases cs <;> rfl
      · obtain ⟨t', -, rfl⟩ := List.mem_map.mp he
        rfl

theorem mem_tickets_gathered (ht : t ∈ (r.gathered c).tickets) :
    t ∈ r.tickets ∨ t ∈ [c].filterMap Command.ticket? := by
  obtain ⟨m, hm, rfl⟩ := List.mem_map.mp ht
  obtain hm | rfl := mem_gathered hm
  · exact .inl (List.mem_map_of_mem hm)
  · exact .inr (List.mem_singleton_self m.2)

theorem ticket_of_mem_run {e : Effect} (he : e ∈ (run g (some r) cs).2) :
    e.ticket ∈ r.tickets ∨ e.ticket ∈ cs.filterMap Command.ticket? := by
  induction cs generalizing r with
  | nil => cases he
  | cons c cs ih =>
    have hcons : ∀ t, t ∈ [c].filterMap Command.ticket? ∨ t ∈ cs.filterMap Command.ticket? →
        t ∈ (c :: cs).filterMap Command.ticket? := by
      intro t ht
      rw [← List.singleton_append, List.filterMap_append]
      exact List.mem_append.mpr ht
    rw [run_cons] at he
    obtain he | he := List.mem_append.mp he
    · obtain hold | ⟨conn, rfl⟩ := ticket_of_mem_step he
      · exact .inl hold
      · exact .inr (hcons _ (.inl (List.mem_singleton_self e.ticket)))
    · cases hr : (r.step g c).1 with
      | none =>
        rw [hr, run_none] at he
        obtain ⟨t, ht, rfl⟩ := List.mem_map.mp he
        exact .inr (hcons t (.inr ht))
      | some r' =>
        rw [hr] at he
        obtain hseated | hjoin := ih he
        · rw [tickets, members_of_step hr] at hseated
          exact (mem_tickets_gathered hseated).imp_right fun hnew => hcons _ (.inl hnew)
        · exact .inr (hcons _ (.inr hjoin))

/-- The second of two effects on one queue comes after a frame. -/
def Continues (e e' : Effect) : Prop := e.ticket = e'.ticket → ∃ frame, e = .deliver e.ticket frame

theorem continues_of_nodup {ms : List (ConnId × Ticket)} (hn : (ms.map (·.2)).Nodup)
    (f : Ticket → Effect) (hf : ∀ t, (f t).ticket = t) :
    (ms.map fun m => f m.2).Pairwise Continues := by
  rw [List.Nodup, List.pairwise_map] at hn
  rw [List.pairwise_map]
  refine hn.imp fun hne heq => absurd ?_ hne
  rwa [hf, hf] at heq

theorem Separate.step_continues (h : Separate r (c :: cs)) (g : Game σ) :
    (r.step g c).2.Pairwise Continues := by
  have hnodup : ((r.gathered c).members.map (·.2)).Nodup := h.gathered.nodup_tickets
  cases hv : r.verdict? g c with
  | none =>
    cases c with
    | close reason => exact continues_of_nodup hnodup (.close · reason) fun _ => rfl
    | join | leave | frame =>
      rw [step_of_unasked (fun _ => Command.noConfusion) hv]
      exact .nil
  | some v =>
    rw [step_of_verdict hv]
    refine List.pairwise_append.mpr ⟨?_, ?_, fun e he e' he' heq => ?_⟩
    · -- one member goes at most
      cases c with
      | join conn ticket =>
        rw [Room.parting]
        cases r.members.lookup conn <;> simp
      | leave conn =>
        rw [Room.parting]
        cases r.members.lookup conn <;> simp
      | frame sender bytes => exact .nil
      | close reason => exact .nil
    · cases v with
      | proceed state out =>
        refine List.pairwise_of_forall_mem_list fun e he e' _ _ => ?_
        obtain ⟨m, -, -, -, frame, -, -, -, rfl⟩ := mem_dispatch he
        exact ⟨frame, rfl⟩
      | fault text => exact continues_of_nodup hnodup (.close · faultReason) fun _ => rfl
      | crash => exact continues_of_nodup hnodup .disconnect fun _ => rfl
    · obtain ⟨t, ht, rfl⟩ := List.mem_map.mp he
      have hseated : e'.ticket ∈ (r.gathered c).tickets := by
        cases v with
        | proceed state out =>
          obtain ⟨m, hm, -, -, -, -, -, -, rfl⟩ := mem_dispatch he'
          exact List.mem_map_of_mem hm
        | fault text =>
          obtain ⟨m, hm, rfl⟩ := List.mem_map.mp he'
          exact List.mem_map_of_mem hm
        | crash =>
          obtain ⟨m, hm, rfl⟩ := List.mem_map.mp he'
          exact List.mem_map_of_mem hm
      rw [← heq] at hseated
      exact absurd hseated (h.parting ht).1

/-- Whoever gets something other than a frame is not there any more. -/
theorem Separate.over (h : Separate r (c :: cs)) {e : Effect} (he : e ∈ (r.step g c).2)
    (hlast : ∀ frame, e ≠ .deliver e.ticket frame) : e.ticket ∉ cs.filterMap Command.ticket? ∧
      ∀ r', (r.step g c).1 = some r' → e.ticket ∉ r'.tickets := by
  have hended : ∀ m ∈ (r.gathered c).members, (r.step g c).1 = none →
      m.2 ∉ cs.filterMap Command.ticket? ∧ ∀ r', (r.step g c).1 = some r' → m.2 ∉ r'.tickets := by
    intro m hm hnone
    refine ⟨h.gathered.not_joins (List.mem_map_of_mem hm), fun r' hr => ?_⟩
    rw [hnone] at hr
    cases hr
  obtain ⟨t, ht, rfl⟩ | ⟨m, hm, ⟨_, frame, -, rfl⟩ | ⟨_, hv, rfl⟩ | ⟨_, rfl, rfl⟩ | ⟨hv, rfl⟩⟩ :=
    mem_step he
  · refine ⟨(h.parting ht).2, fun r' hr => ?_⟩
    rw [tickets, members_of_step hr]
    exact (h.parting ht).1
  · exact absurd rfl (hlast frame)
  · exact hended m hm (by rw [step_of_verdict hv]; rfl)
  · exact hended m hm rfl
  · exact hended m hm (by rw [step_of_verdict hv]; rfl)

theorem run_continues (h : Separate r cs) (g : Game σ) :
    (run g (some r) cs).2.Pairwise Continues := by
  induction cs generalizing r with
  | nil => exact .nil
  | cons c cs ih =>
    rw [run_cons]
    refine List.pairwise_append.mpr ⟨h.step_continues g, ?_, fun e he e' he' heq => ?_⟩
    · cases hr : (r.step g c).1 with
      | some r' => exact ih (h.step hr)
      | none =>
        have hjoins : (cs.filterMap Command.ticket?).Nodup := h.weaken.nodup.of_append_right
        rw [run_none, List.pairwise_map]
        exact hjoins.imp fun hne hsame => absurd hsame hne
    · refine Classical.byContradiction fun hlast => ?_
      obtain ⟨hjoins, hgone⟩ := h.over he fun frame hframe => hlast ⟨frame, hframe⟩
      cases hr : (r.step g c).1 with
      | none =>
        rw [hr, run_none] at he'
        obtain ⟨t, ht, rfl⟩ := List.mem_map.mp he'
        exact hjoins (heq ▸ ht)
      | some r' =>
        rw [hr] at he'
        obtain hseated | hjoin := ticket_of_mem_run he'
        · exact hgone r' hr (heq ▸ hseated)
        · exact hjoins (heq ▸ hjoin)

end Room

end Gamewire
