import Gamewire.Proofs.Room.Closing
import Gamewire.Proofs.Room.Dispatch
import Gamewire.Proofs.Room.Filter
import Gamewire.Proofs.Room.Receiver

/-! What readers get of what a room dispatches, whenever they read. The effects of a room and the reads
take turns in any order, even in the middle of one dispatch. -/
namespace Gamewire
set_option autoImplicit false

/-- One thing that happens to queues. -/
inductive Turn where
  | room (e : Effect)
  | read (ticket : Ticket)
  | drop (ticket : Ticket)
deriving Repr, DecidableEq

namespace Turn

def ticket : Turn → Ticket
  | room e => e.ticket
  | read ticket | drop ticket => ticket

def effect? : Turn → Option Effect
  | room e => some e
  | read _ | drop _ => none

/-- What a turn makes of the queue that it is about. -/
def act : Turn → Mailbox → Option Mailbox
  | room e, q => some (e.act q)
  | read _, q => some q.receive.2
  | drop _, _ => none

def frameFor? (t : Ticket) (e : Turn) : Option (List UInt8) := e.effect?.bind (Effect.frameFor? t)

end Turn

def Delivery.frame? : Delivery → Option (List UInt8)
  | .frame bytes => some bytes
  | .closed _ => none

/-! ## Marked items -/

section Marked

variable {α : Type} {xs : List α} {x : α} {marks : List Bool}

/-- The items with a mark. -/
def marked (xs : List α) (marks : List Bool) : List α := ((xs.zip marks).filter (·.2)).map (·.1)

theorem marked_nil (xs : List α) : marked xs [] = [] := by
  rw [marked, List.zip_nil_right]
  rfl

theorem marked_cons_true : marked (x :: xs) (true :: marks) = x :: marked xs marks := rfl

theorem marked_cons_false : marked (x :: xs) (false :: marks) = marked xs marks := rfl

theorem marked_of_unmarked (xs : List α) (h : ∀ mark ∈ marks, mark = false) :
    marked xs marks = [] := by
  have hnone : (xs.zip marks).filter (·.2) = [] := by
    refine List.filter_eq_nil_iff.mpr fun x hx => ?_
    rw [h x.2 (List.of_mem_zip hx).2]
    exact Bool.false_ne_true
  rw [marked, hnone, List.map_nil]

theorem marked_sublist (xs : List α) (marks : List Bool) : (marked xs marks).Sublist xs := by
  induction xs generalizing marks with
  | nil => exact .slnil
  | cons x xs ih =>
    cases marks with
    | nil =>
      rw [marked_nil]
      exact List.nil_sublist _
    | cons mark marks =>
      cases mark with
      | false => exact (ih marks).cons x
      | true => exact (ih marks).cons_cons x

end Marked

/-- What two strictly numbered lists share comes in the same order in both. -/
theorem shared_order {α : Type} [BEq α] [LawfulBEq α] {xs ys : List (Nat × α)}
    (hx : xs.Pairwise fun x y => x.1 < y.1) (hy : ys.Pairwise fun x y => x.1 < y.1) :
    xs.filter (· ∈ ys) = ys.filter (· ∈ xs) := by
  have hnodup : ∀ {zs : List (Nat × α)}, (zs.Pairwise fun x y => x.1 < y.1) → zs.Nodup := by
    intro zs hz
    refine hz.imp ?_
    rintro x _ hlt rfl
    exact Nat.lt_irrefl x.1 hlt
  have hperm : (xs.filter (· ∈ ys)).Perm (ys.filter (· ∈ xs)) := by
    refine (List.perm_ext_iff_of_nodup ((hnodup hx).filter _) ((hnodup hy).filter _)).mpr fun x => ?_
    simp only [List.mem_filter, decide_eq_true_eq]
    exact and_comm
  refine hperm.eq_of_pairwise ?_ (hx.filter _) (hy.filter _)
  intro x y _ _ hxy hyx
  exact absurd (Nat.lt_trans hxy hyx) (Nat.lt_irrefl x.1)

/-! ## Reads -/

namespace Mailbox

theorem receive_frames (q : Mailbox) :
    (q.receive.1.bind Delivery.frame?).toList ++ q.receive.2.frames = q.frames := by
  unfold receive
  cases q.notice with
  | some reason => rfl
  | none =>
    cases hframes : q.frames with
    | nil => simp only [Option.bind_none, Option.toList_none, List.nil_append, hframes]
    | cons frame frames => rfl

theorem receive_bound (q : Mailbox) : q.receive.2.bound = q.bound := by
  unfold receive
  split
  · rfl
  · split <;> rfl

theorem receive_pending (q : Mailbox) :
    q.receive.1 = q.pending.head? ∧ q.receive.2.pending = q.pending.tail := by
  unfold receive pending
  cases hnotice : q.notice with
  | some reason => exact ⟨rfl, rfl⟩
  | none =>
    cases hframes : q.frames with
    | nil => simp [hnotice, hframes]
    | cons frame frames => simp

end Mailbox

namespace Lobby

variable {σ : Type} {g : Game σ} {l l' : Lobby σ} {t u : Ticket} {e : Turn} {es es' : List Turn}
  {q : Mailbox}

def play (l : Lobby σ) : Turn → Lobby σ
  | .room e => l.applyEffect e
  | .read ticket => (l.receive ticket).2
  | .drop ticket => l.dropMailbox ticket

def plays (l : Lobby σ) (es : List Turn) : Lobby σ := es.foldl play l

/-- What the reader of a queue gets. -/
def gets (t : Ticket) : Lobby σ → List Turn → List Delivery
  | _, [] => []
  | l, e :: es => (if e = .read t then (l.receive t).1.toList else []) ++ gets t (l.play e) es

/-- Whether the frames for a ticket find fewer than `places` frames in its queue, one after another. -/
def finds (t : Ticket) (places : Nat) : Lobby σ → List Turn → List Bool
  | _, [] => []
  | l, e :: es =>
    ((e.frameFor? t).map fun _ => (l.mailbox? t).any fun q => q.frames.length < places).toList ++
      finds t places (l.play e) es

/-- A command in the lobby is one way for the effects of the room to happen. -/
theorem command_plays {id : RoomId} {r : Room σ} (g : Game σ) (c : Command)
    (hr : l.rooms.lookup id = some r) (t : Ticket) : (command g id c l).mailbox? t =
      (l.plays ((r.step g c).2.map .room)).mailbox? t := by
  have hplays : l.plays ((r.step g c).2.map .room) = l.applyEffects (r.step g c).2 := List.foldl_map
  rw [mailbox?_command g c hr, hplays, mailbox?_applyEffects]

theorem mailbox?_receive (ticket t : Ticket) (l : Lobby σ) : (l.receive ticket).2.mailbox? t =
    if t = ticket then (l.mailbox? t).map (·.receive.2) else l.mailbox? t := by
  by_cases ht : t = ticket
  · subst ht
    rw [if_pos rfl]
    cases hq : l.mailbox? t with
    | none =>
      rw [Lobby.receive, hq]
      exact hq
    | some q => exact (receive_mailbox? hq).2
  · rw [if_neg ht, Lobby.receive]
    cases l.mailbox? ticket with
    | none => rfl
    | some q => exact (mailbox?_changeMailbox ticket t _ l).trans (if_neg ht)

theorem mailbox?_play (l : Lobby σ) (e : Turn) (t : Ticket) : (l.play e).mailbox? t =
    if e.ticket = t then (l.mailbox? t).bind e.act else l.mailbox? t := by
  have hmap : ∀ f : Mailbox → Mailbox, (l.mailbox? t).map f = (l.mailbox? t).bind (some ∘ f) :=
    fun f => Option.map_eq_bind
  cases e with
  | room e =>
    have hplay : (l.play (.room e)).mailbox? t = _ := mailbox?_applyEffect l e t
    rw [hplay, Turn.ticket]
    split
    · exact hmap _
    · exact Option.map_id'
  | read ticket =>
    have hplay : (l.play (.read ticket)).mailbox? t = _ := mailbox?_receive ticket t l
    rw [hplay, Turn.ticket]
    simp only [eq_comm (a := t), hmap]
    rfl
  | drop ticket =>
    have hplay : (l.play (.drop ticket)).mailbox? t = _ := mailbox?_dropMailbox ticket t l
    rw [hplay, Turn.ticket]
    simp only [eq_comm (a := t)]
    refine if_congr Iff.rfl ?_ rfl
    cases l.mailbox? t <;> rfl

theorem mailbox?_play_of_ne (l : Lobby σ) (h : e.ticket ≠ t) :
    (l.play e).mailbox? t = l.mailbox? t := by
  rw [mailbox?_play, if_neg h]

theorem mailbox?_play_of_eq (hq : l.mailbox? t = some q) (h : e.ticket = t) :
    (l.play e).mailbox? t = e.act q := by
  rw [mailbox?_play, if_pos h, hq, Option.bind_some]

/-! ## Queues without a reader -/

theorem play_of_none (h : l.mailbox? t = none) (e : Turn) : (l.play e).mailbox? t = none := by
  rw [mailbox?_play, h, Option.bind_none]
  split <;> rfl

theorem gets_of_none (h : l.mailbox? t = none) (es : List Turn) : l.gets t es = [] := by
  induction es generalizing l with
  | nil => rfl
  | cons e es ih =>
    rw [gets, ih (play_of_none h e), Lobby.receive, h]
    split <;> rfl

theorem finds_of_none (h : l.mailbox? t = none) (places : Nat) (es : List Turn) :
    ∀ found ∈ l.finds t places es, found = false := by
  induction es generalizing l with
  | nil => exact List.forall_mem_nil _
  | cons e es ih =>
    intro found hfound
    obtain hfirst | hrest := List.mem_append.mp hfound
    · obtain ⟨_, -, rfl⟩ := Option.map_eq_some_iff.mp (Option.mem_toList.mp hfirst)
      rw [h]
      rfl
    · exact ih (play_of_none h e) found hrest

/-! ## Frames -/

theorem frameFor?_of_ne (h : e.ticket ≠ t) : e.frameFor? t = none := by
  cases e with
  | room e =>
    cases e with
    | deliver ticket frame => exact if_neg h
    | close ticket reason => rfl
    | disconnect ticket => rfl
  | read ticket => rfl
  | drop ticket => rfl

/-- Of the dispatches `as`, those that find a place in the queue `q` are got by its reader, after what
waits already, or they wait in the end. -/
def Accounts (t : Ticket) (l : Lobby σ) (es : List Turn) (as : List (Nat × List UInt8))
    (q : Mailbox) : Prop :=
  ∃ rest, q.frames ++ (marked as (l.finds t q.bound es)).map (·.2) =
      (l.gets t es).filterMap Delivery.frame? ++ rest ∧
    (.drop t ∉ es → (l.plays es).waiting t = rest)

variable {as : List (Nat × List UInt8)} {q' : Mailbox}

/-- A turn that brings no frame and reads none. -/
theorem Accounts.idle (h : Accounts t (l.play e) es as q') (hframes : q'.frames = q.frames)
    (hbound : q'.bound = q.bound) (hskip : e.frameFor? t = none) (hread : e ≠ .read t) :
    Accounts t l (e :: es) as q := by
  obtain ⟨rest, hrest, hwait⟩ := h
  refine ⟨rest, ?_, fun hmem => hwait (List.not_mem_of_not_mem_cons hmem)⟩
  rw [finds, hskip, gets, if_neg hread, ← hframes, ← hbound]
  exact hrest

theorem Accounts.deliver {k : Nat} {frame : List UInt8} (hq : l.mailbox? t = some q)
    (h : Accounts t (l.play (.room (.deliver t frame))) es as (q.deliver frame)) :
    Accounts t l (.room (.deliver t frame) :: es) ((k, frame) :: as) q := by
  obtain ⟨rest, hrest, hwait⟩ := h
  refine ⟨rest, ?_, fun hmem => hwait (List.not_mem_of_not_mem_cons hmem)⟩
  have hframe : (Turn.room (.deliver t frame)).frameFor? t = some frame := if_pos rfl
  rw [finds, hframe, hq, gets, if_neg Turn.noConfusion, List.nil_append, ← hrest]
  simp only [Mailbox.deliver, Option.map_some, Option.toList_some, Option.any_some,
    List.singleton_append]
  by_cases hplace : q.frames.length < q.bound
  · rw [decide_eq_true hplace, marked_cons_true, if_pos hplace, List.map_cons, List.append_assoc]
    rfl
  · rw [decide_eq_false hplace, marked_cons_false, if_neg hplace]

theorem Accounts.read (hq : l.mailbox? t = some q)
    (h : Accounts t (l.play (.read t)) es as q.receive.2) : Accounts t l (.read t :: es) as q := by
  obtain ⟨rest, hrest, hwait⟩ := h
  refine ⟨rest, ?_, fun hmem => hwait (List.not_mem_of_not_mem_cons hmem)⟩
  have hgot : (l.gets t (.read t :: es)).filterMap Delivery.frame? =
      (q.receive.1.bind Delivery.frame?).toList ++
        ((l.play (.read t)).gets t es).filterMap Delivery.frame? := by
    rw [gets, if_pos rfl, (receive_mailbox? hq).1, List.filterMap_append]
    refine congrArg (· ++ _) ?_
    cases q.receive.1 with
    | none => rfl
    | some d => cases d <;> rfl
  rw [q.receive_bound] at hrest
  rw [hgot, List.append_assoc, ← hrest, ← List.append_assoc, q.receive_frames]
  rfl

theorem accounts_drop (es : List Turn) (as : List (Nat × List UInt8)) (q : Mailbox) :
    Accounts t l (.drop t :: es) as q := by
  have hgone : (l.play (.drop t)).mailbox? t = none := (mailbox?_dropMailbox t t l).trans (if_pos rfl)
  have hunheard := marked_of_unmarked as (finds_of_none hgone q.bound es)
  refine ⟨q.frames, ?_, fun hmem => absurd List.mem_cons_self hmem⟩
  rw [gets, if_neg Turn.noConfusion, gets_of_none hgone]
  exact (congrArg (fun kept => q.frames ++ kept.map (·.2)) hunheard).trans (List.append_nil _)

theorem gets_frames (hq : l.mailbox? t = some q)
    (has : es.filterMap (Turn.frameFor? t) <+: as.map (·.2)) : Accounts t l es as q := by
  induction es generalizing l q as with
  | nil =>
    refine ⟨q.frames, ?_, fun _ => waiting_eq hq⟩
    rw [finds, marked_nil]
    exact List.append_nil _
  | cons e es ih =>
    by_cases ht : e.ticket = t
    · subst ht
      have hplay := mailbox?_play_of_eq hq rfl
      cases e with
      | room e =>
        cases e with
        | deliver ticket frame =>
          have hframe : (Turn.room (.deliver ticket frame)).frameFor? ticket = some frame := if_pos rfl
          have has : frame :: es.filterMap (Turn.frameFor? ticket) <+: as.map (·.2) := by
            rw [← List.filterMap_cons_some hframe]
            exact has
          cases as with
          | nil => exact absurd has.length_le (Nat.not_succ_le_zero _)
          | cons a as =>
            obtain ⟨k, frame'⟩ := a
            obtain ⟨heq, hrest⟩ := List.cons_prefix_cons.mp has
            cases heq
            exact .deliver hq (ih hplay hrest)
        | close ticket reason => exact .idle (ih hplay has) rfl rfl rfl Turn.noConfusion
        | disconnect ticket => exact .idle (ih hplay has) rfl rfl rfl Turn.noConfusion
      | read ticket => exact .read hq (ih hplay has)
      | drop ticket => exact accounts_drop es as q
    · have hskip := frameFor?_of_ne ht
      rw [List.filterMap_cons_none hskip] at has
      refine .idle (ih ((mailbox?_play_of_ne l ht).trans hq) has) rfl rfl hskip ?_
      exact fun heq => ht (congrArg Turn.ticket heq)

/-! ## What readers get -/

/-- The dispatches that found a place in the queue of a ticket, each with its number. -/
def kept (t : Ticket) (places : Nat) (log : List Dispatch) (l : Lobby σ) (es : List Turn) :
    List (Nat × List UInt8) := marked (addressed t log) (l.finds t places es)

/-- Those of them that the reader got. -/
def stream (t : Ticket) (places : Nat) (log : List Dispatch) (l : Lobby σ) (es : List Turn) :
    List (Nat × List UInt8) :=
  (l.kept t places log es).take ((l.gets t es).filterMap Delivery.frame?).length

/-- What the reader of a queue gets of the dispatches of a room: of those that are for it, in their order,
the ones that find a place. -/
structure Streams (t : Ticket) (places : Nat) (log : List Dispatch) (l : Lobby σ) (es : List Turn) :
    Prop where
  got : (l.gets t es).filterMap Delivery.frame? = (l.stream t places log es).map (·.2)
  /-- Nothing that found a place is lost, as long as there is a reader. -/
  lossless : .drop t ∉ es → (l.kept t places log es).map (·.2) =
    (l.gets t es).filterMap Delivery.frame? ++ (l.plays es).waiting t
  ascending : (l.stream t places log es).Pairwise fun x y => x.1 < y.1
  dispatched : ∀ x ∈ l.stream t places log es,
    ∃ d, log[x.1]? = some d ∧ t ∈ d.tickets ∧ d.frame = x.2
  subsequence : ((l.gets t es).filterMap Delivery.frame?).Sublist (log.map (·.frame))

theorem streams_of_prefix {log : List Dispatch} {buffer : Nat}
    (hq : l.mailbox? t = some (.ofBuffer buffer))
    (hes : es.filterMap (Turn.frameFor? t) <+: log.filterMap (Dispatch.frameFor? t)) :
    Streams t (max buffer 1) log l es := by
  rw [← addressed_frames] at hes
  obtain ⟨rest, hrest, hwait⟩ := gets_frames hq hes
  have hkept : (l.kept t (max buffer 1) log es).map (·.2) =
      (l.gets t es).filterMap Delivery.frame? ++ rest := hrest
  have hsub : (l.stream t (max buffer 1) log es).Sublist (addressed t log) :=
    (List.take_sublist _ _).trans (marked_sublist _ _)
  have hgot : (l.gets t es).filterMap Delivery.frame? =
      (l.stream t (max buffer 1) log es).map (·.2) := by
    rw [stream, List.map_take, hkept, List.take_left]
  refine ⟨hgot, fun hmem => ?_, (addressed_ascending t log).sublist hsub, fun x hx => ?_, ?_⟩
  · rw [hkept, hwait hmem]
  · exact mem_addressed.mp (hsub.subset hx)
  · rw [hgot]
    refine (hsub.map _).trans ?_
    rw [addressed_frames]
    exact frames_sublist t log

/-! ## Notices -/

/-- When nothing more is put into a queue, its reader gets what waits. -/
theorem gets_pending (hq : l.mailbox? t = some q) (hquiet : ∀ e ∈ es, e.ticket = t → e = .read t) :
    l.gets t es = q.pending.take (es.count (.read t)) := by
  induction es generalizing l q with
  | nil => rfl
  | cons e es ih =>
    have hrest := fun e' he' => hquiet e' (List.mem_cons_of_mem e he')
    by_cases ht : e.ticket = t
    · obtain rfl := hquiet e List.mem_cons_self ht
      obtain ⟨hfirst, htail⟩ := q.receive_pending
      rw [gets, if_pos rfl, (receive_mailbox? hq).1, ih (mailbox?_play_of_eq hq rfl) hrest, hfirst,
        htail, List.count_cons_self]
      cases q.pending with
      | nil => rw [List.head?_nil, List.tail_nil, List.take_nil, List.take_nil]; rfl
      | cons d pending => rfl
    · have hread : e ≠ .read t := fun heq => ht (congrArg Turn.ticket heq)
      rw [gets, if_neg hread, ih ((mailbox?_play_of_ne l ht).trans hq) hrest, List.count_cons_of_ne hread]
      rfl

theorem play_isSome (h : (l.mailbox? t).isSome) (he : e ≠ .drop t) :
    ((l.play e).mailbox? t).isSome := by
  obtain ⟨q, hq⟩ := Option.isSome_iff_exists.mp h
  by_cases ht : e.ticket = t
  · rw [mailbox?_play_of_eq hq ht]
    cases e with
    | room e => rfl
    | read ticket => rfl
    | drop ticket => exact absurd (congrArg Turn.drop ht) he
  · rw [mailbox?_play_of_ne l ht]
    exact h

theorem plays_isSome (h : (l.mailbox? t).isSome) (hes : .drop t ∉ es) :
    ((l.plays es).mailbox? t).isSome := by
  induction es generalizing l with
  | nil => exact h
  | cons e es ih =>
    obtain ⟨he, hrest⟩ := not_or.mp (List.mem_cons.not.mp hes)
    exact ih (play_isSome h (Ne.symm he)) hrest

/-- The next read after a notice returns it, and the reads after that what waited before. -/
theorem gets_close {effects : List Effect} (hlast : effects.Pairwise Room.Continues)
    {before after : List Turn} {reason : String}
    (hes : (before ++ .room (.close t reason) :: after).filterMap Turn.effect? <+: effects)
    (hq : (l.mailbox? t).isSome) (hdrop : .drop t ∉ before ++ .room (.close t reason) :: after) :
    (l.plays (before ++ [.room (.close t reason)])).gets t after =
      (.closed reason :: ((l.plays before).waiting t).map .frame).take (after.count (.read t)) := by
  obtain ⟨hbefore, hafter⟩ := not_or.mp (List.mem_append.not.mp hdrop)
  obtain ⟨q, hq⟩ := Option.isSome_iff_exists.mp (plays_isSome hq hbefore)
  have hplays : l.plays (before ++ [.room (.close t reason)]) =
      (l.plays before).play (.room (.close t reason)) := List.foldl_concat play l _ before
  have hclosed : ((l.plays before).play (.room (.close t reason))).mailbox? t =
      some (q.close reason) := mailbox?_play_of_eq hq rfl
  rw [hplays, gets_pending hclosed, waiting_eq hq]
  · rfl
  · intro e he ht
    cases e with
    | read ticket => exact congrArg Turn.read ht
    | drop ticket =>
      cases ht
      exact absurd (List.mem_cons_of_mem _ he) hafter
    | room e =>
      -- the notice is the last that the room does to the queue
      have hpair := hlast.sublist hes.sublist
      rw [List.filterMap_append] at hpair
      have htail : (Effect.close t reason :: after.filterMap Turn.effect?).Pairwise Room.Continues :=
        (List.pairwise_append.mp hpair).2.1
      have hnext := (List.pairwise_cons.mp htail).1 e (List.mem_filterMap.mpr ⟨_, he, rfl⟩)
      obtain ⟨frame, hframe⟩ := hnext ht.symm
      cases hframe

/-! ## Readers of their own -/

theorem mailbox?_play_congr (h : l.mailbox? t = l'.mailbox? t) (e : Turn) :
    (l.play e).mailbox? t = (l'.play e).mailbox? t := by
  rw [mailbox?_play, mailbox?_play, h]

theorem receive_congr (h : l.mailbox? t = l'.mailbox? t) : (l.receive t).1 = (l'.receive t).1 := by
  rw [Lobby.receive, Lobby.receive, h]
  cases l'.mailbox? t <;> rfl

/-- What a reader gets depends on its own queue and what happens to it. -/
theorem gets_filter (h : l.mailbox? t = l'.mailbox? t) (es : List Turn) :
    l.gets t es = l'.gets t (es.filter (·.ticket == t)) := by
  induction es generalizing l l' with
  | nil => rfl
  | cons e es ih =>
    by_cases ht : e.ticket = t
    · rw [List.filter_cons_of_pos (by simp [ht]), gets, gets, receive_congr h,
        ih (mailbox?_play_congr h e)]
    · have hread : e ≠ .read t := fun heq => ht (congrArg Turn.ticket heq)
      rw [List.filter_cons_of_neg (by simp [ht]), gets, if_neg hread,
        ih ((mailbox?_play_of_ne l ht).trans h)]
      rfl

theorem gets_congr (h : l.mailbox? t = l'.mailbox? t)
    (hes : es.filter (·.ticket == t) = es'.filter (·.ticket == t)) : l.gets t es = l'.gets t es' := by
  have hes' : l'.gets t es' = l'.gets t (es'.filter (·.ticket == t)) := gets_filter rfl es'
  rw [gets_filter h es, hes', hes]

end Lobby

end Gamewire
