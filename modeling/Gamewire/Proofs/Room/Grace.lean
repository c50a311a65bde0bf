import Gamewire.Proofs.Room.Moments

/-! How long empty rooms are kept. A timer is never called off; it is outdated by the generation of its
room, which grows whenever the room becomes empty and whenever it is entered while it is empty. So a
room goes exactly when it has been empty for the whole grace period. -/
namespace Gamewire
set_option autoImplicit false

theorem Registry.Shrinks.lookup_eq_none {r r' : Registry} (hs : r.Shrinks r') {id : RoomId}
    (h : r.rooms.lookup id = none) : r'.rooms.lookup id = none := by
  apply List.lookup_eq_none_iff.mpr
  intro x hx
  exact List.lookup_eq_none_iff.mp h x (hs.rooms.subset hx)

namespace Lobby

variable {σ : Type} {g : Game σ} {limits : Limits} {l l' : Lobby σ} {id : RoomId}

/-! ## Emptiness -/

/-- The room is live and nobody is in it. -/
def isVacant (l : Lobby σ) (id : RoomId) : Bool :=
  match l.registry.rooms.lookup id with
  | some e => e.members.isEmpty
  | none => false

/-- What is known one moment later of the time at which a room became empty. -/
def note (id : RoomId) (since : Option Nat) (l : Lobby σ) : Option Nat :=
  if l.isVacant id then some (since.getD l.now) else none

/-- The time at which a room became empty that has been live and empty ever since. -/
def emptySince (id : RoomId) (moments : List (Lobby σ)) : Option Nat :=
  moments.foldl (note id) none

theorem emptySince_append (id : RoomId) (moments later : List (Lobby σ)) :
    emptySince id (moments ++ later) = later.foldl (note id) (emptySince id moments) := by
  rw [emptySince, List.foldl_append]
  rfl

theorem emptySince_concat (id : RoomId) (moments : List (Lobby σ)) (m : Lobby σ) :
    emptySince id (moments ++ [m]) = note id (emptySince id moments) m :=
  emptySince_append id moments [m]

theorem emptySince_eq_none_iff {moments : List (Lobby σ)} :
    emptySince id moments = none ↔ ∀ m ∈ moments.getLast?, m.isVacant id = false := by
  induction moments using List.reverseRecOn with
  | nil => simp [emptySince]
  | append_singleton moments m _ =>
    rw [emptySince_concat, note, List.getLast?_concat]
    cases hm : m.isVacant id <;> simp [hm]

/-- The last stretch of moments at which the room was live and empty began at that time. -/
theorem emptySince_eq_some_iff {moments : List (Lobby σ)} {t : Nat} :
    emptySince id moments = some t ↔ ∃ before m after, moments = before ++ m :: after ∧ m.now = t ∧
      (∀ x ∈ m :: after, x.isVacant id = true) ∧ ∀ x ∈ before.getLast?, x.isVacant id = false := by
  induction moments using List.reverseRecOn with
  | nil => simp [emptySince]
  | append_singleton moments m ih =>
    rw [emptySince_concat, note]
    constructor
    · intro h
      split at h
      · -- the stretch goes on, or it begins with this moment
        rename_i hvacant
        cases hsince : emptySince id moments with
        | none =>
          rw [hsince] at h
          refine ⟨moments, m, [], rfl, Option.some.inj h, ?_, emptySince_eq_none_iff.mp hsince⟩
          simpa using hvacant
        | some t' =>
          rw [hsince] at h
          cases h
          obtain ⟨before, first, after, rfl, hnow, hall, hbefore⟩ := ih.mp hsince
          refine ⟨before, first, after ++ [m], by simp, hnow, ?_, hbefore⟩
          intro x hx
          rw [← List.cons_append, List.mem_append, List.mem_singleton] at hx
          obtain hx | rfl := hx
          · exact hall x hx
          · exact hvacant
      · cases h
    · rintro ⟨before, first, after, heq, hnow, hall, hbefore⟩
      induction after using List.reverseRecOn with
      | nil =>
        obtain ⟨rfl, hlast⟩ := List.append_inj' heq rfl
        cases hlast
        rw [if_pos (hall m List.mem_cons_self), emptySince_eq_none_iff.mpr hbefore]
        exact congrArg some hnow
      | append_singleton after last _ =>
        rw [← List.cons_append, ← List.append_assoc] at heq
        obtain ⟨hmoments, hlast⟩ := List.append_inj' heq rfl
        cases hlast
        have hsince := ih.mpr ⟨before, first, after, hmoments, hnow,
          fun x hx => hall x (List.mem_append_left [m] hx), hbefore⟩
        rw [if_pos (hall m (by simp)), hsince]
        rfl

theorem note_of_lookup {e : Entry} (he : l.registry.rooms.lookup id = some e)
    (since : Option Nat) :
    note id since l = if e.members = [] then some (since.getD l.now) else none := by
  rw [note, isVacant, he]
  simp only [List.isEmpty_iff]

/-! ## Timers -/

/-- The timers of a room that carry a generation. -/
def pending (l : Lobby σ) (id : RoomId) (generation : Nat) : List Timer :=
  l.timers.filter fun t => t.room == id && t.generation == generation

theorem mem_pending {generation : Nat} {t : Timer} : t ∈ l.pending id generation ↔
    t ∈ l.timers ∧ t.room = id ∧ t.generation = generation := by
  rw [pending, List.mem_filter, Bool.and_eq_true, beq_iff_eq, beq_iff_eq]

/-- An empty room has one timer of its generation, due when its time is up; any other room has none. -/
structure Clocked (l : Lobby σ) (since : Option Nat) (id : RoomId) (e : Entry) : Prop where
  pending : l.pending id e.generation =
    (since.map fun t => ⟨t + l.limits.grace, id, e.generation⟩).toList
  empty_iff : since.isSome = true ↔ e.members = []

structure Timed (l : Lobby σ) (since : RoomId → Option Nat) : Prop where
  registry : l.registry.Sound
  /-- A timer is of its room's generation or an earlier one. -/
  aged : ∀ t ∈ l.timers, t.room.toNat < l.registry.nextId ∧
    ∀ e, l.registry.rooms.lookup t.room = some e → t.generation ≤ e.generation
  entries : ∀ id e, l.registry.rooms.lookup id = some e → Clocked l (since id) id e

theorem pending_eq_nil {generation : Nat}
    (h : ∀ t ∈ l.timers, t.room = id → t.generation ≠ generation) : l.pending id generation = [] := by
  apply List.filter_eq_nil_iff.mpr
  intro t ht
  simp only [Bool.and_eq_true, beq_iff_eq, not_and]
  exact h t ht

/-- A timer that may be set goes off for its room and its generation only. -/
theorem pending_timer {p : Prop} [Decidable p] {t : Timer}
    (htimers : l'.timers = l.timers ++ if p then [t] else []) (id : RoomId) (generation : Nat) :
    l'.pending id generation = l.pending id generation ++
      if p ∧ t.room = id ∧ t.generation = generation then [t] else [] := by
  rw [pending, htimers, List.filter_append]
  congr 1
  by_cases hp : p
  · simp only [hp, if_true, true_and, List.filter_cons, List.filter_nil, Bool.and_eq_true, beq_iff_eq]
  · simp [hp]

theorem Clocked.same {since : Option Nat} {e : Entry} (h : Clocked l since id e)
    (hpending : l'.pending id e.generation = l.pending id e.generation)
    (hlimits : l'.limits = l.limits) (he : l'.registry.rooms.lookup id = some e) :
    Clocked l' (note id since l') id e := by
  have hnote : note id since l' = since := by
    rw [note_of_lookup he]
    by_cases hempty : e.members = []
    · obtain ⟨t, rfl⟩ := Option.isSome_iff_exists.mp (h.empty_iff.mpr hempty)
      rw [if_pos hempty, Option.getD_some]
    · rw [if_neg hempty]
      exact (Option.not_isSome_iff_eq_none.mp fun hsome => hempty (h.empty_iff.mp hsome)).symm
  rw [hnote]
  exact ⟨by rw [hpending, hlimits, h.pending], h.empty_iff⟩

theorem clocked_occupied {e : Entry} (hmembers : e.members ≠ [])
    (hpending : l.pending id e.generation = []) (he : l.registry.rooms.lookup id = some e)
    (since : Option Nat) : Clocked l (note id since l) id e := by
  rw [note_of_lookup he, if_neg hmembers]
  exact ⟨hpending, by simp [hmembers]⟩

theorem clocked_vacated {e : Entry} (hmembers : e.members = [])
    (hpending : l.pending id e.generation = [⟨l.now + l.limits.grace, id, e.generation⟩])
    (he : l.registry.rooms.lookup id = some e) : Clocked l (note id none l) id e := by
  rw [note_of_lookup he, if_pos hmembers]
  exact ⟨hpending, by simp [hmembers]⟩

theorem Clocked.since_eq_none {since : Option Nat} {e : Entry} (h : Clocked l since id e)
    (hmembers : e.members ≠ []) : since = none :=
  Option.not_isSome_iff_eq_none.mp fun hsome => hmembers (h.empty_iff.mp hsome)

theorem Clocked.pending_eq_nil {since : Option Nat} {e : Entry} (h : Clocked l since id e)
    (hmembers : e.members ≠ []) : l.pending id e.generation = [] := by
  rw [h.pending, h.since_eq_none hmembers]
  rfl

theorem Timed.aged_of_ages {since : RoomId → Option Nat} (h : Timed l since)
    (ha : l.registry.Ages l'.registry) {t : Timer} (ht : t ∈ l.timers) :
    t.room.toNat < l'.registry.nextId ∧
      ∀ e, l'.registry.rooms.lookup t.room = some e → t.generation ≤ e.generation := by
  obtain ⟨hlt, hle⟩ := h.aged t ht
  refine ⟨Nat.lt_of_lt_of_le hlt ha.nextId_le, fun e' he' => ?_⟩
  obtain ⟨e, he, hle'⟩ := ha.generation_le t.room e' he' hlt
  exact Nat.le_trans (hle e he) hle'

/-! ## From moment to moment -/

theorem closing_iff_nil {e : Entry} (h : e.Sound l.registry.capacity) :
    e.state = .closing ↔ e.members = [] := by
  rw [h.state_eq, RoomState.ofCount_eq_closing_iff, List.length_eq_zero_iff]

theorem Timed.pending_entered {since : RoomId → Option Nat} (h : Timed l since) {r₁ : Registry}
    {e : Entry} (hmade : r₁ = l.registry ∨ l.registry.create = some (id, r₁))
    (he : r₁.rooms.lookup id = some e) :
    l.pending id (if e.state = .closing then e.generation + 1 else e.generation) = [] := by
  obtain rfl | hcreate := hmade
  · split
    · -- a generation that begins now is above those of all timers
      apply Lobby.pending_eq_nil
      rintro t ht rfl
      have hle := (h.aged t ht).2 e he
      omega
    · rename_i hstate
      rw [closing_iff_nil (h.registry.entry he)] at hstate
      exact (h.entries id e he).pending_eq_nil hstate
  · apply Lobby.pending_eq_nil
    rintro t ht rfl
    have hlt := (h.aged t ht).1
    have hid := (Registry.create_eq_some hcreate).1
    omega

theorem insertConn_ne_nil (conn : ConnId) (cs : List ConnId) : insertConn conn cs ≠ [] :=
  List.ne_nil_of_mem (mem_insertConn.mpr (.inl rfl))

theorem Timed.change {since : RoomId → Option Nat} (h : Timed l since) (hs : Still l l')
    (hc : l.registry.Change l'.registry) : Timed l' (fun id => note id (since id) l') := by
  have hpending : ∀ id generation, l'.pending id generation = l.pending id generation := by
    intro id generation
    rw [Lobby.pending, hs.timers]
    rfl
  refine ⟨hc.sound h.registry, ?_, ?_⟩
  · rw [hs.timers]
    exact fun t ht => h.aged_of_ages (hc.ages h.registry.toOrdered) ht
  · intro id' e' he'
    cases hc with
    | shrink hshrink =>
      have he := hshrink.lookup h.registry.toOrdered he'
      exact (h.entries id' e' he).same (hpending id' _) hs.limits he'
    | @enter r₁ _ id e conn hmade he hsound hshrink =>
      have hentered := hshrink.lookup hsound.toOrdered he'
      rw [Registry.addMember_eq he, Registry.lookup_setEntry] at hentered
      by_cases hid : id' = id
      · rw [if_pos hid, he] at hentered
        cases hentered
        refine clocked_occupied (insertConn_ne_nil conn _) ?_ he' _
        rw [hpending, hid]
        exact h.pending_entered hmade he
      · rw [if_neg hid] at hentered
        have hbefore : l.registry.rooms.lookup id' = some e' := by
          obtain rfl | hcreate := hmade
          · exact hentered
          · rw [← Registry.lookup_create_ne hcreate hid, hentered]
        exact (h.entries id' e' hbefore).same (hpending id' _) hs.limits he'

theorem Timed.pass {since : RoomId → Option Nat} (h : Timed l since)
    (hregistry : l'.registry = l.registry) (hlimits : l'.limits = l.limits)
    (htimers : l'.timers = l.timers) : Timed l' (fun id => note id (since id) l') := by
  refine ⟨hregistry ▸ h.registry, ?_, ?_⟩
  · rw [htimers, hregistry]
    exact h.aged
  · intro id e he
    have hbefore : l.registry.rooms.lookup id = some e := hregistry ▸ he
    exact (h.entries id e hbefore).same (by rw [pending, htimers]; rfl) hlimits he

theorem Timed.vacate {since : RoomId → Option Nat} (h : Timed l since) {conn : ConnId}
    {e : Entry} {registry : Registry}
    (hremove : l.registry.removeMember id conn = some (e, registry))
    (hs : registry.Shrinks l'.registry) (hlimits : l'.limits = l.limits)
    (htimers : l'.timers = l.timers ++ if e.state = .closing then
      [⟨l.now + l.limits.grace, id, e.generation⟩] else [])
    (hnow : l'.now = l.now) : Timed l' (fun id => note id (since id) l') := by
  obtain ⟨e₀, he₀, hmem, hregistry, hrest, hstate⟩ := Registry.removeMember_eq_some hremove
  have hgeneration := Registry.removeMember_generation hremove he₀
  have hsound := Registry.sound_removeMember h.registry hremove
  have hoccupied : e₀.members ≠ [] := List.ne_nil_of_mem hmem
  have hnone := (h.entries id e₀ he₀).since_eq_none hoccupied
  have hclosing : e.state = .closing ↔ e.members = [] := by
    rw [hstate, RoomState.ofCount_eq_closing_iff, List.length_eq_zero_iff]
  have hages := (Registry.ages_removeMember hremove).trans (hs.ages hsound.toOrdered)
  have hset := Registry.lookup_removeMember hremove
  -- none of the timers so far is of the generation that begins now
  have hold : e.state = .closing → l.pending id e.generation = [] := by
    intro hempty
    apply Lobby.pending_eq_nil
    rintro t ht rfl
    have hle := (h.aged t ht).2 e₀ he₀
    rw [hgeneration, if_pos hempty]
    omega
  have hpending := pending_timer htimers
  refine ⟨hsound.shrink hs, ?_, ?_⟩
  · intro t ht
    rw [htimers, List.mem_append] at ht
    obtain ht | ht := ht
    · exact h.aged_of_ages hages ht
    · split at ht
      · rw [List.mem_singleton] at ht
        subst ht
        refine ⟨?_, ?_⟩
        · exact Nat.lt_of_lt_of_le (h.registry.toOrdered.lt_of_lookup he₀) hages.nextId_le
        · intro e' he'
          have hbefore := hs.lookup hsound.toOrdered he'
          rw [hset] at hbefore
          cases hbefore
          exact Nat.le_refl _
      · cases ht
  · intro id' e' he'
    have hbefore := hs.lookup hsound.toOrdered he'
    by_cases hid : id' = id
    · rw [hid, hset] at hbefore
      cases hbefore
      rw [hid] at he' ⊢
      by_cases hempty : e.state = .closing
      · rw [hnone]
        refine clocked_vacated (hclosing.mp hempty) ?_ he'
        rw [hpending, hold hempty, if_pos ⟨hempty, rfl, rfl⟩, hnow, hlimits, List.nil_append]
      · refine clocked_occupied (fun hmembers => hempty (hclosing.mpr hmembers)) ?_ he' _
        rw [hpending, if_neg (fun hc => hempty hc.1), List.append_nil, hgeneration, if_neg hempty]
        exact (h.entries id e₀ he₀).pending_eq_nil hoccupied
    · rw [hregistry, Registry.lookup_setEntry, if_neg hid] at hbefore
      refine (h.entries id' e' hbefore).same ?_ hlimits he'
      rw [hpending, if_neg (fun hc => hid hc.2.1.symm), List.append_nil]

theorem Timed.move {since : RoomId → Option Nat} (h : Timed l since) (hm : Moves l l') :
    Timed l' (fun id => note id (since id) l') := by
  cases hm with
  | change hs hc => exact h.change hs hc
  | vacate hremove hs hlimits htimers hnow => exact h.vacate hremove hs hlimits htimers hnow
  | pass hregistry hlimits htimers _ => exact h.pass hregistry hlimits htimers

theorem Timed.way {since : RoomId → Option Nat} {ms : List (Lobby σ)} (h : Timed l since)
    (hw : Way l ms l') : Timed l' (fun id => ms.foldl (note id) (since id)) := by
  induction hw generalizing since with
  | done l => exact h
  | move hm _ ih => exact ih (h.move hm)

/-! ## Timers that go off -/

/-- Timers that are of no use to a room: it is gone, or they are of an earlier generation. -/
def Outdated (t : Timer) (l : Lobby σ) : Prop :=
  t.room.toNat < l.registry.nextId ∧
    ∀ e, l.registry.rooms.lookup t.room = some e → t.generation < e.generation

theorem Outdated.expire {t : Timer} (h : Outdated t l) (g : Game σ) : expire g l t = l := by
  unfold Lobby.expire
  refine if_neg ?_
  rintro ⟨-, hexpired⟩
  unfold Registry.isExpired at hexpired
  split at hexpired
  · rename_i e he
    have hlt := h.2 e he
    have hsame := (Bool.and_eq_true_iff.mp hexpired).2
    rw [beq_iff_eq] at hsame
    omega
  · cases hexpired

theorem Outdated.ages {t : Timer} (h : Outdated t l) (ha : l.registry.Ages l'.registry) :
    Outdated t l' := by
  refine ⟨Nat.lt_of_lt_of_le h.1 ha.nextId_le, fun e' he' => ?_⟩
  obtain ⟨e, he, hle⟩ := ha.generation_le t.room e' he' h.1
  exact Nat.lt_of_lt_of_le (h.2 e he) hle

/-- A timer ends its room if the room is empty in the generation of the timer. -/
def Ends (t : Timer) (id : RoomId) (e : Entry) : Prop :=
  e.members = [] ∧ t.room = id ∧ t.generation = e.generation

theorem expire_lookup (hsound : l.registry.Sound) (hrunning : l.manager = .running) (g : Game σ)
    (t : Timer) {e : Entry} (he : l.registry.rooms.lookup id = some e) :
    (Ends t id e ∧ (expire g l t).registry.rooms.lookup id = none ∧
        (expire g l t).rooms.lookup id = none) ∨
      (¬ Ends t id e ∧ (expire g l t).registry.rooms.lookup id = some e ∧
        (expire g l t).rooms.lookup id = l.rooms.lookup id) := by
  by_cases hroom : t.room = id
  · subst hroom
    have hexpired : l.registry.isExpired t.room t.generation = true ↔ Ends t t.room e := by
      rw [Registry.isExpired, he, Ends, ← closing_iff_nil (hsound.entry he)]
      simp only [Bool.and_eq_true, beq_iff_eq, true_and]
      exact and_congr_right fun _ => eq_comm
    unfold expire
    by_cases hends : Ends t t.room e
    · rw [if_pos ⟨hrunning, hexpired.mpr hends⟩]
      refine .inl ⟨hends, ?_, ?_⟩
      · refine (command_wanes g t.room (.close "room closed") _).registry.lookup_eq_none ?_
        rw [Registry.remove, lookup_drop, if_pos rfl]
      · rw [command_close_rooms, lookup_drop, if_pos rfl]
    · rw [if_neg (fun hc => hends (hexpired.mp hc.2))]
      exact .inr ⟨hends, he, rfl⟩
  · have helsewhere := expire_elsewhere g l t
    refine .inr ⟨fun hends => hroom hends.2.1, ?_, ?_⟩
    · rw [helsewhere.registry id (Ne.symm hroom), he]
    · exact helsewhere.rooms id (Ne.symm hroom)

theorem expire_still (g : Game σ) (l : Lobby σ) (t : Timer) : Still l (expire g l t) := by
  unfold expire
  split
  · have hstill := command_still g t.room (.close "room closed") { l with
      registry := l.registry.remove t.room }
    exact ⟨hstill.limits, hstill.timers, hstill.now⟩
  · exact .refl l

theorem foldl_expire_still (g : Game σ) (ts : List Timer) (l : Lobby σ) :
    Still l (ts.foldl (expire g) l) := by
  induction ts generalizing l with
  | nil => exact .refl l
  | cons t ts ih => exact (expire_still g l t).trans (ih _)

theorem foldl_expire_gone (g : Game σ) (ts : List Timer)
    (hregistry : l.registry.rooms.lookup id = none) (hrooms : l.rooms.lookup id = none) :
    (ts.foldl (expire g) l).registry.rooms.lookup id = none ∧
      (ts.foldl (expire g) l).rooms.lookup id = none := by
  induction ts generalizing l with
  | nil => exact ⟨hregistry, hrooms⟩
  | cons t ts ih =>
    refine ih ((expire_wanes g l t).registry.lookup_eq_none hregistry) ?_
    unfold expire
    split
    · rw [command_close_rooms, lookup_drop, hrooms, ite_self]
    · exact hrooms

theorem foldl_expire_lookup (ts : List Timer) (hsound : l.registry.Sound)
    (hrunning : l.manager = .running) (g : Game σ) {e : Entry}
    (he : l.registry.rooms.lookup id = some e) :
    ((∃ t ∈ ts, Ends t id e) ∧ (ts.foldl (expire g) l).registry.rooms.lookup id = none ∧
        (ts.foldl (expire g) l).rooms.lookup id = none) ∨
      ((∀ t ∈ ts, ¬ Ends t id e) ∧ (ts.foldl (expire g) l).registry.rooms.lookup id = some e ∧
        (ts.foldl (expire g) l).rooms.lookup id = l.rooms.lookup id) := by
  induction ts generalizing l with
  | nil => exact .inr ⟨List.forall_mem_nil _, he, rfl⟩
  | cons t ts ih =>
    have hw := expire_wanes g l t
    rw [List.foldl_cons]
    -- a room that is gone does not come back, and one that stays is still as it was for the rest
    obtain ⟨hends, hregistry, hrooms⟩ | ⟨hlives, hregistry, hrooms⟩ :=
      expire_lookup hsound hrunning g t he
    · exact .inl ⟨⟨t, List.mem_cons_self, hends⟩, foldl_expire_gone g ts hregistry hrooms⟩
    · obtain ⟨⟨s, hs, hends⟩, hgone⟩ | ⟨hall, hstays, hsame⟩ :=
        ih (hsound.shrink hw.registry) (hw.manager.trans hrunning) hregistry
      · exact .inl ⟨⟨s, List.mem_cons_of_mem t hs, hends⟩, hgone⟩
      · refine .inr ⟨?_, hstays, hsame.trans hrooms⟩
        intro s hs
        obtain rfl | hs := List.mem_cons.mp hs
        · exact hlives
        · exact hall s hs

/-- The time of a room that has been empty is up. -/
def IsUp (l : Lobby σ) (since : Option Nat) : Prop := ∃ t ∈ since, t + l.limits.grace ≤ l.now

theorem Clocked.ends_iff {since : Option Nat} {e : Entry} (h : Clocked l since id e) :
    (∃ t ∈ l.timers.filter (·.due ≤ l.now), Ends t id e) ↔ IsUp l since := by
  have hmem : ∀ t, (t ∈ l.timers ∧ t.room = id ∧ t.generation = e.generation) ↔
      ∃ t₀ ∈ since, t = ⟨t₀ + l.limits.grace, id, e.generation⟩ := by
    intro t
    rw [← mem_pending, h.pending]
    cases since <;> simp
  constructor
  · rintro ⟨t, ht, -, hroom, hgeneration⟩
    obtain ⟨ht, hdue⟩ := List.mem_filter.mp ht
    obtain ⟨t₀, ht₀, rfl⟩ := (hmem t).mp ⟨ht, hroom, hgeneration⟩
    exact ⟨t₀, ht₀, of_decide_eq_true hdue⟩
  · rintro ⟨t₀, ht₀, hup⟩
    obtain ⟨ht, hroom, hgeneration⟩ := (hmem _).mpr ⟨t₀, ht₀, rfl⟩
    have hempty := h.empty_iff.mp (Option.isSome_iff_exists.mpr ⟨t₀, ht₀⟩)
    exact ⟨_, List.mem_filter.mpr ⟨ht, decide_eq_true hup⟩, hempty, hroom, hgeneration⟩

/-- Where there is a room there is a manager. -/
def Manned (l : Lobby σ) : Prop := l.manager = .running ∨ l.registry.rooms = []

/-- When the timers go off, a room goes if its time is up, and stays as it is otherwise. -/
theorem Timed.ring_lookup {since : RoomId → Option Nat} (h : Timed l since) (hmanned : Manned l)
    (g : Game σ) {e : Entry} (he : l.registry.rooms.lookup id = some e) :
    (IsUp l (since id) ∧ (expireDue g l).registry.rooms.lookup id = none ∧
        (expireDue g l).rooms.lookup id = none) ∨
      (¬ IsUp l (since id) ∧ (expireDue g l).registry.rooms.lookup id = some e ∧
        (expireDue g l).rooms.lookup id = l.rooms.lookup id) := by
  have hrunning : l.manager = .running := by
    obtain hrunning | hnil := hmanned
    · exact hrunning
    · rw [hnil] at he
      cases he
  rw [← (h.entries id e he).ends_iff]
  unfold expireDue
  obtain hends | ⟨hlives, hstays⟩ := foldl_expire_lookup (l.timers.filter (·.due ≤ l.now))
    (l := { l with timers := l.timers.filter fun t => ¬ t.due ≤ l.now }) h.registry hrunning g he
  · exact .inl hends
  · refine .inr ⟨?_, hstays⟩
    rintro ⟨t, ht, hends⟩
    exact hlives t ht hends

theorem Timed.ring {since : RoomId → Option Nat} (h : Timed l since) (hmanned : Manned l)
    (g : Game σ) : Timed (expireDue g l) (fun id => note id (since id) (expireDue g l)) := by
  have hw := expireDue_wanes g l
  have hstill := foldl_expire_still g (l.timers.filter (·.due ≤ l.now))
    { l with timers := l.timers.filter fun t => ¬ t.due ≤ l.now }
  have htimers : (expireDue g l).timers = l.timers.filter fun t => ¬ t.due ≤ l.now := hstill.timers
  refine ⟨h.registry.shrink hw.registry, ?_, ?_⟩
  · intro t ht
    exact h.aged_of_ages (hw.registry.ages h.registry.toOrdered) (hw.timers.subset ht)
  · intro id e he'
    have he := hw.registry.lookup h.registry.toOrdered he'
    have hclocked := h.entries id e he
    refine hclocked.same ?_ hw.limits he'
    -- the timer of a room that stays is not among those that went off
    have hlater : ¬ IsUp l (since id) := by
      obtain ⟨-, hgone, -⟩ | ⟨hlater, -⟩ := h.ring_lookup hmanned g he
      · rw [hgone] at he'
        cases he'
      · exact hlater
    rw [pending, htimers, List.filter_filter]
    apply List.filter_congr
    intro t ht
    by_cases hmine : t.room = id ∧ t.generation = e.generation
    · have hdue : ¬ t.due ≤ l.now := by
        intro hdue
        by_cases hempty : e.members = []
        · exact hlater (hclocked.ends_iff.mp
            ⟨t, List.mem_filter.mpr ⟨ht, decide_eq_true hdue⟩, hempty, hmine⟩)
        · have hmem : t ∈ l.pending id e.generation := mem_pending.mpr ⟨ht, hmine⟩
          rw [hclocked.pending_eq_nil hempty] at hmem
          cases hmem
      simp [hdue]
    · have hnot : (t.room == id && t.generation == e.generation) = false := by
        simpa using hmine
      rw [hnot, Bool.false_and]

end Lobby

end Gamewire
