import Gamewire.Proofs.Room.Step
import Mathlib

/-! The limits hold at all times: there are never more rooms, nor more members in one of them, than
a lobby was started with, and the list of rooms tells how many there are. -/
namespace Gamewire
set_option autoImplicit false

/-- What the register says of a room is so: its members are told apart, they fit in, and the state
tells whether there are none, some or as many as may be. -/
structure Entry.Truthful (capacity : Nat) (e : Entry) : Prop where
  nodup : e.members.Nodup
  length_le : e.members.length ≤ capacity
  closing_iff : e.state = .closing ↔ e.members.length = 0
  full_iff : e.state = .full ↔ e.members.length = capacity
  open_iff : e.state = .open ↔ 0 < e.members.length ∧ e.members.length < capacity
  not_closed : e.state ≠ .closed

theorem Entry.Sound.truthful {capacity : Nat} {e : Entry} (h : e.Sound capacity)
    (hpos : 0 < capacity) : e.Truthful capacity where
  nodup := ascending_nodup h.ascending
  length_le := h.length_le
  closing_iff := by rw [h.state_eq, RoomState.ofCount_eq_closing_iff]
  full_iff := by rw [h.state_eq, RoomState.ofCount_eq_full_iff hpos h.length_le]
  open_iff := by
    have hle := h.length_le
    rw [h.state_eq, RoomState.ofCount_eq_open_iff]
  not_closed := by
    rw [h.state_eq]
    exact RoomState.ofCount_ne_closed

namespace Lobby

variable {σ : Type} {limits : Limits} {l : Lobby σ}

theorem run_concat (g : Game σ) (l : Lobby σ) (ops : List Operation) (op : Operation) :
    l.run g (ops ++ [op]) = (l.run g ops).perform g op := by
  rw [run_append]
  rfl

theorem Bounded.run (h : Bounded limits l) (g : Game σ) (ops : List Operation) :
    Bounded limits (l.run g ops) := by
  induction ops generalizing l with
  | nil => exact h
  | cons op ops ih => exact ih (h.perform g op)

theorem Sound.run_stopped (h : Sound limits l) (hstopped : l.Stopped) (g : Game σ)
    (ops : List Operation) : (l.run g ops).registry.rooms = [] ∧ (l.run g ops).rooms = [] := by
  induction ops generalizing l with
  | nil =>
    have hnil := h.closed hstopped
    exact ⟨hnil, h.agrees.rooms_nil hnil⟩
  | cons op ops ih =>
    obtain ⟨hsound, hstops⟩ := h.perform_stopped hstopped g op
    exact ih hsound hstops

theorem shutdown_ok (g : Game σ) (reason : String) (hok : (l.shutdown g reason).1 = .ok ()) :
    (l.shutdown g reason).2.shuttingDown = true ∧ (l.shutdown g reason).2.manager = .running := by
  unfold shutdown at hok ⊢
  by_cases hrunning : l.manager = .running
  · rw [if_neg (not_not_intro hrunning)]
    have hw := closeAll_wanes g reason { l with shuttingDown := true }
    exact ⟨hw.shuttingDown, hw.manager.trans hrunning⟩
  · rw [if_pos hrunning] at hok
    cases hok

theorem run_manager (g : Game σ) (limits : Limits) (ops : List Operation)
    (h : start limits = .ok l) :
    (l.run g ops).manager = .running ∨ .dismiss ∈ ops ∨ Doomed g (l.run g ops) := by
  induction ops using List.reverseRecOn with
  | nil =>
    obtain ⟨rfl, -⟩ := start_eq h
    exact .inl rfl
  | append_singleton ops op ih =>
    rw [run_concat]
    by_cases hop : op = .dismiss
    · exact .inr (.inl (by simp [hop]))
    · have hfares := (Bounded.run (.inl (sound_start h)) g ops).fares g op hop
      obtain hrunning | hdismiss | hdoomed := ih
      · obtain hsame | ⟨-, -, -, hdoomed⟩ := hfares.manager
        · exact .inl (hsame.trans hrunning)
        · exact .inr (.inr hdoomed)
      · exact .inr (.inl (List.mem_append_left _ hdismiss))
      · exact .inr (.inr (hdoomed.mono hfares.nextId_le))

/-! ## The limits hold -/

structure Within (limits : Limits) (l : Lobby σ) : Prop where
  rooms_le : l.registry.rooms.length ≤ limits.maxRooms
  ascending : (l.registry.rooms.map (·.1)).Pairwise (· < ·)
  entries : ∀ x ∈ l.registry.rooms, x.2.Truthful limits.maxMembers
  list : l.manager = .running → l.list = .ok (l.registry.rooms.map fun x =>
    ⟨x.1, x.2.members.length, limits.maxMembers, x.2.state⟩)
  running_le : l.rooms.length ≤ limits.maxRooms
  members_le : ∀ x ∈ l.rooms, x.2.connections.length ≤ limits.maxMembers
  agrees : l.manager ≠ .crashed → l.Agrees

theorem Sound.within (h : Sound limits l) : Within limits l where
  rooms_le := by
    rw [← h.maxRooms]
    exact h.registry.length_le
  ascending := h.registry.ascending
  entries := by
    intro x hx
    have hentry := h.registry.entries x hx
    rw [h.capacity] at hentry
    exact hentry.truthful h.positive
  list := by
    intro hrunning
    rw [Lobby.list, if_pos hrunning, Registry.snapshots, h.capacity]
  running_le := h.fits.rooms_le
  members_le := h.fits.members_le
  agrees := fun _ => h.agrees

theorem Crashed.within (h : Crashed limits l) : Within limits l := by
  refine ⟨?_, ?_, ?_, ?_, h.rooms_le, h.members_le, fun hn => absurd h.manager hn⟩
  · rw [h.registry]
    exact Nat.zero_le _
  · rw [h.registry]
    exact List.Pairwise.nil
  · rw [h.registry]
    intro x hx
    exact absurd hx List.not_mem_nil
  · intro hrunning
    rw [h.manager] at hrunning
    cases hrunning

/-- Whatever is done to a lobby, it keeps within the limits that it was started with, and once it
took a request to shut down, no room is live any more. It lists its rooms until its manager is
dismissed, and then only a new room that cannot be made stops it. -/
theorem run_within_limits (h : start limits = .ok l) (g : Game σ)
    (ops : List Operation) :
    Within limits (l.run g ops) ∧
      ((l.run g ops).manager = .running ∨ .dismiss ∈ ops ∨ Doomed g (l.run g ops)) ∧
      ∀ before reason after, ops = before ++ .shutdown reason :: after →
        ((l.run g before).shutdown g reason).1 = .ok () →
        (l.run g ops).registry.rooms = [] ∧ (l.run g ops).rooms = [] := by
  have hstart : Bounded limits l := .inl (sound_start h)
  refine ⟨?_, run_manager g limits ops h, ?_⟩
  · obtain h | h := hstart.run g ops
    · exact h.within
    · exact h.within
  · rintro before reason after rfl hok
    obtain ⟨hshut, hrunning⟩ := shutdown_ok g reason hok
    have hstep := (hstart.run g before).perform g (.shutdown reason)
    have hrest : l.run g (before ++ .shutdown reason :: after) =
        ((l.run g before).perform g (.shutdown reason)).run g after := by
      rw [run_append]
      rfl
    rw [hrest]
    obtain hsound | hcrashed := hstep
    · exact hsound.run_stopped (.inl hshut) g after
    · exact absurd (hrunning.symm.trans hcrashed.manager) Manager.noConfusion

/-! One room for one connection, which is let go of when it leaves. -/

def soloLimits : Limits := { maxRooms := 1, maxMembers := 1, grace := 0 }

def soloRun : List Operation :=
  [.join 7 none 4, .join 8 none 4, .release 0, .join 8 none 4, .shutdown "over", .join 9 none 4]

theorem run_within_soloLimits :
    start soloLimits = .ok (ofLimits (σ := Unit) soloLimits) ∧
      ((ofLimits soloLimits).run quietGame (soloRun.take 4)).list = .ok [⟨2, 1, 1, .full⟩] ∧
      Within soloLimits ((ofLimits soloLimits).run quietGame soloRun) ∧
      ((ofLimits soloLimits).run quietGame soloRun).rooms = [] := by
  have hstart : start soloLimits = .ok (ofLimits (σ := Unit) soloLimits) := rfl
  have h := run_within_limits hstart quietGame soloRun
  refine ⟨hstart, by cbv, h.1, ?_⟩
  exact (h.2.2 (soloRun.take 4) "over" [.join 9 none 4] rfl (by cbv)).2

end Lobby

end Gamewire
