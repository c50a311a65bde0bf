import Gamewire.Proofs.Room.Queues

/-! Members and admissions, one by one. As long as nobody asks for a place under a number that holds
one, a room has a member for each admission to it that is held, with the queue that came with the
admission, and no others. -/
namespace Gamewire
set_option autoImplicit false

namespace Lobby

variable {σ : Type} {g : Game σ} {limits : Limits} {l l' : Lobby σ} {id : RoomId}

/-- A member has the queue that came with its admission. -/
def Matched (l : Lobby σ) : Prop :=
  ∀ x ∈ l.rooms, ∀ m ∈ x.2.members, ∀ a ∈ l.held, a.room = x.1 → a.conn = m.1 → a.ticket = m.2

theorem Matched.narrow (h : Matched l) (hn : Narrows l l') (hheld : ∀ a ∈ l'.held, a ∈ l.held) :
    Matched l' := by
  intro y hy m hm a ha hroom hconn
  obtain ⟨x, hx, hkey, hsub⟩ := hn.members y hy
  exact h x hx m (hsub.subset hm) a (hheld a ha) (hroom.trans hkey.symm) hconn

theorem Matched.join (h : Matched l) (hacc : Accounted limits l) (hw : Wired l) (g : Game σ)
    {conn : ConnId} (hfresh : ∀ a ∈ l.held, a.conn ≠ conn) (requested : Option RoomId)
    (buffer : Nat) : Matched (l.join g conn requested buffer).2.2 := by
  have hb : Bounded limits l := .inl hacc.toSound
  obtain ⟨e, hj⟩ | ⟨id, l', hready, hl', hj⟩ | hj := hb.join_cases g conn requested buffer
  · rw [hj]
    exact h
  · obtain ⟨-, -, -, -, hheld, -, -, hold⟩ := hw.place hready hl'
    rw [hj, enter_eq]
    intro x hx m hm a ha hroom hconn
    rw [(command_wanes g id _ _).held] at ha
    -- nobody in the room has the number of the one that comes
    have habsent : ∀ y ∈ l'.rooms, ∀ n ∈ y.2.members, n.1 ≠ conn := by
      intro y hy n hn hsame
      have hy := hold y hy n hn
      obtain ⟨e, he, hmembers⟩ := hacc.agrees.lookup_live (lookup_of_mem hw.rooms hy)
      have hmember : conn ∈ e.members := by
        rw [hmembers, ← hsame]
        exact List.mem_map_of_mem hn
      obtain ⟨b, hb, -, hbconn⟩ := (hacc.counted.mem_iff y.1 e he conn).mp hmember
      exact hfresh b hb hbconn
    obtain ⟨y, hy, hkey, hmember⟩ | ⟨hid, hjoin⟩ := mem_command hx hm
    · obtain rfl | ha := List.mem_cons.mp ha
      · exact absurd hconn.symm (habsent y hy m hmember)
      · rw [hheld] at ha
        exact h y (hold y hy m hmember) m hmember a ha (hroom.trans hkey.symm) hconn
    · injection hjoin with hsame hticket
      obtain rfl | ha := List.mem_cons.mp ha
      · exact hticket
      · rw [hheld] at ha
        exact absurd (hconn.trans hsame.symm) (hfresh a ha)
  · have hopened : Matched (l.openMailbox buffer).2 := h
    have hw := crash_wanes (l.openMailbox buffer).2
    rw [hj]
    refine hopened.narrow ((crash_narrows _).trans (narrows_of_eq rfl rfl)) fun a ha => ?_
    have ha : a ∈ (l.openMailbox buffer).2.crash.held := ha
    rwa [hw.held] at ha

theorem Reachable.wired (h : Reachable g limits l) : Wired l := by
  induction h with
  | start h => exact wired_start h
  | perform h op hfresh hdone ih => exact ih.perform (.inl h.accounted.toSound) g op

theorem Reachable.matched (h : Reachable g limits l) : Matched l := by
  induction h with
  | start h =>
    obtain ⟨rfl, -⟩ := start_eq h
    exact List.forall_mem_nil _
  | @perform l h op hfresh hdone ih =>
    refine perform_of_narrows Matched.narrow ih op fun conn room buffer hop => ?_
    have hnew : ∀ a ∈ l.held, a.conn ≠ conn := by
      obtain rfl | rfl := hop
      · exact hfresh
      · exact hfresh
    exact ih.join h.accounted h.wired g hnew room buffer

/-- Members and admissions to a room that runs are the same. -/
theorem Reachable.mem_members_iff (h : Reachable g limits l) {r : Room σ}
    (hr : l.rooms.lookup id = some r) (m : ConnId × Ticket) :
    m ∈ r.members ↔ ⟨m.2, id, m.1⟩ ∈ l.held := by
  have hacc := h.accounted
  obtain ⟨e, he, hmembers⟩ := hacc.agrees.lookup_live hr
  have hheld : ∀ c, c ∈ r.connections ↔ Holds l.held id c := by
    rw [← hmembers]
    exact hacc.counted.mem_iff id e he
  constructor
  · intro hm
    obtain ⟨a, ha, hroom, hconn⟩ := (hheld m.1).mp (List.mem_map_of_mem hm)
    have hticket := h.matched (id, r) (mem_of_lookup hr) m hm a ha hroom hconn
    obtain ⟨ticket, room, conn⟩ := a
    cases hroom
    cases hconn
    cases hticket
    exact ha
  · intro ha
    obtain ⟨n, hn, hsame⟩ := List.mem_map.mp ((hheld m.1).mpr ⟨_, ha, rfl, rfl⟩)
    have hticket := h.matched (id, r) (mem_of_lookup hr) n hn _ ha rfl hsame.symm
    have heq : m = n := Prod.ext hsame.symm hticket
    rw [heq]
    exact hn

end Lobby

end Gamewire
