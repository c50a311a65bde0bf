import Gamewire.Proofs.Room.Members

/-! What one command does to a room. Whatever the rules are, they touch neither the number of the
room nor its members: who is in it follows from the command alone, as long as the room goes on. -/
namespace Gamewire
set_option autoImplicit false

/-- The members after a command that the room survives. -/
def Command.change : Command → List ConnId → List ConnId
  | .join conn _, cs => insertConn conn cs
  | .leave conn, cs => cs.filter (· != conn)
  | .frame _ _, cs => cs
  | .close _, cs => cs

namespace Room

variable {σ : Type} {g : Game σ} {r r' : Room σ}

theorem settle_some {v : Verdict σ} (h : (r.settle g v).1 = some r') :
    r'.id = r.id ∧ r'.members = r.members := by
  cases v with
  | proceed state out =>
    cases h
    exact ⟨rfl, rfl⟩
  | fault text => cases h
  | crash => cases h

theorem lookup_eq_none_iff {conn : ConnId} :
    r.members.lookup conn = none ↔ conn ∉ r.connections := by
  rw [List.lookup_eq_none_iff, connections, List.mem_map]
  constructor
  · rintro h ⟨m, hm, rfl⟩
    exact absurd rfl (bne_iff_ne.mp (h m hm))
  · intro h m hm
    exact bne_iff_ne.mpr (fun heq => h ⟨m, hm, heq.symm⟩)

theorem step_some {c : Command} (h : (r.step g c).1 = some r') :
    r'.id = r.id ∧ r'.connections = c.change r.connections := by
  cases c with
  | join conn ticket =>
    obtain ⟨hid, hmembers⟩ := settle_some h
    refine ⟨hid, ?_⟩
    rw [connections, hmembers]
    exact map_fst_insertMember conn ticket r.members
  | leave conn =>
    simp only [step] at h
    split at h
    · rename_i hnone
      cases h
      exact ⟨rfl, (filter_ne_of_not_mem (lookup_eq_none_iff.mp hnone)).symm⟩
    · obtain ⟨hid, hmembers⟩ := settle_some h
      refine ⟨hid, ?_⟩
      rw [connections, hmembers]
      exact map_fst_filter_ne conn r.members
  | frame sender bytes =>
    simp only [step] at h
    split at h
    · cases h
      exact ⟨rfl, rfl⟩
    · split at h
      · cases h
        exact ⟨rfl, rfl⟩
      · obtain ⟨hid, hmembers⟩ := settle_some h
        refine ⟨hid, ?_⟩
        rw [connections, hmembers]
        rfl
  | close reason => cases h

theorem step_close (g : Game σ) (r : Room σ) (reason : String) :
    (r.step g (.close reason)).1 = none := rfl

end Room

end Gamewire
