import Gamewire.Proofs.Text.Words
import Gamewire.Server.Machine

/-! What a server can be started with. Settings that pass their check have an address and limits for the
rooms; of the administrators' header the check only asks that it is not blank, and a header that is not the
name of one keeps the server from starting. -/
namespace Gamewire
set_option autoImplicit false

/-! ## Settings -/

/-- Settings that pass their check. -/
structure ServerConfig.InOrder (c : ServerConfig) : Prop where
  positive : ∀ setting ∈ c.positives, 0 < setting.2
  ports : c.port = c.adminPort → c.port = 0
  header : ¬ Text.Blanks c.adminHeader.toList
  secret : c.adminSecret ≠ ""
  host : ∃ host, HostAddress.parse? c.host = some host

variable {c : ServerConfig}

theorem ServerConfig.address_of_host {host : HostAddress} (h : HostAddress.parse? c.host = some host)
    (port : UInt16) : c.address port = .ok ⟨host, port⟩ := by
  rw [address, h]

theorem ServerConfig.validate_ok_iff : c.validate = .ok () ↔ c.InOrder := by
  rw [validate]
  split
  · rename_i name n hfind
    refine iff_of_false (by simp) fun h => ?_
    have hzero := List.find?_some hfind
    exact (h.positive _ (List.mem_of_find?_eq_some hfind)).ne' (beq_iff_eq.mp hzero)
  rename_i hfind
  have hpositive : ∀ setting ∈ c.positives, 0 < setting.2 := fun setting hsetting =>
    Nat.pos_of_ne_zero fun hzero => List.find?_eq_none.mp hfind setting hsetting (beq_iff_eq.mpr hzero)
  split
  · rename_i hports
    exact iff_of_false (by simp) fun h => hports.2 (h.ports hports.1)
  rename_i hports
  split
  · rename_i hblank
    refine iff_of_false (by simp) fun h => h.header ?_
    exact Text.trim_eq_empty_iff.mp (String.isEmpty_iff.mp hblank)
  rename_i hblank
  split
  · rename_i hsecret
    exact iff_of_false (by simp) fun h => h.secret (String.isEmpty_iff.mp hsecret)
  rename_i hsecret
  cases hhost : HostAddress.parse? c.host with
  | none =>
    rw [gameAddress, address, hhost]
    refine iff_of_false (by simp) fun h => ?_
    obtain ⟨host, hparse⟩ := h.host
    rw [hhost] at hparse
    cases hparse
  | some host =>
    rw [gameAddress, address_of_host hhost]
    refine iff_of_true rfl ⟨hpositive, fun hsame => ?_, fun hblanks => ?_, fun hempty => ?_, host, hhost⟩
    · exact not_not.mp fun hport => hports ⟨hsame, hport⟩
    · exact hblank (String.isEmpty_iff.mpr (Text.trim_eq_empty_iff.mpr hblanks))
    · exact hsecret (String.isEmpty_iff.mpr hempty)

/-- The queues of the rooms have a length that no setting changes. -/
theorem ServerConfig.InOrder.limits_check (h : c.InOrder) : c.limits.check = .ok () := by
  have hrooms : c.limits.maxRooms ≠ 0 :=
    (h.positive ("max_rooms", c.maxRooms) (by simp [positives])).ne'
  have hmembers : c.limits.maxMembers ≠ 0 :=
    (h.positive ("max_conn_per_room", c.maxMembers) (by simp [positives])).ne'
  rw [Limits.check, if_neg hrooms, if_neg hmembers]
  rfl

/-! ## Headers -/

/-- The characters and the length of a header name; that it is not empty is not said. -/
def HeaderShaped (name : String) : Prop :=
  (∀ ch ∈ name.toList, isHeaderChar ch = true) ∧ name.length ≤ 65535

theorem isHeaderName_iff {name : String} (h : name ≠ "") :
    isHeaderName name = true ↔ HeaderShaped name := by
  have hne : name.isEmpty = false := Bool.eq_false_iff.mpr fun he => h (String.isEmpty_iff.mp he)
  rw [isHeaderName, hne, Bool.and_eq_true, Bool.and_eq_true, List.all_eq_true, decide_eq_true_iff]
  exact ⟨fun h => ⟨h.1.2, h.2⟩, fun h => ⟨⟨rfl, h.1⟩, h.2⟩⟩

/-! ## Servers -/

namespace Server

variable {σ : Type}

/-- Settings that pass their check start a server with these settings, unless the header of the
administrators has another character than header names have or is too long: that is noticed later. -/
theorem start_of_validate (h : c.validate = .ok ()) :
    (∃ host, c.gameAddress = .ok ⟨host, c.port⟩ ∧ c.adminAddress = .ok ⟨host, c.adminPort⟩) ∧
      c.limits.check = .ok () ∧
      (HeaderShaped c.adminHeader → Server.start (σ := σ) c = .ok
        ({ lobby := Lobby.ofLimits c.limits, buffer := c.outboundBuffer, sendLimit := c.sendLimit,
           joinLimit := c.joinLimit }, ⟨normalHeader c.adminHeader, c.adminSecret⟩)) ∧
      (¬ HeaderShaped c.adminHeader →
        Server.start (σ := σ) c = .error (.admin (.invalidHeader c.adminHeader))) := by
  have horder := ServerConfig.validate_ok_iff.mp h
  obtain ⟨host, hhost⟩ := horder.host
  have hlobby : Lobby.start (σ := σ) c.limits = .ok (Lobby.ofLimits c.limits) := by
    rw [Lobby.start, horder.limits_check]
  have hwritten : c.adminHeader ≠ "" := by
    intro hempty
    refine horder.header ?_
    rw [hempty]
    exact List.forall_mem_nil _
  refine ⟨⟨host, ServerConfig.address_of_host hhost _, ServerConfig.address_of_host hhost _⟩,
    horder.limits_check, fun hshaped => ?_, fun hshaped => ?_⟩
  · have hname := (isHeaderName_iff hwritten).mpr hshaped
    simp only [Server.start, h, hlobby, AdminKey.make, if_pos hname]
  · have hname := mt (isHeaderName_iff hwritten).mp hshaped
    simp only [Server.start, h, hlobby, AdminKey.make, if_neg hname]

theorem start_of_validate_headers :
    (∃ s key, Server.start (σ := Unit) { adminHeader := "X-Key" } = .ok (s, key) ∧
      key.header = "x-key" ∧ s.buffer = 64) ∧
    Server.start (σ := Unit) { adminHeader := "X:Key" } =
      .error (.admin (.invalidHeader "X:Key")) := by
  obtain ⟨-, -, hstarts, -⟩ :=
    start_of_validate (σ := Unit) (c := { adminHeader := "X-Key" }) rfl
  obtain ⟨-, -, -, hfails⟩ :=
    start_of_validate (σ := Unit) (c := { adminHeader := "X:Key" }) rfl
  refine ⟨⟨_, _, hstarts ⟨List.all_eq_true.mp rfl, by decide⟩, rfl, rfl⟩, hfails fun hshaped => ?_⟩
  exact absurd (hshaped.1 ':' (by decide)) (by decide)

/-- A blank inside a header passes the check of the settings. -/
theorem start_badHeader :
    ¬ ∀ c : ServerConfig, c.validate = .ok () → ∃ s key, Server.start (σ := Unit) c = .ok (s, key) := by
  intro h
  obtain ⟨s, key, hstart⟩ := h { adminHeader := "bad header" } rfl
  cases hstart

end Server

end Gamewire
