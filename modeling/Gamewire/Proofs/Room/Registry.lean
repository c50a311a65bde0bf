import Gamewire.Proofs.Room.Members

/-! What is always true of the register. Its rooms stand in ascending order under numbers given out
before, and the state recorded for each room says what its number of members says. -/
namespace Gamewire
set_option autoImplicit false

/-! ## States by number of members -/

namespace RoomState

variable {members capacity : Nat}

theorem ofCount_eq_closing_iff : ofCount members capacity = .closing ↔ members = 0 := by
  unfold ofCount
  split
  · simp [*]
  · split <;> simp [*]

theorem ofCount_eq_full_iff (hpos : 0 < capacity) (hle : members ≤ capacity) :
    ofCount members capacity = .full ↔ members = capacity := by
  unfold ofCount
  split
  · simp only [reduceCtorEq, false_iff]
    omega
  · split
    · simp only [true_iff]
      omega
    · simp only [reduceCtorEq, false_iff]
      omega

theorem ofCount_eq_open_iff :
    ofCount members capacity = .open ↔ 0 < members ∧ members < capacity := by
  unfold ofCount
  split
  · simp only [reduceCtorEq, false_iff]
    omega
  · split
    · simp only [reduceCtorEq, false_iff]
      omega
    · simp only [true_iff]
      omega

theorem ofCount_ne_closed : ofCount members capacity ≠ .closed := by
  unfold ofCount
  split
  · simp
  · split <;> simp

end RoomState

/-! ## Entries -/

structure Entry.Sound (capacity : Nat) (e : Entry) : Prop where
  ascending : e.members.Pairwise (· < ·)
  length_le : e.members.length ≤ capacity
  state_eq : e.state = .ofCount e.members.length capacity

theorem Entry.sound_insert {capacity : Nat} {e : Entry} (hsorted : e.members.Pairwise (· < ·))
    (hspace : e.members.length < capacity) (conn : ConnId) (generation : Nat) :
    Entry.Sound capacity ⟨.ofCount (insertConn conn e.members).length capacity,
      insertConn conn e.members, generation⟩ where
  ascending := insertConn_ascending hsorted
  length_le := Nat.le_trans (insertConn_length_le conn e.members) hspace
  state_eq := rfl

theorem Entry.sound_filter {capacity : Nat} {e : Entry} (h : e.Sound capacity) (conn : ConnId)
    (generation : Nat) :
    Entry.Sound capacity ⟨.ofCount (e.members.filter (· != conn)).length capacity,
      e.members.filter (· != conn), generation⟩ where
  ascending := h.ascending.filter _
  length_le := Nat.le_trans (List.length_filter_le _ _) h.length_le
  state_eq := rfl

namespace Registry

/-! ## Order and numbers -/

structure Ordered (r : Registry) : Prop where
  length_le : r.rooms.length ≤ r.maxRooms
  ascending : (r.rooms.map (·.1)).Pairwise (· < ·)
  numbered : ∀ id ∈ r.rooms.map (·.1), 1 ≤ id.toNat ∧ id.toNat < r.nextId
  nextId_pos : 1 ≤ r.nextId
  nextId_le : r.nextId ≤ UInt32.size

structure Sound (r : Registry) : Prop extends r.Ordered where
  entries : ∀ x ∈ r.rooms, x.2.Sound r.capacity

theorem sound_empty (maxRooms capacity : Nat) :
    Sound { maxRooms := maxRooms, capacity := capacity } where
  length_le := Nat.zero_le _
  ascending := List.Pairwise.nil
  numbered := by
    intro id hid
    exact absurd hid List.not_mem_nil
  nextId_pos := Nat.le_refl 1
  nextId_le := Nat.le_of_ble_eq_true rfl
  entries := by
    intro x hx
    exact absurd hx List.not_mem_nil

theorem Sound.entry {r : Registry} (h : r.Sound) {id : RoomId} {e : Entry}
    (he : r.rooms.lookup id = some e) : e.Sound r.capacity :=
  h.entries (id, e) (mem_of_lookup he)

theorem Ordered.nodup {r : Registry} (h : r.Ordered) : (r.rooms.map (·.1)).Nodup :=
  ascending_nodup h.ascending

theorem Ordered.lt_of_lookup {r : Registry} (h : r.Ordered) {id : RoomId} {e : Entry}
    (he : r.rooms.lookup id = some e) : id.toNat < r.nextId :=
  (h.numbered id (List.mem_map_of_mem (mem_of_lookup he))).2

/-! ## Changes of an entry -/

theorem lookup_setEntry (r : Registry) (id id' : RoomId) (e : Entry) :
    (r.setEntry id e).rooms.lookup id' =
      if id' = id then (r.rooms.lookup id).map (fun _ => e) else r.rooms.lookup id' :=
  lookup_set id id' e r.rooms

/-- Setting one entry to a sound one needs nothing of the entry before. -/
theorem sound_setEntry {r : Registry} (h : r.Ordered) {id : RoomId} {e : Entry}
    (hothers : ∀ x ∈ r.rooms, x.1 ≠ id → x.2.Sound r.capacity) (he : e.Sound r.capacity) :
    (r.setEntry id e).Sound where
  length_le := by
    rw [setEntry, List.length_map]
    exact h.length_le
  ascending := by
    rw [setEntry, map_fst_set]
    exact h.ascending
  numbered := by
    rw [setEntry, map_fst_set]
    exact h.numbered
  nextId_pos := h.nextId_pos
  nextId_le := h.nextId_le
  entries := by
    intro x hx
    obtain ⟨y, hy, rfl⟩ := List.mem_map.mp hx
    by_cases hid : y.1 = id
    · simp only [hid, if_true]
      exact he
    · simp only [hid, if_false]
      exact hothers y hy hid

theorem addMember_of_lookup {r : Registry} {id : RoomId} {e : Entry}
    (he : r.rooms.lookup id = some e) (conn : ConnId) :
    ∃ generation, r.addMember id conn = r.setEntry id
      ⟨.ofCount (insertConn conn e.members).length r.capacity, insertConn conn e.members,
        generation⟩ := by
  unfold addMember
  rw [he]
  exact ⟨_, rfl⟩

theorem addMember_nextId (r : Registry) (id : RoomId) (conn : ConnId) :
    (r.addMember id conn).nextId = r.nextId := by
  unfold addMember
  split <;> rfl

theorem addMember_keys (r : Registry) (id : RoomId) (conn : ConnId) :
    (r.addMember id conn).rooms.map (·.1) = r.rooms.map (·.1) := by
  unfold addMember
  split
  · rfl
  · exact map_fst_set _ _ _

/-- A member comes into a room with space; the other entries are sound already. -/
theorem sound_addMember {r : Registry} (h : r.Ordered) {id : RoomId} {e : Entry}
    (hothers : ∀ x ∈ r.rooms, x.1 ≠ id → x.2.Sound r.capacity)
    (he : r.rooms.lookup id = some e) (hsorted : e.members.Pairwise (· < ·))
    (hspace : e.members.length < r.capacity) (conn : ConnId) : (r.addMember id conn).Sound := by
  obtain ⟨generation, hadd⟩ := addMember_of_lookup he conn
  rw [hadd]
  exact sound_setEntry h hothers (Entry.sound_insert hsorted hspace conn generation)

theorem removeMember_eq_some {r r' : Registry} {id : RoomId} {conn : ConnId} {e' : Entry}
    (h : r.removeMember id conn = some (e', r')) :
    ∃ e, r.rooms.lookup id = some e ∧ conn ∈ e.members ∧ r' = r.setEntry id e' ∧
      e'.members = e.members.filter (· != conn) ∧
      e'.state = .ofCount e'.members.length r.capacity := by
  unfold removeMember at h
  split at h
  · cases h
  · rename_i e he
    split at h
    · rename_i hmem
      cases h
      exact ⟨e, he, List.contains_iff_mem.mp hmem, rfl, rfl, rfl⟩
    · cases h

theorem lookup_removeMember {r r' : Registry} {id : RoomId} {conn : ConnId} {e' : Entry}
    (h : r.removeMember id conn = some (e', r')) : r'.rooms.lookup id = some e' := by
  obtain ⟨e, he, -, rfl, -, -⟩ := removeMember_eq_some h
  rw [lookup_setEntry, if_pos rfl, he]
  rfl

theorem removeMember_eq_none {r : Registry} {id : RoomId} {conn : ConnId} :
    r.removeMember id conn = none ↔ ∀ e, r.rooms.lookup id = some e → conn ∉ e.members := by
  unfold removeMember
  split
  · rename_i hnone
    simp [hnone]
  · rename_i e he
    split
    · rename_i hmem
      simp only [reduceCtorEq, false_iff]
      intro h
      exact h e he (List.contains_iff_mem.mp hmem)
    · rename_i hmem
      simp only [true_iff]
      intro e' he'
      rw [he] at he'
      cases he'
      intro hconn
      exact hmem (List.contains_iff_mem.mpr hconn)

theorem sound_removeMember {r r' : Registry} (h : r.Sound) {id : RoomId} {conn : ConnId}
    {e' : Entry} (hr : r.removeMember id conn = some (e', r')) : r'.Sound := by
  obtain ⟨e, he, -, rfl, hmembers, hstate⟩ := removeMember_eq_some hr
  have hsound := Entry.sound_filter (h.entry he) conn e'.generation
  refine sound_setEntry h.toOrdered (fun x hx _ => h.entries x hx) ⟨?_, ?_, hstate⟩
  · rw [hmembers]
    exact hsound.ascending
  · rw [hmembers]
    exact hsound.length_le

/-! ## New rooms -/

theorem create_eq_some {r r' : Registry} {id : RoomId} (h : r.create = some (id, r')) :
    id.toNat = r.nextId ∧
      r' = { r with rooms := r.rooms ++ [(id, {})], nextId := r.nextId + 1 } := by
  unfold create at h
  split at h
  · rename_i hlt
    cases h
    exact ⟨UInt32.toNat_ofNat_of_lt' (by simpa using hlt), rfl⟩
  · cases h

theorem create_lt {r r' : Registry} {id : RoomId} (h : r.create = some (id, r')) :
    r.nextId < UInt32.size := by
  unfold create at h
  split at h
  · assumption
  · cases h

theorem Ordered.lookup_eq_none {r : Registry} (h : r.Ordered) {id : RoomId}
    (hid : r.nextId ≤ id.toNat) : r.rooms.lookup id = none := by
  apply List.lookup_eq_none_iff.mpr
  intro x hx
  have hx' := (h.numbered x.1 (List.mem_map_of_mem hx)).2
  have hne : id ≠ x.1 := by
    rintro rfl
    omega
  simpa using hne

theorem ordered_create {r r' : Registry} (h : r.Ordered) (hlt : r.rooms.length < r.maxRooms)
    {id : RoomId} (hc : r.create = some (id, r')) : r'.Ordered := by
  have hbound := create_lt hc
  obtain ⟨hid, rfl⟩ := create_eq_some hc
  have hpos := h.nextId_pos
  refine ⟨?_, ?_, ?_, ?_, ?_⟩
  · simp only [List.length_append, List.length_singleton]
    omega
  · simp only [List.map_append, List.map_cons, List.map_nil]
    refine List.pairwise_append.mpr ⟨h.ascending, List.pairwise_singleton _ _, ?_⟩
    intro x hx y hy
    rw [List.mem_singleton.mp hy, UInt32.lt_iff_toNat_lt, hid]
    exact (h.numbered x hx).2
  · intro x hx
    simp only [List.map_append, List.map_cons, List.map_nil, List.mem_append,
      List.mem_singleton] at hx
    obtain hx | rfl := hx
    · have := h.numbered x hx
      simp only
      omega
    · simp only
      omega
  · simp only
    omega
  · simp only
    omega

theorem lookup_create {r r' : Registry} (h : r.Ordered) {id : RoomId}
    (hc : r.create = some (id, r')) : r'.rooms.lookup id = some {} := by
  obtain ⟨hid, rfl⟩ := create_eq_some hc
  have hnone := h.lookup_eq_none (Nat.le_of_eq hid.symm)
  rw [List.lookup_append, hnone, List.lookup_cons_self]
  rfl

/-! ## Rooms that go -/

/-- Some rooms were struck off, and nothing else changed. -/
structure Shrinks (r r' : Registry) : Prop where
  rooms : r'.rooms.Sublist r.rooms
  nextId : r'.nextId = r.nextId
  maxRooms : r'.maxRooms = r.maxRooms
  capacity : r'.capacity = r.capacity

theorem Shrinks.refl (r : Registry) : Shrinks r r :=
  ⟨List.Sublist.refl _, rfl, rfl, rfl⟩

theorem Shrinks.trans {r r' r'' : Registry} (h : Shrinks r r') (h' : Shrinks r' r'') :
    Shrinks r r'' :=
  ⟨h'.rooms.trans h.rooms, h'.nextId.trans h.nextId, h'.maxRooms.trans h.maxRooms,
    h'.capacity.trans h.capacity⟩

theorem shrinks_remove (r : Registry) (id : RoomId) : Shrinks r (r.remove id) :=
  ⟨List.filter_sublist, rfl, rfl, rfl⟩

theorem shrinks_clear (r : Registry) : Shrinks r { r with rooms := [] } :=
  ⟨List.nil_sublist _, rfl, rfl, rfl⟩

theorem Shrinks.nil {r r' : Registry} (h : Shrinks r r') (hr : r.rooms = []) : r'.rooms = [] := by
  have hsub := h.rooms
  rw [hr] at hsub
  exact List.sublist_nil.mp hsub

theorem Shrinks.lookup {r r' : Registry} (hs : Shrinks r r') (h : r.Ordered) {id : RoomId}
    {e : Entry} (he : r'.rooms.lookup id = some e) : r.rooms.lookup id = some e :=
  lookup_of_mem h.nodup (hs.rooms.subset (mem_of_lookup he))

theorem Sound.shrink {r r' : Registry} (h : r.Sound) (hs : Shrinks r r') : r'.Sound where
  length_le := by
    rw [hs.maxRooms]
    exact Nat.le_trans hs.rooms.length_le h.length_le
  ascending := h.ascending.sublist (hs.rooms.map _)
  numbered := by
    intro id hid
    rw [hs.nextId]
    exact h.numbered id ((hs.rooms.map _).subset hid)
  nextId_pos := by
    rw [hs.nextId]
    exact h.nextId_pos
  nextId_le := by
    rw [hs.nextId]
    exact h.nextId_le
  entries := by
    intro x hx
    rw [hs.capacity]
    exact h.entries x (hs.rooms.subset hx)

/-! ## The choice of a room -/

theorem lt_of_choose_new {r : Registry} {requested : Option RoomId}
    (h : r.choose requested = .ok .new) : r.rooms.length < r.maxRooms := by
  unfold choose at h
  split at h
  · split at h
    · cases h
    · cases h
  · split at h
    · cases h
    · split at h
      · assumption
      · cases h

theorem lookup_of_choose {r : Registry} (hr : r.Ordered) {requested : Option RoomId} {id : RoomId}
    (h : r.choose requested = .ok (.existing id)) :
    ∃ e, r.rooms.lookup id = some e ∧ e.members.length < r.capacity := by
  obtain ⟨e, he, hspace⟩ := mem_of_choose h
  have hcount := (Bool.and_eq_true_iff.mp hspace).2
  exact ⟨e, lookup_of_mem hr.nodup he, of_decide_eq_true hcount⟩

end Registry

end Gamewire
