import Gamewire.Room.Lobby

/-! The two ways in which rooms and their members are kept: ascending lists of connections, and
lists of rooms by number. What a connection that comes or goes does to them is said once here, for
the register and for the running rooms alike. -/
namespace Gamewire
set_option autoImplicit false

/-! ## Ascending lists of connections -/

theorem mem_insertConn {conn c : ConnId} {cs : List ConnId} :
    c ∈ insertConn conn cs ↔ c = conn ∨ c ∈ cs := by
  induction cs with
  | nil => simp [insertConn]
  | cons x cs ih =>
    unfold insertConn
    split
    · simp
    · split
      · rename_i hx
        simp [hx]
      · rw [List.mem_cons, ih, List.mem_cons]
        exact or_left_comm

theorem insertConn_length_le (conn : ConnId) (cs : List ConnId) :
    (insertConn conn cs).length ≤ cs.length + 1 := by
  induction cs with
  | nil => simp [insertConn]
  | cons x cs ih =>
    unfold insertConn
    split
    · simp
    · split
      · simp
      · rw [List.length_cons, List.length_cons]
        omega

theorem insertConn_ascending {conn : ConnId} {cs : List ConnId} (h : cs.Pairwise (· < ·)) :
    (insertConn conn cs).Pairwise (· < ·) := by
  induction cs with
  | nil => simp [insertConn]
  | cons x cs ih =>
    obtain ⟨hx, hcs⟩ := List.pairwise_cons.mp h
    unfold insertConn
    split
    · rename_i hlt
      refine List.pairwise_cons.mpr ⟨?_, h⟩
      intro c hc
      obtain rfl | hc := List.mem_cons.mp hc
      · exact hlt
      · exact UInt32.lt_trans hlt (hx c hc)
    · split
      · exact h
      · rename_i hlt hne
        refine List.pairwise_cons.mpr ⟨?_, ih hcs⟩
        intro c hc
        obtain rfl | hc := mem_insertConn.mp hc
        · exact UInt32.lt_of_le_of_ne (UInt32.not_lt.mp hlt) (Ne.symm hne)
        · exact hx c hc

theorem ascending_nodup {cs : List ConnId} (h : cs.Pairwise (· < ·)) : cs.Nodup := by
  apply h.imp
  rintro c d hlt rfl
  exact UInt32.lt_irrefl c hlt

/-- Ascending lists are told apart by their members. -/
theorem ascending_ext {cs ds : List ConnId} (hc : cs.Pairwise (· < ·)) (hd : ds.Pairwise (· < ·))
    (h : ∀ c, c ∈ cs ↔ c ∈ ds) : cs = ds := by
  have hperm := (List.perm_ext_iff_of_nodup (ascending_nodup hc) (ascending_nodup hd)).mpr h
  refine hperm.eq_of_pairwise ?_ hc hd
  intro c d _ _ hcd hdc
  exact absurd (UInt32.lt_trans hcd hdc) (UInt32.lt_irrefl c)

theorem map_fst_insertMember (conn : ConnId) (ticket : Ticket) (ms : List (ConnId × Ticket)) :
    (Room.insertMember conn ticket ms).map (·.1) = insertConn conn (ms.map (·.1)) := by
  induction ms with
  | nil => rfl
  | cons m ms ih =>
    obtain ⟨c, t⟩ := m
    unfold Room.insertMember
    simp only [List.map_cons]
    unfold insertConn
    split
    · rfl
    · split
      · rename_i hc
        rw [hc]
        rfl
      · rw [List.map_cons, ih]

theorem map_fst_filter_ne (conn : ConnId) (ms : List (ConnId × Ticket)) :
    (ms.filter (·.1 != conn)).map (·.1) = (ms.map (·.1)).filter (· != conn) := by
  rw [List.filter_map]
  rfl

theorem filter_ne_of_not_mem {conn : ConnId} {cs : List ConnId} (h : conn ∉ cs) :
    cs.filter (· != conn) = cs := by
  apply List.filter_eq_self.mpr
  intro c hc
  simp only [bne_iff_ne, ne_eq]
  rintro rfl
  exact h hc

/-! ## Rooms by number -/

section ByNumber

variable {α β : Type} {id : RoomId}

theorem mem_of_lookup {a : α} {xs : List (RoomId × α)} (h : xs.lookup id = some a) :
    (id, a) ∈ xs := by
  obtain ⟨before, after, hxs, -⟩ := List.lookup_eq_some_iff.mp h
  rw [hxs]
  exact List.mem_append_right before List.mem_cons_self

theorem lookup_of_mem {a : α} {xs : List (RoomId × α)} (hn : (xs.map (·.1)).Nodup)
    (h : (id, a) ∈ xs) : xs.lookup id = some a := by
  obtain ⟨before, after, hxs⟩ := List.append_of_mem h
  refine List.lookup_eq_some_iff.mpr ⟨before, after, hxs, ?_⟩
  intro x hx
  rw [hxs, List.map_append, List.map_cons] at hn
  have hne := (List.nodup_append.mp hn).2.2 x.1 (List.mem_map_of_mem hx) id List.mem_cons_self
  simpa using Ne.symm hne

theorem lookup_map_snd (f : α → β) (id : RoomId) (xs : List (RoomId × α)) :
    (xs.map fun x => (x.1, f x.2)).lookup id = (xs.lookup id).map f := by
  induction xs with
  | nil => rfl
  | cons x xs ih =>
    obtain ⟨k, a⟩ := x
    simp only [List.map_cons, List.lookup_cons, ih]
    cases id == k <;> rfl

theorem lookup_cons_ne {id' : RoomId} (h : id' ≠ id) (a : α) (xs : List (RoomId × α)) :
    ((id, a) :: xs).lookup id' = xs.lookup id' := by
  have hne : (id' == id) = false := beq_eq_false_iff_ne.mpr h
  rw [List.lookup_cons, hne]

theorem lookup_set (id id' : RoomId) (a : α) (xs : List (RoomId × α)) :
    (xs.map fun x => if x.1 = id then (id, a) else x).lookup id' =
      if id' = id then (xs.lookup id).map (fun _ => a) else xs.lookup id' := by
  induction xs with
  | nil => simp
  | cons x xs ih =>
    obtain ⟨k, b⟩ := x
    rw [List.map_cons]
    by_cases hk : k = id
    · subst hk
      simp only [if_true]
      by_cases hid : id' = k
      · rw [hid, if_pos rfl, List.lookup_cons_self, List.lookup_cons_self]
        rfl
      · rw [if_neg hid, lookup_cons_ne hid, lookup_cons_ne hid, ih, if_neg hid]
    · simp only [hk, if_false]
      rw [lookup_cons_ne (Ne.symm hk)]
      by_cases hid : id' = k
      · rw [hid, if_neg hk, List.lookup_cons_self, List.lookup_cons_self]
      · rw [lookup_cons_ne hid, lookup_cons_ne hid, ih]

theorem lookup_drop (id id' : RoomId) (xs : List (RoomId × α)) :
    (xs.filter (·.1 != id)).lookup id' = if id' = id then none else xs.lookup id' := by
  induction xs with
  | nil => simp
  | cons x xs ih =>
    obtain ⟨k, b⟩ := x
    by_cases hk : k = id
    · subst hk
      rw [List.filter_cons_of_neg (by simp), ih]
      by_cases hid : id' = k
      · rw [if_pos hid, if_pos hid]
      · rw [if_neg hid, if_neg hid, lookup_cons_ne hid]
    · rw [List.filter_cons_of_pos (by simp [hk])]
      by_cases hid : id' = k
      · rw [hid, if_neg hk, List.lookup_cons_self, List.lookup_cons_self]
      · rw [lookup_cons_ne hid, lookup_cons_ne hid, ih]

theorem map_fst_set (id : RoomId) (a : α) (xs : List (RoomId × α)) :
    (xs.map fun x => if x.1 = id then (id, a) else x).map (·.1) = xs.map (·.1) := by
  rw [List.map_map]
  apply List.map_congr_left
  intro x _
  simp only [Function.comp_apply]
  split
  · rename_i hx
    exact hx.symm
  · rfl

theorem map_snd_set (f : α → β) (id : RoomId) (a : α) (xs : List (RoomId × α)) :
    (xs.map fun x => if x.1 = id then (id, a) else x).map (fun x => (x.1, f x.2)) =
      (xs.map fun x => (x.1, f x.2)).map fun x => if x.1 = id then (id, f a) else x := by
  rw [List.map_map, List.map_map]
  apply List.map_congr_left
  intro x _
  simp only [Function.comp_apply]
  split <;> rfl

theorem map_snd_drop (f : α → β) (id : RoomId) (xs : List (RoomId × α)) :
    (xs.filter (·.1 != id)).map (fun x => (x.1, f x.2)) =
      (xs.map fun x => (x.1, f x.2)).filter (·.1 != id) := by
  rw [List.filter_map]
  rfl

theorem set_of_lookup {a : α} {xs : List (RoomId × α)} (hn : (xs.map (·.1)).Nodup)
    (h : xs.lookup id = some a) : (xs.map fun x => if x.1 = id then (id, a) else x) = xs := by
  refine (List.map_congr_left ?_).trans (List.map_id xs)
  rintro ⟨k, b⟩ hx
  simp only [id_eq]
  split
  · rename_i hk
    subst hk
    rw [lookup_of_mem hn hx] at h
    cases h
    rfl
  · rfl

theorem drop_of_lookup {xs : List (RoomId × α)} (h : xs.lookup id = none) :
    xs.filter (·.1 != id) = xs := by
  apply List.filter_eq_self.mpr
  intro x hx
  exact bne_iff_ne.mpr (Ne.symm (bne_iff_ne.mp (List.lookup_eq_none_iff.mp h x hx)))

theorem drop_drop (id : RoomId) (xs : List (RoomId × α)) :
    (xs.filter (·.1 != id)).filter (·.1 != id) = xs.filter (·.1 != id) := by
  rw [List.filter_filter]
  simp only [Bool.and_self]

theorem drop_set (id : RoomId) (a : α) (xs : List (RoomId × α)) :
    (xs.map fun x => if x.1 = id then (id, a) else x).filter (·.1 != id) =
      xs.filter (·.1 != id) := by
  induction xs with
  | nil => rfl
  | cons x xs ih =>
    obtain ⟨k, b⟩ := x
    rw [List.map_cons]
    by_cases hk : k = id
    · rw [if_pos hk, List.filter_cons_of_neg (by simp), List.filter_cons_of_neg (by simp [hk]), ih]
    · rw [if_neg hk, List.filter_cons_of_pos (by simp [hk]), List.filter_cons_of_pos (by simp [hk]),
        ih]

end ByNumber

end Gamewire
