import Gamewire.Files.System
import Gamewire.Proofs.Wire.Bytes

/-! What is written to a file of a tree is what is read from it afterwards: a file is put where no folder
is, so every way through the tree stays as it was. -/
namespace Gamewire.FileTree
set_option autoImplicit false

variable {t after : FileTree} {place other reached start names more : List String} {n : FileNode}
  {name path : String} {content : List UInt8}

/-! ## One node set -/

theorem lookup_replaced (nodes : List (List String × FileNode)) (place other : List String)
    (n : FileNode) : (nodes.map fun x => if x.1 = place then (place, n) else x).lookup other =
      if other = place then (nodes.lookup other).map fun _ => n else nodes.lookup other := by
  induction nodes with
  | nil => simp
  | cons x nodes ih =>
    obtain ⟨p, m⟩ := x
    rw [List.map_cons]
    by_cases hplace : p = place
    · subst hplace
      by_cases hother : other = p
      · simp [hother]
      · simp [hother, ih, List.lookup_cons, beq_eq_false_iff_ne.mpr hother]
    · by_cases hother : other = p
      · simp [hother, hplace]
      · simp [hplace, ih, List.lookup_cons, beq_eq_false_iff_ne.mpr hother]

theorem lookup_setNode (t : FileTree) (place other : List String) (n : FileNode) :
    (t.setNode place n).nodes.lookup other =
      if other = place then some n else t.nodes.lookup other := by
  rw [setNode]
  split
  · rename_i hthere
    obtain ⟨m, hm⟩ := Option.isSome_iff_exists.mp hthere
    rw [lookup_replaced]
    split
    · rename_i hsame
      rw [hsame, hm, Option.map_some]
    · rfl
  · rename_i hnew
    rw [List.lookup_append]
    split
    · rename_i hsame
      rw [hsame, Option.not_isSome_iff_eq_none.mp hnew, List.lookup_cons_self, Option.none_or]
    · rename_i hother
      rw [List.lookup_cons, beq_eq_false_iff_ne.mpr hother]
      simp

theorem node?_setNode_self (h : place ≠ []) : (t.setNode place n).node? place = some n := by
  rw [node?, if_neg (by simpa using h), lookup_setNode, if_pos rfl]

theorem node?_setNode_of_ne (h : other ≠ place) :
    (t.setNode place n).node? other = t.node? other := by
  rw [node?, node?, lookup_setNode, if_neg h]

theorem start_setNode : (t.setNode place n).start path = t.start path := by
  have hsame : (t.setNode place n).workingFolder = t.workingFolder := by
    rw [setNode]
    split <;> rfl
  rw [start, start, hsame]

/-! ## Ways through a tree -/

theorem follow_cons_iff : t.follow start (name :: names) = .ok reached ↔
    t.node? start = some .folder ∧
      (name = ".." ∧ t.follow start.dropLast names = .ok reached ∨
        name ≠ ".." ∧ name.utf8ByteSize ≤ maxNameBytes ∧ (t.node? (start ++ [name])).isSome ∧
          t.follow (start ++ [name]) names = .ok reached) := by
  rw [follow]
  by_cases hfolder : t.node? start = some .folder
  · by_cases hup : name = ".."
    · simp [hfolder, hup]
    · by_cases hlong : maxNameBytes < name.utf8ByteSize
      · simp [hfolder, hup, hlong, Nat.not_le.mpr hlong]
      · by_cases hnone : t.node? (start ++ [name]) = none
        · simp [hfolder, hup, hlong, hnone]
        · obtain ⟨m, hm⟩ := Option.ne_none_iff_exists'.mp hnone
          simp [hfolder, hup, Nat.not_lt.mp hlong, hlong, hm]
  · simp [hfolder]

theorem follow_append (h : t.follow start names = .ok place)
    (hmore : t.follow place more = .ok reached) :
    t.follow start (names ++ more) = .ok reached := by
  induction names generalizing start with
  | nil =>
    cases h
    exact hmore
  | cons name names ih =>
    obtain ⟨hfolder, ⟨hup, hrest⟩ | ⟨hdown, hshort, hthere, hrest⟩⟩ := follow_cons_iff.mp h
    · exact follow_cons_iff.mpr ⟨hfolder, .inl ⟨hup, ih hrest⟩⟩
    · exact follow_cons_iff.mpr ⟨hfolder, .inr ⟨hdown, hshort, hthere, ih hrest⟩⟩

/-- Where no folder is, there is no way through, so all ways stay when a file is put there. -/
theorem follow_setNode (h : t.node? place ≠ some .folder)
    (hfollow : t.follow start names = .ok reached) :
    (t.setNode place (.file content)).follow start names = .ok reached := by
  have hfolders : ∀ p, t.node? p = some .folder →
      (t.setNode place (.file content)).node? p = some .folder := by
    intro p hp
    have hother : p ≠ place := by
      rintro rfl
      exact h hp
    rw [node?_setNode_of_ne hother, hp]
  induction names generalizing start with
  | nil => exact hfollow
  | cons name names ih =>
    obtain ⟨hfolder, ⟨hup, hrest⟩ | ⟨hdown, hshort, hthere, hrest⟩⟩ := follow_cons_iff.mp hfollow
    · exact follow_cons_iff.mpr ⟨hfolders _ hfolder, .inl ⟨hup, ih hrest⟩⟩
    · refine follow_cons_iff.mpr ⟨hfolders _ hfolder, .inr ⟨hdown, hshort, ?_, ih hrest⟩⟩
      -- only the last name of a way leads to what is no folder
      by_cases hsame : start ++ [name] = place
      · rw [← hsame, node?_setNode_self (by simp)]
        rfl
      · rwa [node?_setNode_of_ne hsame]

/-! ## Files -/

theorem splitNames_eq_some (h : splitNames names = some (start, name)) :
    names = start ++ [name] ∧ name ≠ ".." := by
  rw [splitNames] at h
  split at h
  · rename_i hlast
    split at h
    · cases h
    · rename_i hdown
      cases h
      obtain ⟨front, rfl⟩ := List.getLast?_eq_some_iff.mp hlast
      exact ⟨by rw [List.dropLast_concat], hdown⟩
  · cases h

theorem eq_ok_of_bind {α β : Type} {x : Except FileFault α} {next : α → Except FileFault β} {b : β}
    (h : x >>= next = .ok b) : ∃ a, x = .ok a ∧ next a = .ok b := by
  cases x with
  | error e => cases h
  | ok a => exact ⟨a, rfl, h⟩

theorem target_eq_ok (h : t.target start names name = .ok place) :
    ∃ folder, place = folder ++ [name] ∧ t.follow start names = .ok folder ∧
      t.node? folder = some .folder ∧ name.utf8ByteSize ≤ maxNameBytes := by
  obtain ⟨folder, hfollow, h⟩ := eq_ok_of_bind h
  split at h
  · cases h
  rename_i hfolder
  split at h
  · cases h
  rename_i hshort
  cases h
  exact ⟨folder, rfl, hfollow, Decidable.not_not.mp hfolder, Nat.not_lt.mp hshort⟩

/-- A write that succeeds puts a file into a folder that is there, in place of no folder. -/
theorem write_eq_ok (h : t.write path content = .ok after) :
    checkPath path = .ok () ∧ meansFolder path = false ∧
      ∃ names name folder, pathNames path = names ++ [name] ∧ name ≠ ".." ∧
        t.follow (t.start path) names = .ok folder ∧ t.node? folder = some .folder ∧
        name.utf8ByteSize ≤ maxNameBytes ∧ t.node? (folder ++ [name]) ≠ some .folder ∧
        after = t.setNode (folder ++ [name]) (.file content) := by
  obtain ⟨_, hpath, h⟩ := eq_ok_of_bind h
  split at h
  · obtain ⟨_, -, h⟩ := eq_ok_of_bind h
    cases h
  · rename_i names name hsplit
    obtain ⟨place, htarget, h⟩ := eq_ok_of_bind h
    obtain ⟨hnames, hdown⟩ := splitNames_eq_some hsplit
    obtain ⟨folder, rfl, hfollow, hfolder, hshort⟩ := target_eq_ok htarget
    split at h
    · cases h
    rename_i hfile
    split at h
    · cases h
    rename_i hfree
    cases h
    exact ⟨hpath, Bool.eq_false_iff.mpr hfile, names, name, folder, hnames, hdown, hfollow, hfolder,
      hshort, hfree, rfl⟩

theorem find_of_follow (hpath : checkPath path = .ok ()) (hfile : meansFolder path = false)
    (hfollow : t.follow (t.start path) (pathNames path) = .ok place)
    (hnode : t.node? place = some (.file content)) : t.find path = .ok (place, .file content) := by
  simp [find, hpath, hfollow, hnode, hfile, bind, Except.bind]

/-- What is written is read. -/
theorem read_write (h : t.write path content = .ok after) : after.read path = .ok content := by
  obtain ⟨hpath, hfile, names, name, folder, hnames, hdown, hfollow, hfolder, hshort, hfree, hafter⟩ :=
    write_eq_ok h
  have hnode : after.node? (folder ++ [name]) = some (.file content) := by
    rw [hafter]
    exact node?_setNode_self (by simp)
  have hstays : after.node? folder = some .folder := by
    rw [hafter, node?_setNode_of_ne (by simp), hfolder]
  have hway : after.follow (after.start path) names = .ok folder := by
    rw [hafter, start_setNode]
    exact follow_setNode hfree hfollow
  have hlast : after.follow folder [name] = .ok (folder ++ [name]) :=
    follow_cons_iff.mpr ⟨hstays, .inr ⟨hdown, hshort, hnode ▸ rfl, rfl⟩⟩
  have hfound := follow_append hway hlast
  rw [← hnames] at hfound
  rw [read, find_of_follow hpath hfile hfound hnode]
  rfl

theorem readText_write {text : String} (h : t.write path (Text.utf8Bytes text) = .ok after) :
    after.readText path = .ok text := by
  rw [readText, read_write h]
  simp only [bind, Except.bind, Text.ofUtf8?_utf8Bytes]

/-! ## The tree as a file system -/

theorem system_write_ok {text : String} (h : t.write path (Text.utf8Bytes text) = .ok after) :
    (system.write path text).run t = (.ok (), after) := by
  show change (·.write path (Text.utf8Bytes text)) t = _
  simp only [change, h]

theorem system_write_error {text : String} {e : FileFault}
    (h : t.write path (Text.utf8Bytes text) = .error e) :
    (system.write path text).run t = (.error e, t) := by
  show change (·.write path (Text.utf8Bytes text)) t = _
  simp only [change, h]

theorem system_readText (t : FileTree) (path : String) :
    (system.readText path).run t = (t.readText path, t) := rfl

end Gamewire.FileTree
