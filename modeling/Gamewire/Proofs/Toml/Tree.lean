import Gamewire.Proofs.Toml.Document

/-! The table that a document of sections describes: each section adds one table to the list under its
header, in the last table of each list on the way. -/
namespace Gamewire.Toml
set_option autoImplicit false

/-! ## Entries -/

/-- What a line adds to its table. -/
def Line.entry (l : Line) : String × Item := (l.key, .value l.value.value)

/-- The entries that hold a list of tables: there is none as long as the list is empty. -/
def listed (key : String) (tables : List Entries) : Entries :=
  match tables.getLast? with
  | some last => [(key, .tables tables.dropLast last)]
  | none => []

theorem listed_nil (key : String) : listed key [] = [] := rfl

theorem listed_concat (key : String) (tables : List Entries) (last : Entries) :
    listed key (tables ++ [last]) = [(key, .tables tables last)] := by
  simp [listed]

/-- The finished table. -/
def tableValue (entries : Entries) : Value := .table (Item.entriesToValues entries)

theorem entriesToValues_append (a b : Entries) :
    Item.entriesToValues (a ++ b) = Item.entriesToValues a ++ Item.entriesToValues b := by
  induction a with
  | nil => rfl
  | cons e a ih =>
    obtain ⟨key, item⟩ := e
    rw [List.cons_append, Item.entriesToValues, Item.entriesToValues, ih, List.cons_append]

theorem listToValues_eq (tables : List Entries) :
    Item.listToValues tables = tables.map tableValue := by
  induction tables with
  | nil => rfl
  | cons e tables ih => rw [Item.listToValues, ih, List.map_cons, tableValue]

theorem entriesToValues_listed (key : String) {tables : List Entries} (h : tables ≠ []) :
    Item.entriesToValues (listed key tables) = [(key, .array (tables.map tableValue))] := by
  obtain ⟨tables, last, rfl⟩ := List.eq_nil_or_concat tables |>.resolve_left h
  rw [List.concat_eq_append, listed_concat, Item.entriesToValues, Item.toValue, listToValues_eq,
    Item.entriesToValues, List.map_append]
  rfl

/-! ## Filling a table -/

theorem addDotted_bare (key : String) (v : Value) (entries : Entries) :
    Entries.addDotted key v [] entries = Entries.addNew key v entries := by
  cases entries <;> rfl

theorem lookup_eq_none {key : String} {entries : Entries} (h : key ∉ entries.map (·.1)) :
    entries.lookup key = none := by
  rw [List.lookup_eq_none_iff]
  intro e he
  rw [bne_iff_ne]
  rintro rfl
  exact h (List.mem_map_of_mem he)

theorem fill_lines {ls : List Line} (entries : Entries)
    (h : (entries.map (·.1) ++ ls.map (·.key)).Nodup) :
    Entries.fill (ls.map Line.assignment) entries = some (entries ++ ls.map Line.entry) := by
  induction ls generalizing entries with
  | nil => simp [Entries.fill]
  | cons l ls ih =>
    rw [List.map_cons, List.append_cons] at h
    have hnew : l.key ∉ entries.map (·.1) := by
      intro hold
      have hleft := List.nodup_append.mp (List.nodup_append.mp h).1
      exact hleft.2.2 _ hold _ (List.mem_singleton_self l.key) rfl
    have hrest := ih (entries ++ [l.entry]) (by rwa [List.map_append])
    rw [List.map_cons, Entries.fill, Line.assignment, addDotted_bare, Entries.addNew,
      lookup_eq_none hnew]
    show Entries.fill (ls.map Line.assignment) (entries ++ [l.entry]) = _
    rw [hrest, List.append_assoc]
    rfl

/-! ## Lists of tables -/

theorem lookup_append {key : String} {base rest : Entries} (h : key ∉ base.map (·.1)) :
    (base ++ rest).lookup key = rest.lookup key := by
  rw [List.lookup_append, lookup_eq_none h, Option.none_or]

theorem replace_append {key : String} {item : Item} {base rest : Entries}
    (h : key ∉ base.map (·.1)) :
    Entries.replace key item (base ++ rest) = base ++ Entries.replace key item rest := by
  induction base with
  | nil => rfl
  | cons e base ih =>
    obtain ⟨k, i⟩ := e
    rw [List.map_cons, List.mem_cons, not_or] at h
    rw [List.cons_append, Entries.replace, if_neg (Ne.symm h.1), ih h.2, List.cons_append]

/-- A list gets one more table at its end, and is made for the first one. -/
theorem addToList_listed {key : String} {base : Entries} (hbase : key ∉ base.map (·.1))
    {body : List Assignment} {filled : Entries} (hfill : Entries.fill body [] = some filled)
    (tables : List Entries) : Entries.addToList key body (base ++ listed key tables) =
      some (base ++ listed key (tables ++ [filled])) := by
  rw [Entries.addToList, lookup_append hbase, listed_concat]
  obtain rfl | ⟨earlier, last, rfl⟩ := List.eq_nil_or_concat tables
  · rw [listed_nil, List.lookup_nil, List.append_nil, hfill]
  · rw [List.concat_eq_append, listed_concat, List.lookup_cons, beq_self_eq_true]
    simp only [hfill]
    rw [replace_append hbase, Entries.replace, if_pos rfl]

/-- On its way through a list, a header means the last table. -/
theorem atPath_listed (change : Entries → Option Entries) (key : String) (tables : List Entries)
    (last : Entries) : Entries.atPath change [key] (listed key (tables ++ [last])) =
      (change last).map fun last => listed key (tables ++ [last]) := by
  rw [listed_concat, Entries.atPath, List.lookup_cons, beq_self_eq_true]
  simp only [Entries.atPath, Entries.replace, if_true]
  cases change last with
  | none => rfl
  | some last => rw [Option.map_some, listed_concat]

/-! ## Headers -/

/-- What a section with a header does to the tables so far. -/
def Section.add (entries : Entries) (s : Section) : Option Entries :=
  Entries.atPath (Entries.addToList (s.header.getLast?.getD "") (s.lines.map Line.assignment))
    s.header.dropLast entries

theorem leadingAssignments_lines (ls : List Line) (ss : List Statement) :
    leadingAssignments (ls.map (.assign ·.assignment) ++ ss) =
      ls.map Line.assignment ++ leadingAssignments ss := by
  induction ls with
  | nil => rfl
  | cons l ls ih => rw [List.map_cons, List.cons_append, leadingAssignments, ih, List.map_cons,
      List.cons_append]

theorem addHeaders_lines (ls : List Line) (ss : List Statement) (entries : Entries) :
    addHeaders (ls.map (.assign ·.assignment) ++ ss) entries = addHeaders ss entries := by
  induction ls with
  | nil => rfl
  | cons l ls ih => rw [List.map_cons, List.cons_append, addHeaders, ih]

theorem statements_of_header {s : Section} (h : s.header ≠ []) :
    s.statements = .listHeader s.header.dropLast (s.header.getLast?.getD "") ::
      s.lines.map (.assign ·.assignment) := by
  rw [Section.statements]
  cases hlast : s.header.getLast? with
  | none => exact absurd (List.getLast?_eq_none_iff.mp hlast) h
  | some key => rfl

/-- Assignments stand behind the header that they belong to. -/
theorem leadingAssignments_sections {sections : List Section} (h : ∀ s ∈ sections, s.header ≠ []) :
    leadingAssignments (sections.flatMap Section.statements) = [] := by
  cases sections with
  | nil => rfl
  | cons s rest =>
    rw [List.flatMap_cons, statements_of_header (h s List.mem_cons_self)]
    rfl

theorem addHeaders_sections {sections : List Section} (h : ∀ s ∈ sections, s.header ≠ [])
    (entries : Entries) : addHeaders (sections.flatMap Section.statements) entries =
      sections.foldlM Section.add entries := by
  induction sections generalizing entries with
  | nil => rfl
  | cons s rest ih =>
    obtain ⟨hs, hrest⟩ := List.forall_mem_cons.mp h
    rw [List.flatMap_cons, statements_of_header hs, List.cons_append, addHeaders,
      leadingAssignments_lines, leadingAssignments_sections hrest, List.append_nil, List.foldlM_cons,
      Section.add]
    cases Entries.atPath (Entries.addToList (s.header.getLast?.getD "") (s.lines.map Line.assignment))
      s.header.dropLast entries with
    | none => rfl
    | some entries => exact (addHeaders_lines _ _ _).trans (ih hrest entries)

/-- Sections that all have headers add their tables one after the other. -/
theorem tableOfStatements_sections {sections : List Section} (h : ∀ s ∈ sections, s.header ≠ []) :
    tableOfStatements (sections.flatMap Section.statements) =
      (sections.foldlM Section.add []).map Item.entriesToValues := by
  rw [tableOfStatements, leadingAssignments_sections h, Entries.fill]
  simp only [addHeaders_sections h]
  cases sections.foldlM Section.add [] <;> rfl

/-! ## Documents without headers -/

theorem entriesToValues_lines (ls : List Line) :
    Item.entriesToValues (ls.map Line.entry) = ls.map fun l => (l.key, l.value.value) := by
  induction ls with
  | nil => rfl
  | cons l ls ih => rw [List.map_cons, Line.entry, Item.entriesToValues, ih, Item.toValue, List.map_cons]

/-- Lines alone give the table of their values. -/
theorem tableOfStatements_lines {ls : List Line} (h : (ls.map (·.key)).Nodup) :
    tableOfStatements (ls.map (.assign ·.assignment)) =
      some (ls.map fun l => (l.key, l.value.value)) := by
  have hnone : leadingAssignments [] = [] := rfl
  have hend : addHeaders [] (ls.map Line.entry) = some (ls.map Line.entry) := rfl
  have hleading := leadingAssignments_lines ls []
  have hheaders := addHeaders_lines ls [] (ls.map Line.entry)
  rw [List.append_nil, hnone, List.append_nil] at hleading
  rw [List.append_nil, hend] at hheaders
  rw [tableOfStatements, hleading, fill_lines [] h, List.nil_append]
  simp only [hheaders, entriesToValues_lines]

theorem parse?_lines {ls : List Line} (hreadable : ∀ l ∈ ls, l.Readable)
    (h : (ls.map (·.key)).Nodup) :
    parse? (String.ofList (writeSections [⟨[], ls⟩])) =
      some (.table (ls.map fun l => (l.key, l.value.value))) := by
  have hsection : Section.Readable ⟨[], ls⟩ :=
    ⟨List.forall_mem_nil _, show 0 < nestingLimit by decide, hreadable⟩
  have hstatements : Section.statements ⟨[], ls⟩ = ls.map (.assign ·.assignment) := rfl
  rw [parse?_writeSections (List.forall_mem_singleton.mpr hsection), List.flatMap_singleton,
    hstatements, tableOfStatements_lines h, Option.map_some]

/-! ## Looking up -/

theorem Value.asNat?_integer {max n : Nat} (h : n ≤ max) : (Value.integer n).asNat? max = some n := by
  rw [asNat?, if_pos ⟨Int.natCast_nonneg n, Int.ofNat_le.mpr h⟩, Int.toNat_natCast]

theorem lookup_of_mem {key : String} {v : Value} {entries : List (String × Value)}
    (h : (key, v) ∈ entries) (hunique : ∀ w, (key, w) ∈ entries → w = v) :
    entries.lookup key = some v := by
  cases hlookup : entries.lookup key with
  | none =>
    have hne := List.lookup_eq_none_iff.mp hlookup _ h
    simp at hne
  | some w =>
    obtain ⟨before, after, hentries, -⟩ := List.lookup_eq_some_iff.mp hlookup
    rw [hunique w (hentries ▸ List.mem_append_right before List.mem_cons_self)]

end Gamewire.Toml
