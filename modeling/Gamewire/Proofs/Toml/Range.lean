import Gamewire.Proofs.Toml.Document

/-! The integers right under the keys of a document have 64 bits with a sign: a number is checked where it
is read, and what is put under a key afterwards is a value that was read, or a table or a list of them. -/
namespace Gamewire.Toml
set_option autoImplicit false

/-- An integer has its bounds; of other values nothing is asked. -/
def Value.InRange : Value → Prop
  | .integer n => minInteger ≤ n ∧ n ≤ maxInteger
  | _ => True

theorem Atom.inRange_value (a : Atom) : a.value.InRange ↔ a.Fits := by
  cases a <;> rfl

/-! ## Values -/

section Values

variable {v : Value} {cs rest : List Char}

theorem integer?_inRange {n : Int} (h : integer? n = some v) : v.InRange := by
  rw [integer?] at h
  split at h
  · rename_i hbounds
    cases h
    exact hbounds
  · cases h

theorem readBased_inRange {base : Nat} (h : readBased base cs = some (v, rest)) : v.InRange := by
  rw [readBased] at h
  split at h
  · split at h
    · split at h
      · rename_i hinteger
        cases h
        exact integer?_inRange hinteger
      · cases h
    · cases h
  · cases h

theorem finishFloat_inRange {negative : Bool} {whole fraction : List Char}
    (h : finishFloat negative whole fraction cs = some (v, rest)) : v.InRange := by
  rw [finishFloat] at h
  split at h
  · split at h
    · cases h
    · cases h
      trivial
  · cases h

theorem readInteger_inRange {negative : Bool} {whole : List Char}
    (h : readDecimal.readInteger negative whole cs = some (v, rest)) : v.InRange := by
  rw [readDecimal.readInteger] at h
  split at h
  · split at h
    · rename_i hinteger
      cases h
      exact integer?_inRange hinteger
    · cases h
  · cases h

theorem readDecimal_inRange {negative : Bool} (h : readDecimal negative cs = some (v, rest)) :
    v.InRange := by
  rw [readDecimal] at h
  split at h
  · cases h
  · split at h
    · split at h
      · exact finishFloat_inRange h
      · cases h
    · split at h
      · exact finishFloat_inRange h
      · exact readInteger_inRange h
    · exact readInteger_inRange h

theorem readNumber_inRange (h : readNumber cs = some (v, rest)) : v.InRange := by
  rw [readNumber.eq_def] at h
  split at h
  · exact readBased_inRange h
  · exact readBased_inRange h
  · exact readBased_inRange h
  · split at h
    · cases h
      trivial
    · cases h
      trivial
    · exact readDecimal_inRange h

theorem readNumberOrMoment_inRange (h : readNumberOrMoment cs = some (v, rest)) : v.InRange := by
  rw [readNumberOrMoment] at h
  split at h
  · split at h
    · split at h
      · cases h
        trivial
      · cases h
    · cases h
  · split at h
    · split at h
      · cases h
        trivial
      · cases h
    · exact readNumber_inRange h

theorem readValue_inRange {fuel depth : Nat} (h : readValue fuel depth cs = some (v, rest)) :
    v.InRange := by
  cases fuel with
  | zero =>
    rw [readValue] at h
    cases h
  | succ fuel =>
    rw [readValue.eq_def] at h
    simp only at h
    -- the last of the ways in which a value begins is that of a number
    split at h
    · split at h
      · cases h
        trivial
      · cases h
    · split at h
      · cases h
        trivial
      · cases h
    · cases h
      trivial
    · cases h
      trivial
    · split at h
      · cases h
      · split at h
        · cases h
          trivial
        · cases h
    · split at h
      · cases h
      · split at h
        · cases h
          trivial
        · split at h
          · split at h
            · rename_i htable
              cases h
              rw [inlineTable] at htable
              split at htable
              · cases htable
                trivial
              · cases htable
            · cases h
          · cases h
    · exact readNumberOrMoment_inRange h

end Values

/-! ## Statements -/

/-- The value of an assignment is in range; headers have none. -/
def Statement.InRange : Statement → Prop
  | .assign a => a.value.InRange
  | _ => True

theorem readStatement_inRange {cs rest : List Char} {s : Statement}
    (h : readStatement cs = some (s, rest)) : s.InRange := by
  rw [readStatement.eq_def] at h
  split at h
  · split at h
    · cases h
      trivial
    · cases h
  · split at h
    · cases h
      trivial
    · cases h
  · split at h
    · split at h
      · rename_i hvalue
        cases h
        exact readValue_inRange hvalue
      · cases h
    · cases h

theorem readStatements_inRange {fuel : Nat} {cs : List Char} {ss : List Statement}
    (h : readStatements fuel cs = some ss) : ∀ s ∈ ss, s.InRange := by
  induction fuel generalizing cs ss with
  | zero =>
    rw [readStatements] at h
    split at h
    · cases h
      exact List.forall_mem_nil _
    · cases h
  | succ fuel ih =>
    rw [readStatements] at h
    split at h
    · cases h
      exact List.forall_mem_nil _
    · split at h
      · exact ih h
      · split at h
        · cases h
        · rename_i hstatement
          split at h
          · cases h
          · split at h
            · rename_i hrest
              cases h
              exact List.forall_mem_cons.mpr ⟨readStatement_inRange hstatement, ih hrest⟩
            · cases h

theorem leadingAssignments_inRange {ss : List Statement} (h : ∀ s ∈ ss, s.InRange) :
    ∀ a ∈ leadingAssignments ss, a.value.InRange := by
  induction ss with
  | nil => exact List.forall_mem_nil _
  | cons s ss ih =>
    obtain ⟨hs, hss⟩ := List.forall_mem_cons.mp h
    cases s with
    | assign a => exact List.forall_mem_cons.mpr ⟨hs, ih hss⟩
    | header path key => exact List.forall_mem_nil _
    | listHeader path key => exact List.forall_mem_nil _

/-! ## Tables -/

/-- A value right under its key is in range. -/
def Item.InRange : Item → Prop
  | .value v => v.InRange
  | _ => True

def Entries.InRange (entries : Entries) : Prop := ∀ e ∈ entries, e.2.InRange

section Tables

variable {key : String} {item : Item} {v : Value} {path : List String} {entries after : Entries}

theorem Entries.InRange.concat (h : entries.InRange) (hitem : item.InRange) :
    Entries.InRange (entries ++ [(key, item)]) := by
  intro e he
  obtain he | he := List.mem_append.mp he
  · exact h e he
  · rw [List.mem_singleton.mp he]
    exact hitem

theorem Entries.InRange.replace (h : entries.InRange) (hitem : item.InRange) :
    Entries.InRange (entries.replace key item) := by
  induction entries with
  | nil => exact h
  | cons e entries ih =>
    obtain ⟨hhead, htail⟩ := List.forall_mem_cons.mp h
    rw [Entries.replace]
    split
    · exact List.forall_mem_cons.mpr ⟨hitem, htail⟩
    · exact List.forall_mem_cons.mpr ⟨hhead, ih htail⟩

theorem Entries.InRange.erase (h : entries.InRange) : Entries.InRange (entries.erase key) :=
  fun e he => h e (List.mem_filter.mp he).1

theorem addDotted_inRange (hv : v.InRange) (h : entries.InRange)
    (hadd : Entries.addDotted key v path entries = some after) : after.InRange := by
  cases path with
  | nil =>
    rw [Entries.addDotted.eq_def] at hadd
    simp only [Entries.addNew] at hadd
    split at hadd
    · cases hadd
      exact h.concat hv
    · cases hadd
  | cons k path =>
    -- the value goes into a table, and what is put under `k` is that table
    rw [Entries.addDotted.eq_def] at hadd
    simp only at hadd
    split at hadd
    · split at hadd
      · cases hadd
        exact h.concat trivial
      · cases hadd
    · split at hadd
      · cases hadd
      · split at hadd
        · cases hadd
          exact h.replace trivial
        · cases hadd
    · split at hadd
      · cases hadd
      · split at hadd
        · cases hadd
          exact h.replace trivial
        · cases hadd
    · cases hadd

theorem fill_inRange {body : List Assignment} (hbody : ∀ a ∈ body, a.value.InRange)
    (h : entries.InRange) (hfill : Entries.fill body entries = some after) : after.InRange := by
  induction body generalizing entries with
  | nil =>
    cases hfill
    exact h
  | cons a body ih =>
    obtain ⟨ha, hbody⟩ := List.forall_mem_cons.mp hbody
    rw [Entries.fill] at hfill
    split at hfill
    · rename_i hadd
      exact ih hbody (addDotted_inRange ha h hadd) hfill
    · cases hfill

theorem atPath_inRange {change : Entries → Option Entries}
    (hchange : ∀ {before after}, Entries.InRange before → change before = some after → after.InRange)
    (h : entries.InRange) (hpath : Entries.atPath change path entries = some after) :
    after.InRange := by
  cases path with
  | nil =>
    rw [Entries.atPath.eq_def] at hpath
    exact hchange h hpath
  | cons k path =>
    rw [Entries.atPath.eq_def] at hpath
    simp only at hpath
    split at hpath
    · split at hpath
      · cases hpath
        exact h.concat trivial
      · cases hpath
    · split at hpath
      · cases hpath
        exact h.replace trivial
      · cases hpath
    · split at hpath
      · cases hpath
        exact h.replace trivial
      · cases hpath
    · cases hpath

theorem addTable_inRange {body : List Assignment} (h : entries.InRange)
    (hadd : Entries.addTable key body entries = some after) : after.InRange := by
  rw [Entries.addTable] at hadd
  split at hadd
  · split at hadd
    · cases hadd
      exact h.concat trivial
    · cases hadd
  · split at hadd
    · cases hadd
      exact h.erase.concat trivial
    · cases hadd
  · cases hadd

theorem addToList_inRange {body : List Assignment} (h : entries.InRange)
    (hadd : Entries.addToList key body entries = some after) : after.InRange := by
  rw [Entries.addToList] at hadd
  split at hadd
  · split at hadd
    · cases hadd
      exact h.concat trivial
    · cases hadd
  · split at hadd
    · cases hadd
      exact h.replace trivial
    · cases hadd
  · cases hadd

theorem addHeaders_inRange {ss : List Statement} (h : entries.InRange)
    (hadd : addHeaders ss entries = some after) : after.InRange := by
  induction ss generalizing entries with
  | nil =>
    cases hadd
    exact h
  | cons s ss ih =>
    cases s with
    | assign a => exact ih h hadd
    | header path key =>
      rw [addHeaders] at hadd
      split at hadd
      · rename_i htable
        exact ih (atPath_inRange addTable_inRange h htable) hadd
      · cases hadd
    | listHeader path key =>
      rw [addHeaders] at hadd
      split at hadd
      · rename_i hlist
        exact ih (atPath_inRange addToList_inRange h hlist) hadd
      · cases hadd

theorem Entries.InRange.values (h : entries.InRange) :
    ∀ e ∈ Item.entriesToValues entries, e.2.InRange := by
  induction entries with
  | nil => exact List.forall_mem_nil _
  | cons e entries ih =>
    obtain ⟨key, item⟩ := e
    obtain ⟨hitem, htail⟩ := List.forall_mem_cons.mp h
    rw [Item.entriesToValues]
    refine List.forall_mem_cons.mpr ⟨?_, ih htail⟩
    cases item with
    | value v => exact hitem
    | table origin inner => trivial
    | tables earlier last => trivial

end Tables

/-! ## Documents -/

/-- The integers under the keys of a document are in range. -/
theorem parse?_inRange {source : String} {entries : List (String × Value)}
    (h : parse? source = some (.table entries)) : ∀ e ∈ entries, e.2.InRange := by
  rw [parse?] at h
  split at h
  · rename_i ss hread
    have hstatements := readStatements_inRange hread
    split at h
    · rename_i htable
      cases h
      rw [tableOfStatements] at htable
      split at htable
      · cases htable
      · rename_i hfill
        have hfilled := fill_inRange (leadingAssignments_inRange hstatements) (List.forall_mem_nil _) hfill
        split at htable
        · rename_i hheaders
          cases htable
          exact (addHeaders_inRange hfilled hheaders).values
        · cases htable
    · cases h
  · cases h

end Gamewire.Toml
